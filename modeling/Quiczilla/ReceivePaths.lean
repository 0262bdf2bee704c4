import Mathlib.Data.List.Infix
import Quiczilla.Coordination
import Quiczilla.FileReceiveTask

/-!
# The paths of a receive

The destination keeps the last component of the trimmed name, and the staging
path replaces the last component of the destination.  Neither is a directory
that the receive creates on its way.
-/

namespace Quiczilla

open Foundation

theorem isNormalName_withSuffix
    {name : String} (noSeparator : '/' ∉ name.toList) :
    IsNormalName (name ++ partialFileSuffix) := by
  have spelled :
      (name ++ partialFileSuffix).toList =
        name.toList ++ partialFileSuffix.toList :=
    String.toList_append
  have long : 10 ≤ (name ++ partialFileSuffix).toList.length := by
    rw [spelled, List.length_append]
    exact Nat.le_add_left 10 _
  refine ⟨?_, ?_, ?_, ?_⟩
  · intro same
    rw [same] at long
    exact absurd long (by decide)
  · intro same
    rw [same] at long
    exact absurd long (by decide)
  · intro same
    rw [same] at long
    exact absurd long (by decide)
  · rw [spelled, List.mem_append, not_or]
    exact ⟨noSeparator, by decide⟩

theorem getPartPath_named
    (base : UnixPath) {name : String} (normal : IsNormalName name) :
    getPartPath (base ++ [.normal name]) =
      base ++ [.normal (name ++ partialFileSuffix)] := by
  rw [getPartPath, withFileName, fileName_append_normal,
    if_pos Option.isSome_some, List.dropLast_concat, Option.getD_some]
  exact join_normal base (isNormalName_withSuffix normal.2.2.2)

theorem getPartPath_unnamed
    {path : UnixPath} (unnamed : fileName path = none) :
    getPartPath path = path ++ [.normal partialFileSuffix] := by
  rw [getPartPath, withFileName, unnamed, if_neg (by decide)]
  exact join_normal path (by decide)

theorem destinationPath_named
    (saveDir : String) {offeredName name : String}
    (named :
      fileName (components (trimControls offeredName)) = some name) :
    destinationPath saveDir offeredName =
      components (trimControls saveDir) ++ [.normal name] := by
  rw [destinationPath, safeName, named, Option.getD_some]
  exact join_normal _ (isNormalName_fileName named)

theorem destinationPath_unnamed
    (saveDir : String) {offeredName : String}
    (unnamed :
      fileName (components (trimControls offeredName)) = none) :
    destinationPath saveDir offeredName =
      components (trimControls saveDir) := by
  rw [destinationPath, safeName, unnamed, Option.getD_none,
    components_empty, join_nil]

theorem isNormalName_destinationPath
    {saveDir offeredName name : String}
    (named : fileName (destinationPath saveDir offeredName) = some name) :
    IsNormalName name := by
  cases final : fileName (components (trimControls offeredName)) with
  | none =>
      rw [destinationPath_unnamed saveDir final] at named
      exact isNormalName_fileName named
  | some last =>
      rw [destinationPath_named saveDir final, fileName_append_normal]
        at named
      rw [← Option.some.inj named]
      exact isNormalName_fileName final

/-- The staging path is another path, and no shorter. -/
theorem getPartPath_spec
    {path : UnixPath}
    (normal : ∀ name, fileName path = some name → IsNormalName name) :
    getPartPath path ≠ path ∧ path.length ≤ (getPartPath path).length := by
  cases named : fileName path with
  | none =>
      rw [getPartPath_unnamed named]
      constructor
      · intro same
        exact absurd (List.append_right_eq_self.mp same) nofun
      · rw [List.length_append]
        exact Nat.le_add_right _ _
  | some name =>
      have split := fileName_eq_some named
      generalize path.dropLast = base at split
      rw [split, getPartPath_named base (normal name named)]
      constructor
      · intro same
        have sameName :
            (Component.normal (name ++ partialFileSuffix)) =
              .normal name :=
          List.singleton_inj.mp (List.append_cancel_left same)
        have sameText : (name ++ partialFileSuffix).toList =
            name.toList :=
          congrArg String.toList (Component.normal.inj sameName)
        rw [String.toList_append] at sameText
        exact absurd (List.append_right_eq_self.mp sameText) (by decide)
      · rw [List.length_append, List.length_append]
        exact Nat.le_refl _

theorem partPath_ne_destPath (saveDir offeredName : String) :
    getPartPath (destinationPath saveDir offeredName) ≠
      destinationPath saveDir offeredName :=
  (getPartPath_spec fun _ => isNormalName_destinationPath).1

theorem ancestors_below
    {job : RecvJob} {path : UnixPath} (member : path ∈ job.ancestors) :
    path <+: job.destPath.dropLast := by
  have inits := (List.mem_filter.mp member).1
  refine ((List.mem_inits _ _).mp inits).trans ?_
  unfold parent
  split
  · exact List.nil_prefix
  · exact List.prefix_rfl
  · exact List.nil_prefix

theorem length_lt_of_ancestor
    {job : RecvJob} {path : UnixPath} (member : path ∈ job.ancestors) :
    path.length < job.destPath.length := by
  have nonempty : path ≠ [] := by
    simpa using (List.mem_filter.mp member).2
  have positive := List.length_pos_of_ne_nil nonempty
  have shorter := (ancestors_below member).length_le
  rw [List.length_dropLast] at shorter
  omega

/-- Neither the destination nor the staging path is a directory on the way. -/
theorem paths_not_ancestors
    {job : RecvJob} {saveDir offeredName : String}
    (isDest : job.destPath = destinationPath saveDir offeredName) :
    job.destPath ∉ job.ancestors ∧
      getPartPath job.destPath ∉ job.ancestors := by
  constructor
  · intro member
    exact Nat.lt_irrefl _ (length_lt_of_ancestor member)
  · intro member
    have shorter := length_lt_of_ancestor member
    rw [isDest] at shorter
    have longer :
        (destinationPath saveDir offeredName).length ≤
          (getPartPath (destinationPath saveDir offeredName)).length :=
      (getPartPath_spec fun _ => isNormalName_destinationPath).2
    exact absurd longer (Nat.not_le_of_lt shorter)

end Quiczilla
