import Mathlib.Data.List.Induction
import Quiczilla.DirectoryJail

/-!
# What the frames of a stream do to a tree

`updatedBy` says what a frame asks for: directories along its path, and for a
file its content.  `receivedBy` is what the receiver makes of it, which also
loses whatever is at the staging name of the file.  The two differ exactly at
the staging names that nothing restores.
-/

namespace Quiczilla

open Foundation

/-- The tree that the frame asks for. -/
def updatedBy (root : Location) (tree : FileTree) :
    DirectoryFrame → FileTree
  | .directory relative => tree.makeDirectories root (pathSegments relative)
  | .file relative content _ _ =>
      (tree.makeDirectories root (pathSegments relative).dropLast).put
        (root ++ pathSegments relative) (.file content)
  | _ => tree

/-- The frames, applied in their order. -/
def updatedByAll (root : Location) (tree : FileTree)
    (frames : List DirectoryFrame) : FileTree :=
  frames.foldl (updatedBy root) tree

/-- The staging location of a received file. -/
def stagingOf (root : Location) (relative : String) : Location :=
  root ++ (pathSegments relative).dropLast ++
    [stagingName (lastName relative)]

/-- The tree that the receiver leaves behind the frame. -/
def receivedBy (root : Location) (tree : FileTree)
    (frame : DirectoryFrame) : FileTree :=
  match frame with
  | .file relative _ _ _ =>
      if stagingOf root relative = root ++ pathSegments relative then
        updatedBy root tree frame
      else (updatedBy root tree frame).erase (stagingOf root relative)
  | _ => updatedBy root tree frame

def receivedByAll (root : Location) (tree : FileTree)
    (frames : List DirectoryFrame) : FileTree :=
  frames.foldl (receivedBy root) tree

/-- The location is the path of the frame, or above it and below the root. -/
def DirectoryFrame.Names (root location : Location) : DirectoryFrame → Prop
  | .directory relative | .file relative _ _ _ =>
      ∃ count < (pathSegments relative).length,
        location = root ++ (pathSegments relative).take (count + 1)
  | _ => False

instance (root location : Location) (frame : DirectoryFrame) :
    Decidable (frame.Names root location) :=
  match frame with
  | .directory _ | .file _ _ _ _ => inferInstanceAs (Decidable (∃ _ < _, _))
  | .packStart _ | .packEnd => inferInstanceAs (Decidable False)

/-- The frame is a file that is received under this location. -/
def DirectoryFrame.StagedAt (root location : Location) :
    DirectoryFrame → Prop
  | .file relative _ _ _ =>
      location = stagingOf root relative ∧
        location ≠ root ++ pathSegments relative
  | _ => False

/-- Every staging location other than the path of its own file is named by a
later frame, or nothing was there at first and no earlier frame names it. -/
def StagingHarmless
    (root : Location) (tree : FileTree) (frames : List DirectoryFrame) :
    Prop :=
  ∀ before frame after location, frames = before ++ frame :: after →
    frame.StagedAt root location →
      (∃ later ∈ after, later.Names root location) ∨
        (tree location = none ∧
          ∀ earlier ∈ before, ¬earlier.Names root location)

section Updates

variable {root location : Location} {frame : DirectoryFrame}

theorem updatedByAll_append
    (tree : FileTree) (frames : List DirectoryFrame) :
    updatedByAll root tree (frames ++ [frame]) =
      updatedBy root (updatedByAll root tree frames) frame := by
  rw [updatedByAll, List.foldl_append]
  rfl

theorem receivedByAll_append
    (tree : FileTree) (frames : List DirectoryFrame) :
    receivedByAll root tree (frames ++ [frame]) =
      receivedBy root (receivedByAll root tree frames) frame := by
  rw [receivedByAll, List.foldl_append]
  rfl

/-- The way to a file consists of the way to its parent and the file. -/
theorem names_file_iff (relative : String) :
    (∃ count < (pathSegments relative).length,
        location = root ++ (pathSegments relative).take (count + 1)) ↔
      (∃ count < (pathSegments relative).dropLast.length,
          location =
            root ++ (pathSegments relative).dropLast.take (count + 1)) ∨
        location = root ++ pathSegments relative := by
  have whole := pathSegments_eq relative
  generalize (pathSegments relative).dropLast = parents at whole
  rw [whole]
  constructor
  · rintro ⟨count, inside, rfl⟩
    rw [List.length_append, List.length_singleton] at inside
    by_cases isLast : count = parents.length
    · refine .inr ?_
      rw [isLast, List.take_of_length_le]
      rw [List.length_append, List.length_singleton]
    · have before : count < parents.length := by omega
      refine .inl ⟨count, before, ?_⟩
      rw [List.take_append_of_le_length (Nat.succ_le_of_lt before)]
  · rintro (⟨count, inside, rfl⟩ | rfl)
    · refine ⟨count, ?_, ?_⟩
      · rw [List.length_append, List.length_singleton]
        exact Nat.lt_succ_of_lt inside
      · rw [List.take_append_of_le_length (Nat.succ_le_of_lt inside)]
    · refine ⟨parents.length, ?_, ?_⟩
      · rw [List.length_append, List.length_singleton]
        exact Nat.lt_succ_self _
      · rw [List.take_of_length_le]
        rw [List.length_append, List.length_singleton]

/-- A frame leaves alone what it does not name. -/
theorem updatedBy_of_not_names
    (tree : FileTree) (unnamed : ¬frame.Names root location) :
    updatedBy root tree frame location = tree location := by
  cases frame with
  | directory relative => exact if_neg unnamed
  | packStart pack => rfl
  | packEnd => rfl
  | file relative content flag digest =>
      rw [DirectoryFrame.Names, names_file_iff] at unnamed
      push Not at unnamed
      have notParent :
          ¬∃ count < (pathSegments relative).dropLast.length,
              location =
                root ++ (pathSegments relative).dropLast.take (count + 1) :=
        fun ⟨count, inside, same⟩ => unnamed.1 count inside same
      rw [updatedBy, FileTree.put_other _ _ unnamed.2]
      exact if_neg notParent

/-- What a frame puts at a location that it names does not depend on the
tree. -/
theorem updatedBy_of_names
    (named : frame.Names root location) :
    ∃ node, ∀ tree, updatedBy root tree frame location = some node := by
  cases frame with
  | directory relative => exact ⟨.directory, fun tree => if_pos named⟩
  | packStart pack => exact absurd named id
  | packEnd => exact absurd named id
  | file relative content flag digest =>
      by_cases isFile : location = root ++ pathSegments relative
      · refine ⟨.file content, fun tree => ?_⟩
        rw [updatedBy, isFile, FileTree.put_same]
      · have onWay := ((names_file_iff relative).mp named).resolve_right isFile
        refine ⟨.directory, fun tree => ?_⟩
        rw [updatedBy, FileTree.put_other _ _ isFile]
        exact if_pos onWay

theorem receivedBy_of_stagedAt
    (tree : FileTree) (staged : frame.StagedAt root location) :
    receivedBy root tree frame location = none := by
  cases frame with
  | file relative content flag digest =>
      obtain ⟨rfl, different⟩ := staged
      rw [receivedBy, if_neg different, FileTree.erase_same]
  | directory relative => exact absurd staged id
  | packStart pack => exact absurd staged id
  | packEnd => exact absurd staged id

theorem receivedBy_of_not_stagedAt
    (tree : FileTree) (unstaged : ¬frame.StagedAt root location) :
    receivedBy root tree frame location =
      updatedBy root tree frame location := by
  cases frame with
  | file relative content flag digest =>
      rw [receivedBy]
      split
      · rfl
      · rename_i different
        have elsewhere : location ≠ stagingOf root relative := by
          rintro rfl
          exact unstaged ⟨rfl, different⟩
        exact FileTree.erase_other _ elsewhere
  | directory relative => rfl
  | packStart pack => rfl
  | packEnd => rfl

/-- A file does not name its own staging location. -/
theorem not_names_of_stagedAt
    (staged : frame.StagedAt root location) :
    ¬frame.Names root location := by
  cases frame with
  | file relative content flag digest =>
      obtain ⟨rfl, different⟩ := staged
      rintro ⟨count, inside, same⟩
      have whole := congrArg List.length (pathSegments_eq relative)
      rw [List.length_append, List.length_singleton] at whole
      have lengths := congrArg List.length same
      rw [stagingOf, List.append_assoc, List.length_append,
        List.length_append, List.length_append, List.length_singleton,
        List.length_take] at lengths
      have isLast : (pathSegments relative).length ≤ count + 1 := by
        omega
      rw [List.take_of_length_le isLast] at same
      exact different same
  | directory relative => exact absurd staged id
  | packStart pack => exact absurd staged id
  | packEnd => exact absurd staged id

/-- A location that holds nothing was empty at first and was not named. -/
theorem updatedByAll_eq_none_iff
    (tree : FileTree) (frames : List DirectoryFrame) :
    updatedByAll root tree frames location = none ↔
      tree location = none ∧
        ∀ frame ∈ frames, ¬frame.Names root location := by
  induction frames using List.reverseRecOn with
  | nil => simp [updatedByAll]
  | append_singleton frames frame inductionHypothesis =>
      rw [updatedByAll_append]
      by_cases named : frame.Names root location
      · obtain ⟨node, isNode⟩ := updatedBy_of_names named
        rw [isNode]
        constructor
        · intro isNone
          cases isNone
        · rintro ⟨_, unnamed⟩
          exact absurd named (unnamed frame (by simp))
      · rw [updatedBy_of_not_names _ named, inductionHypothesis]
        constructor
        · rintro ⟨isNone, unnamed⟩
          refine ⟨isNone, ?_⟩
          intro other member
          rcases List.mem_append.mp member with before | isLast
          · exact unnamed other before
          · rw [List.mem_singleton.mp isLast]
            exact named
        · rintro ⟨isNone, unnamed⟩
          exact
            ⟨isNone, fun other member =>
              unnamed other (List.mem_append_left _ member)⟩

/-- What no frame names is left unchanged. -/
theorem updatedByAll_of_not_names
    (tree : FileTree) {frames : List DirectoryFrame}
    (unnamed : ∀ frame ∈ frames, ¬frame.Names root location) :
    updatedByAll root tree frames location = tree location := by
  induction frames using List.reverseRecOn with
  | nil => rfl
  | append_singleton frames frame inductionHypothesis =>
      rw [updatedByAll_append,
        updatedBy_of_not_names _ (unnamed frame (by simp))]
      exact
        inductionHypothesis fun other member =>
          unnamed other (List.mem_append_left _ member)

/-- The condition of `StagingHarmless` at one location. -/
def HarmlessAt
    (root : Location) (tree : FileTree) (location : Location)
    (frames : List DirectoryFrame) : Prop :=
  ∀ before frame after, frames = before ++ frame :: after →
    frame.StagedAt root location →
      (∃ later ∈ after, later.Names root location) ∨
        (tree location = none ∧
          ∀ earlier ∈ before, ¬earlier.Names root location)

theorem harmlessAt_append
    {tree : FileTree} {frames : List DirectoryFrame}
    (harmless :
      ∀ before other after, frames = before ++ other :: after →
        other.StagedAt root location →
          (∃ later ∈ after ++ [frame], later.Names root location) ∨
            (tree location = none ∧
              ∀ earlier ∈ before, ¬earlier.Names root location))
    (last :
      frame.StagedAt root location →
        tree location = none ∧
          ∀ earlier ∈ frames, ¬earlier.Names root location) :
    HarmlessAt root tree location (frames ++ [frame]) := by
  intro before other after split staged
  rcases List.eq_nil_or_concat after with rfl | ⟨rest, final, rfl⟩
  · obtain ⟨rfl, isLast⟩ := List.append_inj' split rfl
    cases isLast
    exact .inr (last staged)
  · have spelled :
        before ++ other :: rest.concat final =
          (before ++ other :: rest) ++ [final] := by
      simp
    rw [spelled] at split
    obtain ⟨rfl, isFinal⟩ := List.append_inj' split rfl
    cases isFinal
    rw [List.concat_eq_append]
    exact harmless before other rest rfl staged

/-- At a location, the receiver leaves what the frames ask for exactly when
the staging names are harmless there. -/
theorem receivedByAll_eq_iff
    (tree : FileTree) (frames : List DirectoryFrame) :
    receivedByAll root tree frames location =
        updatedByAll root tree frames location ↔
      HarmlessAt root tree location frames := by
  induction frames using List.reverseRecOn with
  | nil =>
      refine ⟨fun _ before frame after split => ?_, fun _ => rfl⟩
      exact absurd split.symm (by simp)
  | append_singleton frames frame inductionHypothesis =>
      rw [receivedByAll_append, updatedByAll_append]
      by_cases named : frame.Names root location
      · -- the frame restores the location in both trees
        have unstaged : ¬frame.StagedAt root location :=
          fun staged => not_names_of_stagedAt staged named
        obtain ⟨node, isNode⟩ := updatedBy_of_names named
        rw [receivedBy_of_not_stagedAt _ unstaged, isNode, isNode]
        refine ⟨fun _ => ?_, fun _ => rfl⟩
        apply harmlessAt_append
        · intro before other after _ _
          exact .inl ⟨frame, by simp, named⟩
        · intro staged
          exact absurd staged unstaged
      · rw [updatedBy_of_not_names _ named]
        by_cases staged : frame.StagedAt root location
        · -- the location is lost; that is right only if it was empty
          rw [receivedBy_of_stagedAt _ staged]
          constructor
          · intro isNone
            have empty := (updatedByAll_eq_none_iff tree frames).mp isNone.symm
            apply harmlessAt_append
            · rintro before other after rfl _
              refine .inr ⟨empty.1, ?_⟩
              intro earlier member
              exact empty.2 earlier (List.mem_append_left _ member)
            · exact fun _ => empty
          · intro harmless
            have last :=
              harmless frames frame [] rfl staged
            rcases last with ⟨later, member, _⟩ | empty
            · exact absurd member List.not_mem_nil
            · exact ((updatedByAll_eq_none_iff tree frames).mpr empty).symm
        · rw [receivedBy_of_not_stagedAt _ staged,
            updatedBy_of_not_names _ named, inductionHypothesis]
          constructor
          · intro harmless
            apply harmlessAt_append
            · intro before other after split isStaged
              rcases harmless before other after split isStaged with
                ⟨later, member, isNamed⟩ | empty
              · exact .inl ⟨later, List.mem_append_left _ member, isNamed⟩
              · exact .inr empty
            · exact fun isStaged => absurd isStaged staged
          · rintro harmless before other after rfl isStaged
            have whole :
                before ++ other :: after ++ [frame] =
                  before ++ other :: (after ++ [frame]) := by
              simp
            rcases harmless before other (after ++ [frame]) whole isStaged with
              ⟨later, member, isNamed⟩ | empty
            · rcases List.mem_append.mp member with inside | isLast
              · exact .inl ⟨later, inside, isNamed⟩
              · rw [List.mem_singleton.mp isLast] at isNamed
                exact absurd isNamed named
            · exact .inr empty

/-- The receiver leaves the tree that the frames ask for exactly when the
staging names are harmless. -/
theorem receivedByAll_eq_updatedByAll_iff
    (tree : FileTree) (frames : List DirectoryFrame) :
    receivedByAll root tree frames = updatedByAll root tree frames ↔
      StagingHarmless root tree frames := by
  constructor
  · intro same before frame after location
    exact
      (receivedByAll_eq_iff tree frames).mp (congrFun same location) before
        frame after
  · intro harmless
    funext location
    refine (receivedByAll_eq_iff tree frames).mpr ?_
    intro before frame after
    exact harmless before frame after location

end Updates

end Quiczilla
