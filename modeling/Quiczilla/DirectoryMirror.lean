import Quiczilla.DirectoryApply
import Quiczilla.DirectoryWalk

/-!
# What the destination mirrors

A stream that describes a listing leaves the listing below its root and every
other location as it was.
-/

namespace Quiczilla

open Foundation

def ListedItem.node : ListedItem → TreeNode
  | .directory => .directory
  | .file content => .file content

/-- The listing is there below the root, the way to the root consists of
directories, and nothing else has changed. -/
structure Mirrors
    (root : Location) (listing : Listing) (before after : FileTree) :
    Prop where
  entries :
    ∀ path item, (path, item) ∈ listing →
      after (root ++ path) = some item.node
  way :
    ∀ count < root.length,
      after (root.take (count + 1)) = some .directory
  others :
    ∀ location, (∀ count < root.length, location ≠ root.take (count + 1)) →
      (∀ path item, (path, item) ∈ listing → location ≠ root ++ path) →
        after location = before location

section Frames

variable {root : Location} {tree : FileTree} {frame : DirectoryFrame}
  {path : List String} {item : ListedItem}

theorem names_of_entry
    (isEntry : frame.entry? = some (path, item)) (location : Location) :
    frame.Names root location ↔
      ∃ count < path.length, location = root ++ path.take (count + 1) := by
  cases frame with
  | directory relative =>
      cases isEntry
      exact Iff.rfl
  | file relative content flag digest =>
      cases isEntry
      exact Iff.rfl
  | packStart pack => cases isEntry
  | packEnd => cases isEntry

theorem not_names_of_no_entry
    (noEntry : frame.entry? = none) (location : Location) :
    ¬frame.Names root location := by
  cases frame with
  | directory relative => cases noEntry
  | file relative content flag digest => cases noEntry
  | packStart pack => exact id
  | packEnd => exact id

theorem entry_ne_nil
    (isEntry : frame.entry? = some (path, item)) : path ≠ [] := by
  cases frame with
  | directory relative =>
      cases isEntry
      exact pathSegments_ne_nil relative
  | file relative content flag digest =>
      cases isEntry
      exact pathSegments_ne_nil relative
  | packStart pack => cases isEntry
  | packEnd => cases isEntry

/-- A frame leaves its own item at its path. -/
theorem updatedBy_own
    (isEntry : frame.entry? = some (path, item)) :
    updatedBy root tree frame (root ++ path) = some item.node := by
  have notNil := entry_ne_nil isEntry
  cases frame with
  | directory relative =>
      cases isEntry
      refine if_pos ⟨(pathSegments relative).length - 1, ?_, ?_⟩
      · exact Nat.sub_one_lt (by simpa using notNil)
      · rw [List.take_of_length_le]
        omega
  | file relative content flag digest =>
      cases isEntry
      exact FileTree.put_same _ _ _
  | packStart pack => cases isEntry
  | packEnd => cases isEntry

/-- A frame makes the directories above its path. -/
theorem updatedBy_above
    (isEntry : frame.entry? = some (path, item)) {count : Nat}
    (above : count + 1 < path.length) :
    updatedBy root tree frame (root ++ path.take (count + 1)) =
      some .directory := by
  cases frame with
  | directory relative =>
      cases isEntry
      exact if_pos ⟨count, Nat.lt_of_succ_lt above, rfl⟩
  | file relative content flag digest =>
      cases isEntry
      have isParent :
          (pathSegments relative).take (count + 1) =
            (pathSegments relative).dropLast.take (count + 1) := by
        rw [List.dropLast_eq_take, List.take_take, Nat.min_eq_left]
        omega
      have elsewhere :
          root ++ (pathSegments relative).take (count + 1) ≠
            root ++ pathSegments relative := by
        intro same
        have lengths := congrArg List.length same
        simp only [List.length_append, List.length_take] at lengths
        omega
      rw [updatedBy, FileTree.put_other _ _ elsewhere, isParent]
      refine if_pos ⟨count, ?_, rfl⟩
      rw [List.length_dropLast]
      omega
  | packStart pack => cases isEntry
  | packEnd => cases isEntry

end Frames

/-- The part of a listing in front has its parents in front, too. -/
theorem parentsFirst_left
    {first second : Listing} (parents : (first ++ second).ParentsFirst) :
    first.ParentsFirst := by
  intro before path item after split parent name later isPath notNil
  refine parents before path item (after ++ second) ?_ parent name later
    isPath notNil
  rw [split, List.append_assoc, List.cons_append]

/-- What is above an entry has been listed as a directory. -/
theorem listed_above
    {listing : Listing} {path : List String} {item : ListedItem}
    (parents : (listing ++ [(path, item)]).ParentsFirst) {count : Nat}
    (above : count + 1 < path.length) :
    (path.take (count + 1), .directory) ∈ listing := by
  have split :
      path =
        path.take (count + 1) ++
          path[count + 1] :: path.drop (count + 2) := by
    rw [List.getElem_cons_drop, List.take_append_drop]
  refine parents listing path item [] rfl _ _ _ split ?_
  intro isNil
  have lengths := congrArg List.length isNil
  simp only [List.length_take, List.length_nil] at lengths
  omega

section Mirroring

variable {root : Location} {before : FileTree}

theorem mirrors_nil (root : Location) (before : FileTree) :
    Mirrors root [] before (before.makeDirectories [] root) where
  entries path item member := by cases member
  way count inside := if_pos ⟨count, inside, rfl⟩
  others location outside _ := by
    refine if_neg ?_
    rintro ⟨count, inside, same⟩
    exact outside count inside same

/-- One more entry is mirrored by its frame. -/
theorem Mirrors.update
    {listing : Listing} {after : FileTree} {frame : DirectoryFrame}
    {path : List String} {item : ListedItem}
    (mirrors : Mirrors root listing before after)
    (isEntry : frame.entry? = some (path, item))
    (once : ((listing ++ [(path, item)]).map Prod.fst).Nodup)
    (parents : (listing ++ [(path, item)]).ParentsFirst) :
    Mirrors root (listing ++ [(path, item)]) before
      (updatedBy root after frame) := by
  have notNil := entry_ne_nil isEntry
  have distinct :
      (listing.map Prod.fst).Nodup ∧
        ∀ other node, (other, node) ∈ listing → other ≠ path := by
    rw [List.map_append, List.nodup_append] at once
    refine ⟨once.1, ?_⟩
    intro other node member
    exact
      once.2.2 other (List.mem_map_of_mem member) path
        (List.mem_singleton_self path)
  refine ⟨?_, ?_, ?_⟩
  · intro other node member
    obtain earlier | last := List.mem_append.mp member
    · by_cases named : frame.Names root (root ++ other)
      · obtain ⟨count, inside, same⟩ := (names_of_entry isEntry _).mp named
        have isPrefix := List.append_cancel_left same
        by_cases above : count + 1 < path.length
        · have listed := listed_above parents above
          rw [← isPrefix] at listed
          have isDirectory : node = .directory := by
            have unique :=
              List.inj_on_of_nodup_map distinct.1 earlier listed rfl
            exact congrArg Prod.snd unique
          rw [isPrefix, updatedBy_above isEntry above, isDirectory]
          rfl
        · have isPath : other = path := by
            rw [isPrefix]
            exact List.take_of_length_le (by omega)
          exact absurd isPath (distinct.2 other node earlier)
      · rw [updatedBy_of_not_names _ named]
        exact mirrors.entries other node earlier
    · cases List.mem_singleton.mp last
      exact updatedBy_own isEntry
  · intro count inside
    have unnamed : ¬frame.Names root (root.take (count + 1)) := by
      rw [names_of_entry isEntry]
      rintro ⟨other, within, same⟩
      have lengths := congrArg List.length same
      simp only [List.length_append, List.length_take] at lengths
      omega
    rw [updatedBy_of_not_names _ unnamed]
    exact mirrors.way count inside
  · intro location outside unlisted
    have unnamed : ¬frame.Names root location := by
      rw [names_of_entry isEntry]
      rintro ⟨count, inside, same⟩
      by_cases above : count + 1 < path.length
      · exact
          unlisted _ _
            (List.mem_append_left _ (listed_above parents above)) same
      · rw [List.take_of_length_le (by omega)] at same
        exact
          unlisted path item
            (List.mem_append_right _ List.mem_cons_self) same
    rw [updatedBy_of_not_names _ unnamed]
    refine mirrors.others location outside ?_
    intro other node member
    exact unlisted other node (List.mem_append_left _ member)

/-- The frames that describe a listing mirror it. -/
theorem mirrors_updatedByAll
    (frames : List DirectoryFrame)
    (once : ((describedBy frames).map Prod.fst).Nodup)
    (parents : (describedBy frames).ParentsFirst) :
    Mirrors root (describedBy frames) before
      (updatedByAll root (before.makeDirectories [] root) frames) := by
  induction frames using List.reverseRecOn with
  | nil => exact mirrors_nil root before
  | append_singleton frames frame inductionHypothesis =>
      rw [describedBy_append] at once parents ⊢
      rw [updatedByAll_append]
      cases isEntry : frame.entry? with
      | none =>
          rw [isEntry] at once parents
          simp only [Option.toList_none, List.append_nil] at once parents ⊢
          have mirrors := inductionHypothesis once parents
          have same :
              updatedBy root
                  (updatedByAll root (before.makeDirectories [] root) frames)
                  frame =
                updatedByAll root (before.makeDirectories [] root)
                  frames := by
            funext location
            exact
              updatedBy_of_not_names _
                (not_names_of_no_entry isEntry location)
          rw [same]
          exact mirrors
      | some entry =>
          obtain ⟨path, item⟩ := entry
          rw [isEntry] at once parents
          have mirrors :=
            inductionHypothesis
              (by
                rw [List.map_append] at once
                exact once.of_append_left)
              (parentsFirst_left parents)
          exact mirrors.update isEntry once parents

end Mirroring

/-! ## Staging names -/

/-- No staging name of a listed file is taken, neither at first nor by another
entry. -/
def StagingUnused
    (root : Location) (listing : Listing) (before : FileTree) : Prop :=
  ∀ parent name content, (parent ++ [name], .file content) ∈ listing →
    stagingName name ≠ name →
      before (root ++ parent ++ [stagingName name]) = none ∧
        ∀ item, (parent ++ [stagingName name], item) ∉ listing

theorem mem_describedBy
    {frames : List DirectoryFrame} {frame : DirectoryFrame}
    {path : List String} {item : ListedItem} (member : frame ∈ frames)
    (isEntry : frame.entry? = some (path, item)) :
    (path, item) ∈ describedBy frames :=
  List.mem_filterMap.mpr ⟨frame, member, isEntry⟩

/-- What a frame names has been listed. -/
theorem listed_of_names
    {root : Location} {frames : List DirectoryFrame}
    {frame : DirectoryFrame} {path : List String}
    (parents : (describedBy frames).ParentsFirst) (member : frame ∈ frames)
    (named : frame.Names root (root ++ path)) :
    ∃ item, (path, item) ∈ describedBy frames := by
  cases isEntry : frame.entry? with
  | none => exact absurd named (not_names_of_no_entry isEntry _)
  | some entry =>
      obtain ⟨whole, item⟩ := entry
      have listed := mem_describedBy member isEntry
      obtain ⟨count, inside, same⟩ := (names_of_entry isEntry _).mp named
      rw [List.append_cancel_left same]
      by_cases above : count + 1 < whole.length
      · obtain ⟨before, after, split⟩ := List.append_of_mem listed
        have front :
            Listing.ParentsFirst (before ++ [(whole, item)]) := by
          apply @parentsFirst_left _ after
          rw [List.append_assoc, List.singleton_append, ← split]
          exact parents
        have isAbove := listed_above front above
        refine ⟨.directory, ?_⟩
        rw [split]
        exact List.mem_append_left _ isAbove
      · rw [List.take_of_length_le (by omega)]
        exact ⟨item, listed⟩

theorem harmless_of_unused
    {root : Location} {before : FileTree} {frames : List DirectoryFrame}
    (parents : (describedBy frames).ParentsFirst)
    (unused : StagingUnused root (describedBy frames) before) :
    StagingHarmless root before frames := by
  intro earlier frame later location split staged
  cases frame with
  | file relative content flag digest =>
      obtain ⟨isStaging, different⟩ := staged
      have isFrame :
          DirectoryFrame.file relative content flag digest ∈ frames := by
        rw [split]
        exact List.mem_append_right _ List.mem_cons_self
      have listed := mem_describedBy isFrame rfl
      rw [pathSegments_eq] at listed
      have notName : stagingName (lastName relative) ≠ lastName relative := by
        intro same
        apply different
        rw [isStaging, stagingOf, same, List.append_assoc,
          ← pathSegments_eq]
      obtain ⟨absent, unlisted⟩ := unused _ _ _ listed notName
      refine Or.inr ⟨?_, ?_⟩
      · rw [isStaging]
        exact absent
      · intro other member named
        rw [isStaging, stagingOf, List.append_assoc] at named
        have inFrames : other ∈ frames := by
          rw [split]
          exact List.mem_append_left _ member
        obtain ⟨item, isListed⟩ := listed_of_names parents inFrames named
        exact unlisted item isListed
  | directory relative => exact absurd staged id
  | packStart pack => exact absurd staged id
  | packEnd => exact absurd staged id

end Quiczilla
