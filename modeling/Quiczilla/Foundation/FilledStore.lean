import Mathlib.Data.List.Basic
import Quiczilla.Foundation.FileStore

/-!
# Files that are filled from one source

A copy that is written front to back is at every moment a front of its source.
The facts below are about any order of creating, cutting back, writing and
renaming such copies: no file ends up with bytes that were neither there before
nor a front of the source.
-/

namespace Quiczilla.Foundation

universe u

/-- Writing the next bytes of the source into a front of it leaves a front. -/
theorem overwritten_front
    {source content bytes : List UInt8} {offset : Nat}
    (isFront : content <+: source) (within : offset ≤ content.length)
    (isNext : bytes <+: source.drop offset) :
    overwritten content offset bytes <+: source := by
  have isWritten :
      content.take offset ++ bytes =
        source.take (offset + bytes.length) := by
    rw [List.take_add, ← List.prefix_iff_eq_take.mp isNext,
      List.prefix_iff_eq_take.mp isFront, List.take_take,
      Nat.min_eq_left within]
  rw [overwritten_of_le bytes within, isWritten]
  by_cases beyond : content.length ≤ offset + bytes.length
  · rw [List.drop_eq_nil_of_le beyond, List.append_nil]
    exact List.take_prefix _ _
  · have inside :
        source.take (offset + bytes.length) =
          content.take (offset + bytes.length) := by
      rw [List.prefix_iff_eq_take.mp isFront, List.take_take,
        Nat.min_eq_left (by omega)]
    rw [inside, List.take_append_drop]
    exact isFront

namespace FileStore

variable {Path : Type u} {source : List UInt8}
  {store middle next : FileStore Path} {path : Path}

/-- A file at the path holds a front of the source. -/
def Fronts
    (source : List UInt8) (store : FileStore Path) (path : Path) : Prop :=
  ∀ content, store path = some (.file content) → content <+: source

/-- Every path is as it was, unless it holds a front of the source. -/
def Fills
    (source : List UInt8) (store next : FileStore Path) : Prop :=
  ∀ path, next path = store path ∨ next.Fronts source path

theorem Fills.refl (source : List UInt8) (store : FileStore Path) :
    store.Fills source store :=
  fun _ => Or.inl rfl

theorem Fronts.of_fills
    (isFront : store.Fronts source path) (fills : store.Fills source next) :
    next.Fronts source path := by
  rcases fills path with same | isFront'
  · intro content present
    rw [same] at present
    exact isFront content present
  · exact isFront'

theorem Fills.trans
    (first : store.Fills source middle) (second : middle.Fills source next) :
    store.Fills source next := by
  intro path
  rcases first path with same | isFront
  · rcases second path with unchanged | isFront
    · exact Or.inl (unchanged.trans same)
    · exact Or.inr isFront
  · exact Or.inr (isFront.of_fills second)

variable [DecidableEq Path]

theorem fills_put
    {content : List UInt8} (isFront : content <+: source) :
    store.Fills source (store.put path content) := by
  intro other
  by_cases here : other = path
  · refine Or.inr fun written present => ?_
    rw [here, put_same] at present
    cases present
    exact isFront
  · exact Or.inl (put_other store content here)

theorem fills_create
    (created : store.create path = some next) : store.Fills source next := by
  obtain ⟨rfl, -⟩ := create_eq_some created
  exact fills_put List.nil_prefix

theorem fills_openWrite
    (opened : store.openWrite path = some next) :
    store.Fills source next := by
  rcases openWrite_eq_some opened with ⟨rfl, -⟩ | ⟨-, rfl⟩
  · exact Fills.refl source next
  · exact fills_put List.nil_prefix

theorem fills_ensureDirectories
    {ancestors : List Path}
    (made : store.ensureDirectories ancestors = some next) :
    store.Fills source next := by
  intro path
  rcases ensureDirectories_spec made path with same | ⟨-, -, isDirectory⟩
  · exact Or.inl same
  · refine Or.inr fun content present => ?_
    rw [isDirectory] at present
    cases present

/-- Cutting a front back leaves a front. -/
theorem fills_setLength
    {length existing : Nat} (isFront : store.Fronts source path)
    (measured : (store.length? path).getD 0 = existing)
    (within : length ≤ existing)
    (cut : store.setLength path length = some next) :
    store.Fills source next := by
  obtain ⟨content, present, rfl⟩ := setLength_eq_some cut
  rw [length?_of_file present, Option.getD_some] at measured
  rw [← measured] at within
  rw [resized_of_le within]
  exact
    fills_put ((List.take_prefix _ _).trans (isFront content present))

theorem fills_writeAt
    {offset : Nat} {content bytes : List UInt8}
    (isFront : store.Fronts source path)
    (present : store path = some (.file content))
    (within : offset ≤ content.length)
    (isNext : bytes <+: source.drop offset) :
    store.Fills source (store.writeAt path offset bytes) := by
  rw [writeAt, present]
  exact
    fills_put (overwritten_front (isFront content present) within isNext)

theorem fills_rename
    {target : Path} (isFront : store.Fronts source path)
    (renamed : store.rename path target = some next) :
    store.Fills source next := by
  obtain ⟨content, present, rfl, -⟩ := rename_eq_some renamed
  have removed : store.Fills source (store.remove path) := by
    intro other
    by_cases here : other = path
    · refine Or.inr fun content present => ?_
      rw [here, remove_same] at present
      cases present
    · exact Or.inl (remove_other store here)
  exact removed.trans (fills_put (isFront content present))

end FileStore

end Quiczilla.Foundation
