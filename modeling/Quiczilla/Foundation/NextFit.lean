import Mathlib.Algebra.BigOperators.Group.List.Basic
import Mathlib.Algebra.Order.BigOperators.Group.List
import Mathlib.Algebra.Order.Monoid.Canonical.Defs

/-!
# Next-fit packing

Items are put into the open pack one after the other; an item that would take
a pack with some load over the capacity closes it and opens the next one.  An
item that is larger than the capacity is alone in its pack but for items
without weight.
-/

namespace Quiczilla.Foundation

variable {Weight : Type}

/-- The weights in the packs. -/
structure Packing (Weight : Type) where
  closed : List (List Weight)
  current : List Weight

namespace Packing

def empty : Packing Weight where
  closed := []
  current := []

def packs (packing : Packing Weight) : List (List Weight) :=
  packing.closed ++ [packing.current]

def put (packing : Packing Weight) (item : Weight) : Packing Weight :=
  ⟨packing.closed, packing.current ++ [item]⟩

theorem packs_put (packing : Packing Weight) (item : Weight) :
    (packing.put item).packs =
      packing.closed ++ [packing.current ++ [item]] :=
  rfl

end Packing

variable [AddCommMonoid Weight] [LinearOrder Weight]

/-- The item would take the pack, which is not empty, over the capacity. -/
def Overfills (capacity : Weight) (pack : List Weight) (item : Weight) :
    Prop :=
  0 < pack.sum ∧ capacity < pack.sum + item

instance (capacity : Weight) (pack : List Weight) (item : Weight) :
    Decidable (Overfills capacity pack item) :=
  inferInstanceAs (Decidable (_ ∧ _))

/-- A load within the capacity, or a single item with any weight. -/
def FitsPack (capacity : Weight) (pack : List Weight) : Prop :=
  pack.sum ≤ capacity ∨ (pack.filter (0 < ·)).length = 1

namespace Packing

def makeRoom (capacity : Weight) (packing : Packing Weight)
    (item : Weight) : Packing Weight :=
  if Overfills capacity packing.current item then ⟨packing.packs, []⟩
  else packing

/-- Every pack fits. -/
def Fits (capacity : Weight) (packing : Packing Weight) : Prop :=
  ∀ pack ∈ packing.packs, FitsPack capacity pack

theorem packs_makeRoom (capacity : Weight) (packing : Packing Weight)
    (item : Weight) :
    (packing.makeRoom capacity item).packs =
      packing.packs ++
        (if Overfills capacity packing.current item then [[]] else []) := by
  rw [makeRoom]
  split
  · rfl
  · rw [List.append_nil]

/-- The load behind an item is at most the capacity or the item. -/
theorem load_le
    {capacity item : Weight} {packing : Packing Weight}
    (roomy :
      packing.current.sum = 0 ∨ packing.current.sum + item ≤ capacity) :
    packing.current.sum + item ≤ max capacity item := by
  obtain noLoad | fits := roomy
  · rw [noLoad, zero_add]
    exact le_max_right capacity item
  · exact le_max_of_le_left fits

section Loads

variable [CanonicallyOrderedAdd Weight]
  {capacity item : Weight} {packing : Packing Weight}

/-- Behind `make_room` the pack is empty or the item fits. -/
theorem makeRoom_roomy (capacity : Weight) (packing : Packing Weight)
    (item : Weight) :
    (packing.makeRoom capacity item).current.sum = 0 ∨
      (packing.makeRoom capacity item).current.sum + item ≤ capacity := by
  rw [makeRoom]
  split
  · exact Or.inl List.sum_nil
  · rename_i fits
    by_cases isZero : packing.current.sum = 0
    · exact Or.inl isZero
    · refine Or.inr (le_of_not_gt fun exceeds => fits ⟨?_, exceeds⟩)
      exact pos_iff_ne_zero.mpr isZero

theorem filter_pos_eq_nil [IsOrderedAddMonoid Weight]
    {pack : List Weight} (noLoad : pack.sum = 0) :
    pack.filter (0 < ·) = [] := by
  rw [List.filter_eq_nil_iff]
  intro weight member isPositive
  have positive : 0 < weight := of_decide_eq_true isPositive
  have atMost : weight ≤ pack.sum := List.single_le_sum (by simp) _ member
  rw [noLoad] at atMost
  exact absurd positive (not_lt_of_ge atMost)

/-- An item goes into a pack without load, or into one that it fits. -/
theorem fitsPack_append [IsOrderedAddMonoid Weight]
    {pack : List Weight}
    (roomy : pack.sum = 0 ∨ pack.sum + item ≤ capacity) :
    FitsPack capacity (pack ++ [item]) := by
  have load : (pack ++ [item]).sum = pack.sum + item := by
    rw [List.sum_append, List.sum_singleton]
  obtain noLoad | fits := roomy
  · by_cases isZero : item = 0
    · left
      rw [load, noLoad, isZero, zero_add]
      exact zero_le
    · right
      have positive : 0 < item := pos_iff_ne_zero.mpr isZero
      rw [List.filter_append, filter_pos_eq_nil noLoad]
      simp [positive]
  · left
    rw [load]
    exact fits

theorem fits_empty : (empty : Packing Weight).Fits capacity := by
  intro pack member
  left
  rw [List.mem_singleton.mp member]
  exact zero_le

theorem Fits.makeRoom
    (fits : packing.Fits capacity) (item : Weight) :
    (packing.makeRoom capacity item).Fits capacity := by
  intro pack member
  rw [packs_makeRoom, List.mem_append] at member
  obtain earlier | opened := member
  · exact fits pack earlier
  · left
    split at opened
    · rw [List.mem_singleton.mp opened, List.sum_nil]
      exact zero_le
    · cases opened

theorem Fits.put [IsOrderedAddMonoid Weight]
    (fits : packing.Fits capacity)
    (roomy :
      packing.current.sum = 0 ∨ packing.current.sum + item ≤ capacity) :
    (packing.put item).Fits capacity := by
  intro pack member
  rw [packs_put, List.mem_append] at member
  obtain earlier | isLast := member
  · exact fits pack (List.mem_append_left _ earlier)
  · rw [List.mem_singleton.mp isLast]
    exact fitsPack_append roomy

end Loads

end Packing

end Quiczilla.Foundation
