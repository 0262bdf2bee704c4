import Mathlib.Data.List.Sort
import Mathlib.Order.Basic

/-!
# What the tail of a sorted list holds

A list is sorted by a key, the greatest first.  What is left behind the first
`count` items are those with at least `count` greater keys in the list.
-/

namespace Quiczilla.Foundation

variable {Item Key : Type} [LinearOrder Key] (key : Item → Key)

/-- The greatest key first. -/
def sortDescending (items : List Item) : List Item :=
  items.insertionSort fun first second => key second ≤ key first

/-- The items with a greater key. -/
def above (items : List Item) (item : Item) : List Item :=
  items.filter fun other => key item < key other

theorem sortDescending_perm (items : List Item) :
    (sortDescending key items).Perm items :=
  List.perm_insertionSort _ items

theorem length_above_of_perm
    {first second : List Item} (perm : first.Perm second) (item : Item) :
    (above key first item).length = (above key second item).length :=
  (perm.filter _).length_eq

variable {key}

theorem sortDescending_pairwise
    {items : List Item} (distinct : (items.map key).Nodup) :
    (sortDescending key items).Pairwise fun first second =>
      key second < key first := by
  have sorted :
      (sortDescending key items).Pairwise fun first second =>
        key second ≤ key first :=
    List.pairwise_insertionSort _ items
  have different :
      (sortDescending key items).Pairwise fun first second =>
        key first ≠ key second := by
    rw [← List.pairwise_map (f := key) (R := (· ≠ ·))]
    exact
      (((sortDescending_perm key items).map key).nodup_iff).mpr distinct
  refine (sorted.and different).imp ?_
  rintro first second ⟨atMost, notEqual⟩
  exact lt_of_le_of_ne atMost (Ne.symm notEqual)

theorem mem_drop_of_pairwise
    {items : List Item}
    (sorted :
      items.Pairwise fun first second => key second < key first)
    (count : Nat) (item : Item) :
    item ∈ items.drop count ↔
      item ∈ items ∧ count ≤ (above key items item).length := by
  induction items generalizing count with
  | nil => simp
  | cons first rest inductionHypothesis =>
      obtain ⟨firstAbove, restSorted⟩ := List.pairwise_cons.mp sorted
      cases count with
      | zero => simp
      | succ count =>
          have shape :
              above key (first :: rest) item =
                if key item < key first then
                  first :: above key rest item
                else above key rest item := by
            rw [above, List.filter_cons]
            simp only [decide_eq_true_eq, above]
          rw [List.drop_succ_cons, inductionHypothesis restSorted,
            List.mem_cons, shape]
          by_cases later : item ∈ rest
          · have counted : key item < key first := firstAbove item later
            simp [later, counted]
          · -- nothing is above the first item
            simp only [later, false_and, or_false, false_iff, not_and]
            rintro rfl
            have none : above key rest item = [] := by
              rw [above, List.filter_eq_nil_iff]
              intro other member
              simpa using (firstAbove other member).le
            rw [if_neg (lt_irrefl _), none, List.length_nil]
            exact Nat.not_succ_le_zero count

/-- The tail of the sorted items. -/
theorem mem_drop_sortDescending
    {items : List Item} (distinct : (items.map key).Nodup)
    (count : Nat) (item : Item) :
    item ∈ (sortDescending key items).drop count ↔
      item ∈ items ∧ count ≤ (above key items item).length := by
  have perm := sortDescending_perm key items
  rw [mem_drop_of_pairwise (sortDescending_pairwise distinct),
    perm.mem_iff, length_above_of_perm key perm]

/-- Where everything in front of the tail is kept, that and what is kept of
the tail. -/
theorem length_filter_of_tail
    {items : List Item} (distinct : (items.map key).Nodup)
    (count : Nat) (keeps : Item → Bool)
    (front :
      ∀ item, item ∉ (sortDescending key items).drop count →
        keeps item = true) :
    (items.filter keeps).length =
      min count items.length +
        (((sortDescending key items).drop count).filter keeps).length := by
  have perm := sortDescending_perm key items
  have nodup : (sortDescending key items).Nodup :=
    (sortDescending_pairwise distinct).imp fun less same =>
      absurd less (by rw [same]; exact lt_irrefl _)
  have disjoint : ∀ item ∈ (sortDescending key items).take count,
      keeps item = true := by
    intro item member
    apply front
    rw [← List.take_append_drop count (sortDescending key items),
      List.nodup_append] at nodup
    intro inTail
    exact nodup.2.2 item member item inTail rfl
  have whole :
      ((sortDescending key items).filter keeps).length =
        ((sortDescending key items).take count).length +
          (((sortDescending key items).drop count).filter
            keeps).length := by
    calc
      ((sortDescending key items).filter keeps).length
      _ = (((sortDescending key items).take count ++
            (sortDescending key items).drop count).filter
              keeps).length := by
          rw [List.take_append_drop]
      _ = _ := by
          rw [List.filter_append, List.length_append,
            List.filter_eq_self.mpr disjoint]
  rw [← (perm.filter keeps).length_eq, whole, List.length_take,
    perm.length_eq]

end Quiczilla.Foundation
