import Mathlib.Data.List.Basic
import Quiczilla.Foundation.Runs

/-!
# Runs with a potential

A potential bounds the work that a run can do, and what it is given on the way
bounds the rest.
-/

namespace Quiczilla.Foundation

universe u v

variable {State : Type u} {Label : Type v}
  {step : State → Label → Option State} {guard : State → Label → Prop}
  {source target : State}
  {labels : List Label}

/-- Each step that works is paid from the potential, and each step that funds
adds at most the price to it. -/
theorem Run.countP_le
    (invariant : State → Prop) (potential : State → Nat)
    (works funds : Label → Bool) (price : Nat)
    (kept :
      ∀ state label next, invariant state → guard state label →
        step state label = some next → invariant next)
    (paid :
      ∀ state label next, invariant state → guard state label →
        step state label = some next →
          potential next + (works label).toNat ≤
            potential state + price * (funds label).toNat)
    (run : Run step guard source labels target)
    (initially : invariant source) :
    potential target + labels.countP works ≤
      potential source + price * labels.countP funds := by
  induction run with
  | refl state =>
      exact Nat.le_refl _
  | @cons source middle target label rest admitted stepped _
      inductionHypothesis =>
      have afterwards :=
        inductionHypothesis (kept _ _ _ initially admitted stepped)
      have now := paid _ _ _ initially admitted stepped
      have counted (chosen : Label → Bool) :
          (label :: rest).countP chosen =
            rest.countP chosen + (chosen label).toNat := by
        rw [List.countP_cons]
        cases chosen label <;> rfl
      rw [counted works, counted funds, Nat.mul_add]
      omega

end Quiczilla.Foundation
