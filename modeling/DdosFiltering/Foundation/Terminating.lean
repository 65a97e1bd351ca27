import Mathlib.Data.Nat.Notation
import Mathlib.Logic.Function.Iterate

/-!
# Machines that halt

A machine is a total step function, and some of its states are halted. Where every step of a
state that is not halted makes a measure smaller, the machine halts within as many steps as the
measure says (`exists_halted`). What a step does not change, a run does not change
(`iterate_keeps`).
-/

set_option autoImplicit false

namespace DdosFiltering.Foundation

variable {σ β : Type*} {step : σ → σ}

/-- **A decreasing measure makes the machine halt.** -/
theorem exists_halted {halted : σ → Prop} {size : σ → ℕ}
    (decreases : ∀ s, ¬halted s → size (step s) < size s) (s : σ) :
    ∃ k ≤ size s, halted (step^[k] s) := by
  induction bound : size s using Nat.strongRecOn generalizing s with
  | _ n inductionHypothesis =>
      subst bound
      by_cases now : halted s
      · exact ⟨0, Nat.zero_le _, now⟩
      · have smaller := decreases s now
        obtain ⟨k, within, later⟩ := inductionHypothesis (size (step s)) smaller (step s) rfl
        exact ⟨k + 1, Nat.succ_le_of_lt (Nat.lt_of_le_of_lt within smaller), later⟩

/-- What no step changes, no run changes, as long as the states stay `good`. -/
theorem iterate_keeps {good : σ → Prop} {value : σ → β} (kept : ∀ s, good s → good (step s))
    (same : ∀ s, good s → value (step s) = value s) (k : ℕ) {s : σ} (start : good s) :
    value (step^[k] s) = value s := by
  induction k generalizing s with
  | zero => rfl
  | succ k inductionHypothesis =>
      rw [Function.iterate_succ_apply, inductionHypothesis (kept s start), same s start]

end DdosFiltering.Foundation
