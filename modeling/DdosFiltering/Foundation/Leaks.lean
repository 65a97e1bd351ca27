import DdosFiltering.Foundation.Runs
import Mathlib.Data.List.Perm.Basic

/-!
# Runs that lose tokens

A machine has some tokens in every state, and there are actions that lose one of them. When every
step keeps the tokens, up to their order, or loses one where the action may lose one, a run loses
as many tokens as it has such actions (`exec_lost`).
-/

set_option autoImplicit false

namespace DdosFiltering.Foundation

open scoped List

variable {σ α B : Type*} {s t : σ}

/-- From `before` to `after` one token is lost, or none. -/
def Lost (loses : Bool) (before after : List B) : Prop :=
  ∃ lost, before ~ lost ++ after ∧ lost.length = if loses then 1 else 0

/-- Nothing is lost where the same tokens are there. -/
theorem Lost.none {before after : List B} (same : after ~ before) : Lost false before after :=
  ⟨[], same.symm, rfl⟩

theorem Lost.one {before after : List B} {b : B} (taken : before ~ b :: after) :
    Lost true before after :=
  ⟨[b], taken, rfl⟩

/-- **A run loses as many tokens as it has actions that lose one.** The invariant `holds` is what
the steps need to keep their tokens. -/
theorem exec_lost (step : σ → α → Option σ) (holds : σ → Prop) {tokensOf : σ → List B}
    {loses : α → Bool}
    (keeps : ∀ {s t : σ} {a : α}, holds s → step s a = some t →
      holds t ∧ Lost (loses a) (tokensOf s) (tokensOf t))
    (start : holds s) {actions : List α} (executed : exec step s actions = some t) :
    ∃ lost, tokensOf s ~ lost ++ tokensOf t ∧ lost.length = actions.countP loses := by
  induction actions generalizing s with
  | nil =>
      obtain rfl := Option.some.inj executed
      exact ⟨[], .refl _, rfl⟩
  | cons a actions inductionHypothesis =>
      unfold exec at executed
      rw [List.foldlM_cons] at executed
      obtain ⟨u, taken, rest⟩ := Option.bind_eq_some_iff.mp executed
      obtain ⟨next, here, split, one⟩ := keeps start taken
      obtain ⟨later, splitLater, others⟩ := inductionHypothesis next rest
      refine ⟨here ++ later, ?_, ?_⟩
      · rw [List.append_assoc]
        exact split.trans (splitLater.append_left here)
      · rw [List.length_append, one, others, List.countP_cons, Nat.add_comm]

end DdosFiltering.Foundation
