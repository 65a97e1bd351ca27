import Mathlib.Data.List.Basic

/-!
# Runs of a machine with guarded steps

A machine is a partial step function on states and actions. A run whose steps all meet a
guard is a `Run`; an invariant that every guarded step keeps holds at its end
(`Run.invariant`). Executing a list of actions is a run (`Run.of_exec`).
-/

set_option autoImplicit false

namespace DdosFiltering.Foundation

variable {σ α : Type*}

/-- Execute actions in order. -/
def exec (step : σ → α → Option σ) (s : σ) (actions : List α) : Option σ := actions.foldlM step s

/-- A run in which every action meets the guard in the state where it is taken. -/
inductive Run (step : σ → α → Option σ) (guard : σ → α → Prop) (s : σ) : σ → Prop where
  | refl : Run step guard s s
  | tail {t u : σ} {a : α} (run : Run step guard s t) (allowed : guard t a)
      (taken : step t a = some u) : Run step guard s u

/-- The guard that allows every action. -/
def anyAction (_ : σ) (_ : α) : Prop := True

variable {step : σ → α → Option σ} {guard : σ → α → Prop} {s t : σ}

/-- What holds at the start and is kept by every guarded step holds at the end. -/
theorem Run.invariant (holds : σ → Prop) (start : holds s)
    (keeps : ∀ {t u : σ} {a : α}, holds t → guard t a → step t a = some u → holds u)
    (run : Run step guard s t) : holds t := by
  induction run with
  | refl => exact start
  | tail _ allowed taken inductionHypothesis => exact keeps inductionHypothesis allowed taken

/-- A run under a guard is a run. -/
theorem Run.any (run : Run step guard s t) : Run step anyAction s t := by
  induction run with
  | refl => exact .refl
  | tail _ _ taken inductionHypothesis => exact inductionHypothesis.tail trivial taken

theorem Run.trans {u : σ} (front : Run step guard s t) (back : Run step guard t u) :
    Run step guard s u := by
  induction back with
  | refl => exact front
  | tail _ allowed taken inductionHypothesis => exact inductionHypothesis.tail allowed taken

theorem exec_append (actions more : List α) (executed : exec step s (actions ++ more) = some t) :
    ∃ u, exec step s actions = some u ∧ exec step u more = some t := by
  unfold exec at executed
  rw [List.foldlM_append] at executed
  exact Option.bind_eq_some_iff.mp executed

/-- Executing actions that the guard always allows is a guarded run. -/
theorem Run.of_exec {actions : List α} (allowed : ∀ a ∈ actions, ∀ s, guard s a)
    (executed : exec step s actions = some t) : Run step guard s t := by
  induction actions generalizing s with
  | nil =>
      obtain rfl := Option.some.inj executed
      exact .refl
  | cons a actions inductionHypothesis =>
      unfold exec at executed
      rw [List.foldlM_cons] at executed
      obtain ⟨u, taken, rest⟩ := Option.bind_eq_some_iff.mp executed
      have first : Run step guard s u := Run.refl.tail (allowed a List.mem_cons_self s) taken
      exact first.trans
        (inductionHypothesis (fun b member => allowed b (List.mem_cons_of_mem _ member)) rest)

end DdosFiltering.Foundation
