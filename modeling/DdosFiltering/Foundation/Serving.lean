import DdosFiltering.Foundation.Runs

/-!
# Tasks that a round trip serves

One party of a machine goes round in a circle of places and serves the tasks that it finds there. A
task has a rank, which no step raises and every turn of this party lowers as long as the task is
not served. Then the task is served in every run with more turns of the party than its rank
(`exec_serves`). The rank of a task at a place is the way to this place along the circle
(`ahead`), and a turn that does not jump over the place lowers it (`ahead_lt_ahead`).
-/

set_option autoImplicit false

namespace DdosFiltering.Foundation

variable {σ α : Type*} {s t : σ}

theorem exec_cons {step : σ → α → Option σ} {a : α} {actions : List α}
    (executed : exec step s (a :: actions) = some t) :
    ∃ u, step s a = some u ∧ exec step u actions = some t := by
  unfold exec at executed
  rw [List.foldlM_cons] at executed
  exact Option.bind_eq_some_iff.mp executed

theorem exec_cons_of_step {step : σ → α → Option σ} {u : σ} {a : α} (taken : step s a = some u)
    (actions : List α) : exec step s (a :: actions) = exec step u actions := by
  unfold exec
  rw [List.foldlM_cons, taken]
  rfl

/-- In the execution of `actions`, which leads from `s` to `t`, a step serves the task. -/
def ServedIn (step : σ → α → Option σ) (serves : σ → α → σ → Prop) (s : σ) (actions : List α)
    (t : σ) : Prop :=
  ∃ front a back u v, actions = front ++ a :: back ∧ exec step s front = some u ∧
    step u a = some v ∧ serves u a v ∧ exec step v back = some t

theorem ServedIn.cons {step : σ → α → Option σ} {serves : σ → α → σ → Prop} {a : α} {u : σ}
    {actions : List α} (taken : step s a = some u) (served : ServedIn step serves u actions t) :
    ServedIn step serves s (a :: actions) t := by
  obtain ⟨front, b, back, v, w, rfl, before, here, serves, after⟩ := served
  exact ⟨a :: front, b, back, v, w, rfl, (exec_cons_of_step taken front).trans before, here,
    serves, after⟩

/-- **A task is served in every run with more turns than its rank.** `waits` says that the task
waits to be served, with all that the steps need. -/
theorem exec_serves (step : σ → α → Option σ) (waits : σ → Prop) (serves : σ → α → σ → Prop)
    (turn : α → Bool) (rank : σ → ℕ)
    (progress : ∀ {s t : σ} {a : α}, waits s → step s a = some t →
      serves s a t ∨ waits t ∧ rank t + (if turn a then 1 else 0) ≤ rank s)
    (start : waits s) {actions : List α} (executed : exec step s actions = some t)
    (enough : rank s < actions.countP turn) : ServedIn step serves s actions t := by
  induction actions generalizing s with
  | nil => exact absurd enough (by simp)
  | cons a actions inductionHypothesis =>
      obtain ⟨u, taken, rest⟩ := exec_cons executed
      rcases progress start taken with here | ⟨still, lower⟩
      · exact ⟨[], a, actions, s, u, rfl, rfl, taken, here, rest⟩
      · refine (inductionHypothesis still rest ?_).cons taken
        rw [List.countP_cons] at enough
        omega

/-! ## The way along a circle -/

/-- How far it is from `place` to `target` along a circle of `length` places. -/
def ahead (length place target : ℕ) : ℕ :=
  if place ≤ target then target - place else length + target - place

variable {length place next target : ℕ}

theorem ahead_lt (inside : target < length) : ahead length place target < length := by
  unfold ahead
  split <;> omega

/-- A turn goes from `place` on to `next`, or from the last place to the first. -/
def Advances (length place next : ℕ) : Prop :=
  place < next ∧ next < length ∨ place < length ∧ next = 0

/-- **A turn that does not jump over the target comes nearer to it.** -/
theorem ahead_lt_ahead (advances : Advances length place next) (elsewhere : place ≠ target)
    (past : place < target → next ≤ target ∧ next ≠ 0) :
    ahead length next target < ahead length place target := by
  unfold ahead
  rcases advances with ⟨onward, stays⟩ | ⟨stays, rfl⟩
  · split <;> split <;> omega
  · split <;> split <;> omega

end DdosFiltering.Foundation
