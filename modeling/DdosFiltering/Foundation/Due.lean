import Mathlib.Data.List.Basic
import Mathlib.Order.Nat

/-!
# What is due

Of the elements of a list that are seen one after the other, each at its time, one is due when a
period has passed since the last one that was due (`due`). Two that are due are a period
apart (`due_apart`), and one is due as soon as that is so (`due_concat`).
-/

set_option autoImplicit false

namespace DdosFiltering.Foundation

variable {β : Type*} (time : β → ℕ) (period : ℕ)

/-- The elements that are due, when the last one was due at `last`. -/
def due : ℕ → List β → List β
  | _, [] => []
  | last, b :: bs => if last + period ≤ time b then b :: due (time b) bs else due last bs

/-- The time of the last element that is due, or `last` when there is none. -/
def lastDue (last : ℕ) (bs : List β) : ℕ := (due time period last bs).getLast?.elim last time

theorem due_append (last : ℕ) (front back : List β) :
    due time period last (front ++ back) =
      due time period last front ++ due time period (lastDue time period last front) back := by
  induction front generalizing last with
  | nil => rfl
  | cons b front inductionHypothesis =>
      by_cases isDue : last + period ≤ time b
      · have later : lastDue time period last (b :: front) =
            lastDue time period (time b) front := by
          unfold lastDue
          rw [due, if_pos isDue, List.getLast?_cons]
          cases (due time period (time b) front).getLast? <;> rfl
        rw [List.cons_append, due, if_pos isDue, inductionHypothesis, later, due, if_pos isDue]
        rfl
      · have later : lastDue time period last (b :: front) = lastDue time period last front := by
          unfold lastDue
          rw [due, if_neg isDue]
        rw [List.cons_append, due, if_neg isDue, inductionHypothesis, later, due, if_neg isDue]

/-- **One more element is due exactly if a period has passed** since the last one was. -/
theorem due_concat (last : ℕ) (bs : List β) (b : β) :
    due time period last (bs ++ [b]) =
      due time period last bs ++
        if lastDue time period last bs + period ≤ time b then [b] else [] := by
  rw [due_append]
  rfl

theorem lastDue_concat (last : ℕ) (bs : List β) (b : β) :
    lastDue time period last (bs ++ [b]) =
      if lastDue time period last bs + period ≤ time b then time b
      else lastDue time period last bs := by
  rw [lastDue, due_concat]
  split
  · rw [List.getLast?_concat]
    rfl
  · rw [List.append_nil]
    rfl

theorem due_sublist (last : ℕ) (bs : List β) : (due time period last bs).Sublist bs := by
  induction bs generalizing last with
  | nil => exact .slnil
  | cons b bs inductionHypothesis =>
      rw [due]
      split
      · exact (inductionHypothesis _).cons_cons b
      · exact (inductionHypothesis last).cons b

/-- What is due comes a period after `last`. -/
theorem le_time_of_mem_due {last : ℕ} {bs : List β} {b : β}
    (member : b ∈ due time period last bs) : last + period ≤ time b := by
  induction bs generalizing last with
  | nil => cases member
  | cons b' bs inductionHypothesis =>
      rw [due] at member
      split at member
      · rename_i isDue
        rcases List.mem_cons.mp member with rfl | later
        · exact isDue
        · exact (isDue.trans (Nat.le_add_right _ _)).trans (inductionHypothesis later)
      · exact inductionHypothesis member

/-- **Any two elements that are due are a period apart.** -/
theorem due_apart (last : ℕ) (bs : List β) :
    (due time period last bs).Pairwise fun a b => time a + period ≤ time b := by
  induction bs generalizing last with
  | nil => exact .nil
  | cons b bs inductionHypothesis =>
      rw [due]
      split
      · exact .cons (fun b' member => le_time_of_mem_due time period member)
          (inductionHypothesis _)
      · exact inductionHypothesis last

end DdosFiltering.Foundation
