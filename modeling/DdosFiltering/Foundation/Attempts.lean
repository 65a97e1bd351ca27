import Mathlib.Data.List.Basic

/-!
# Plans that stop at the first failure

A program that makes one call after the other, and gives up when an answer is not the one it
hopes for, follows a plan. What the environment answers may depend on all calls made before; so
whether an attempt goes on is a question about them. The calls that are made are the first ones of
the plan (`attempt_prefix`), and plans follow one another as the programs do (`attempt_append`).
A plan that ends with an attempt that cannot fail is finished exactly when all its calls have
been made (`attempt_finishes_iff`).
-/

set_option autoImplicit false

namespace DdosFiltering.Foundation

variable {Call : Type*}

/-- A call, and whether the program goes on after it, when others have been made before. -/
structure Attempt (Call : Type*) where
  call : Call
  goesOn : List Call → Bool

/-- The calls of a plan. -/
def plannedCalls (plan : List (Attempt Call)) : List Call := plan.map Attempt.call

/-- Follow a plan: whether it is finished, and all calls that have been made. -/
def attempt (made : List Call) : List (Attempt Call) → Bool × List Call
  | [] => (true, made)
  | a :: plan =>
      if a.goesOn made then attempt (made ++ [a.call]) plan else (false, made ++ [a.call])

/-- An attempt after which the program always goes on. -/
def Attempt.certain (call : Call) : Attempt Call := ⟨call, fun _ => true⟩

variable {made : List Call} {plan plan' : List (Attempt Call)}

theorem attempt_cons (made : List Call) (a : Attempt Call) (plan : List (Attempt Call)) :
    attempt made (a :: plan) =
      if a.goesOn made then attempt (made ++ [a.call]) plan else (false, made ++ [a.call]) := rfl

/-- One plan after the other, by induction on the first one. -/
theorem attempt_append (made : List Call) (plan plan' : List (Attempt Call)) :
    attempt made (plan ++ plan') =
      if (attempt made plan).1 then attempt (attempt made plan).2 plan'
      else (false, (attempt made plan).2) := by
  induction plan generalizing made with
  | nil => rfl
  | cons a plan inductionHypothesis =>
      rw [List.cons_append, attempt_cons, attempt_cons]
      cases a.goesOn made with
      | true => exact inductionHypothesis _
      | false => rfl

/-- **The calls that are made are the first ones of the plan**, by induction on the plan. -/
theorem attempt_prefix (made : List Call) (plan : List (Attempt Call)) :
    ∃ done, (attempt made plan).2 = made ++ done ∧ done <+: plannedCalls plan ∧
      ((attempt made plan).1 = true → done = plannedCalls plan) := by
  induction plan generalizing made with
  | nil => exact ⟨[], (List.append_nil _).symm, List.prefix_rfl, fun _ => rfl⟩
  | cons a plan inductionHypothesis =>
      rw [attempt_cons]
      cases a.goesOn made with
      | true =>
          obtain ⟨done, calls, isPrefix, whole⟩ := inductionHypothesis (made ++ [a.call])
          refine ⟨a.call :: done, ?_, (List.prefix_cons_inj a.call).mpr isPrefix, ?_⟩
          · rw [if_pos rfl, calls, List.append_assoc]
            rfl
          · intro finished
            rw [whole finished]
            rfl
      | false =>
          refine ⟨[a.call], rfl, ?_, fun finished => absurd finished Bool.false_ne_true⟩
          exact (List.prefix_cons_inj a.call).mpr List.nil_prefix

/-- **A plan with a certain end is finished exactly when all its calls have been made.** -/
theorem attempt_finishes_iff (made : List Call) (plan : List (Attempt Call)) (last : Call) :
    (attempt made (plan ++ [.certain last])).1 = true ↔
      (attempt made (plan ++ [.certain last])).2 =
        made ++ plannedCalls (plan ++ [.certain last]) := by
  constructor
  · intro finished
    obtain ⟨done, calls, -, whole⟩ := attempt_prefix made (plan ++ [.certain last])
    rw [calls, whole finished]
  · intro all
    rw [attempt_append] at all ⊢
    cases first : (attempt made plan).1 with
    | true => rfl
    | false =>
        obtain ⟨done, calls, isPrefix, -⟩ := attempt_prefix made plan
        rw [first, if_neg Bool.false_ne_true, calls] at all
        have longer := congrArg List.length all
        have shorter := isPrefix.length_le
        simp only [plannedCalls, List.length_append, List.length_map, List.length_cons,
          List.length_nil] at longer shorter
        omega

end DdosFiltering.Foundation
