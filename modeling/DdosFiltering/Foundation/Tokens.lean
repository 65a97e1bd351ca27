import Mathlib.Data.List.Nodup
import Mathlib.Data.List.Perm.Basic
import Mathlib.Logic.Function.Basic

/-!
# Tokens that move between cells

Every cell holds a list of tokens. Taking a token out of one cell, or putting it into
another, changes the tokens of all cells together by that one token, up to their order
(`tokens_take`, `tokens_put`). So a discipline that only moves tokens keeps their number
and, when they were distinct, never has one token in two cells.
-/

set_option autoImplicit false

namespace DdosFiltering.Foundation

open scoped List

variable {C B : Type*} [DecidableEq C]

/-- The tokens in the cells of the list `all`. -/
def tokens (all : List C) (cells : C → List B) : List B := all.flatMap cells

theorem tokens_update_of_notMem {all : List C} {c : C} (absent : c ∉ all) (cells : C → List B)
    (content : List B) : tokens all (Function.update cells c content) = tokens all cells := by
  apply List.flatMap_congr
  intro d member
  have other : d ≠ c := fun same => absent (same ▸ member)
  rw [Function.update_of_ne other]

/-- Taking a token out of a cell. -/
theorem tokens_take {all : List C} (nodup : all.Nodup) {c : C} (member : c ∈ all)
    (cells : C → List B) {b : B} {rest : List B} (holds : cells c ~ b :: rest) :
    tokens all cells ~ b :: tokens all (Function.update cells c rest) := by
  induction all with
  | nil => exact absurd member List.not_mem_nil
  | cons d all inductionHypothesis =>
      obtain ⟨fresh, nodup'⟩ := List.nodup_cons.mp nodup
      have unfold (f : C → List B) : tokens (d :: all) f = f d ++ tokens all f := rfl
      rw [unfold, unfold]
      by_cases here : d = c
      · subst here
        rw [tokens_update_of_notMem fresh, Function.update_self]
        exact holds.append_right _
      · have later : c ∈ all := (List.mem_cons.mp member).resolve_left (Ne.symm here)
        rw [Function.update_of_ne here]
        exact ((inductionHypothesis nodup' later).append_left _).trans List.perm_middle

/-- Putting a token into a cell. -/
theorem tokens_put {all : List C} (nodup : all.Nodup) {c : C} (member : c ∈ all)
    {cells : C → List B} {b : B} {content : List B} (holds : content ~ b :: cells c) :
    tokens all (Function.update cells c content) ~ b :: tokens all cells := by
  have taken := tokens_take nodup member (Function.update cells c content)
    (by rwa [Function.update_self] : Function.update cells c content c ~ b :: cells c)
  rwa [Function.update_idem, Function.update_eq_self] at taken

end DdosFiltering.Foundation
