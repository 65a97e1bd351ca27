import Mathlib.Data.List.Nodup
import Mathlib.Logic.Function.Basic

/-!
# Objects behind handles

A program finds its objects by a key, in a table of handles, and a handle is given out for a name.
Where no two keys have one handle, the objects can be thought of as a store with a cell for each
key: what is written through a handle is written in the cell of its key, and in no other one
(`viewed_update`). Handles that are looked up under different names in a registry are
different when the registry gives out no handle twice (`eq_of_lookup`).
-/

set_option autoImplicit false

namespace DdosFiltering.Foundation

variable {κ ν π α : Type*}

/-! ## A registry -/

/-- No two names have one handle. -/
theorem eq_of_lookup [BEq ν] [LawfulBEq ν] {registered : List (ν × π)}
    (distinct : (registered.map Prod.snd).Nodup) {n n' : ν} {p : π}
    (found : registered.lookup n = some p) (found' : registered.lookup n' = some p) : n = n' := by
  have member {n : ν} (found : registered.lookup n = some p) : (n, p) ∈ registered := by
    obtain ⟨front, back, rfl, -⟩ := List.lookup_eq_some_iff.mp found
    exact List.mem_append_right _ List.mem_cons_self
  have same := List.inj_on_of_nodup_map distinct (member found) (member found') rfl
  exact congrArg Prod.fst same

/-- A handle stays under its name when others are registered. -/
theorem lookup_append_of_some [BEq ν] [LawfulBEq ν] {registered : List (ν × π)} {n : ν} {p : π}
    (found : registered.lookup n = some p) (more : List (ν × π)) :
    (registered ++ more).lookup n = some p := by
  rw [List.lookup_append, found]
  rfl

/-- A new name is found under its handle. -/
theorem lookup_concat_of_none [BEq ν] [LawfulBEq ν] {registered : List (ν × π)} {n : ν}
    (new : registered.lookup n = none) (p : π) : (registered ++ [(n, p)]).lookup n = some p := by
  rw [List.lookup_append, new, List.lookup_cons_self]
  rfl

/-! ## Cells -/

/-- No two keys have one handle. -/
def Separate (handle : κ → Option π) : Prop :=
  ∀ k k' p, handle k = some p → handle k' = some p → k = k'

/-- The objects as a store with a cell for each key. -/
def viewed (handle : κ → Option π) (empty : α) (objects : π → α) (k : κ) : α :=
  match handle k with
  | some p => objects p
  | none => empty

theorem viewed_of_some {handle : κ → Option π} {k : κ} {p : π} (here : handle k = some p)
    (empty : α) (objects : π → α) : viewed handle empty objects k = objects p := by
  rw [viewed, here]

/-- **What is written through a handle is written in one cell.** -/
theorem viewed_update [DecidableEq κ] [DecidableEq π] {handle : κ → Option π}
    (separate : Separate handle) {k : κ} {p : π} (here : handle k = some p) (empty : α)
    (objects : π → α) (a : α) :
    viewed handle empty (Function.update objects p a) =
      Function.update (viewed handle empty objects) k a := by
  funext k'
  by_cases same : k' = k
  · subst same
    rw [viewed_of_some here, Function.update_self, Function.update_self]
  · rw [Function.update_of_ne same, viewed, viewed]
    cases there : handle k' with
    | none => rfl
    | some p' =>
        have other : p' ≠ p := fun equal => same (separate k' k p (equal ▸ there) here)
        exact Function.update_of_ne other _ _

end DdosFiltering.Foundation
