import Mathlib.Data.Int.Notation
import Mathlib.Data.List.Basic
import Mathlib.Data.Nat.Notation
import Mathlib.Logic.Function.Basic

/-!
# Tables that number their keys

A table that gives every key it holds a position, and no two keys the same one. What a table
holds is the partial map `position`; an insertion returns the position of the key, or a
negative number when it fails (`Numbers`). A table filled by insertions that all succeed
holds exactly the inserted keys (`Numbers.insertAll_holds`), at positions of their own
(`Numbers.insertAll_distinct`). A list of keys is such a table (`list_numbers`).
-/

set_option autoImplicit false

namespace DdosFiltering.Foundation

variable {τ κ : Type*} {position : τ → κ → Option ℕ} {insert : τ → κ → ℤ × τ}

/-- A successful insertion returns the position of the key in the new table: the one it had,
or one that no key had. It moves no other key. -/
structure Numbers (position : τ → κ → Option ℕ) (insert : τ → κ → ℤ × τ) : Prop where
  inserted : ∀ t k, 0 ≤ (insert t k).1 →
    ∃ p : ℕ, (insert t k).1 = p ∧ position (insert t k).2 k = some p
  others : ∀ t k, 0 ≤ (insert t k).1 → ∀ k', k' ≠ k →
    position (insert t k).2 k' = position t k'
  distinct : ∀ t k, 0 ≤ (insert t k).1 → ∀ k', k' ≠ k →
    position t k' ≠ position (insert t k).2 k

/-- No two keys have the same position. -/
def Distinct (position : τ → κ → Option ℕ) (t : τ) : Prop :=
  ∀ k k' p, position t k = some p → position t k' = some p → k = k'

/-- Insert keys in order, and give up when an insertion fails. -/
def insertAll (insert : τ → κ → ℤ × τ) (t : τ) (keys : List κ) : Option τ :=
  keys.foldlM (fun t k => if (insert t k).1 < 0 then none else some (insert t k).2) t

theorem insertAll_cons {t u : τ} {k : κ} {keys : List κ}
    (done : insertAll insert t (k :: keys) = some u) :
    0 ≤ (insert t k).1 ∧ insertAll insert (insert t k).2 keys = some u := by
  unfold insertAll at done
  rw [List.foldlM_cons] at done
  by_cases failed : (insert t k).1 < 0
  · rw [if_pos failed] at done
    exact absurd done nofun
  · rw [if_neg failed] at done
    exact ⟨Int.not_lt.mp failed, done⟩

/-- **Insertions fill a table with the inserted keys.** By induction on the keys. -/
theorem Numbers.insertAll_holds (numbers : Numbers position insert) {keys : List κ} {t u : τ}
    (done : insertAll insert t keys = some u) (k : κ) :
    position u k ≠ none ↔ position t k ≠ none ∨ k ∈ keys := by
  induction keys generalizing t with
  | nil =>
      obtain rfl := Option.some.inj done
      simp
  | cons first keys inductionHypothesis =>
      obtain ⟨succeeds, rest⟩ := insertAll_cons done
      rw [inductionHypothesis rest, List.mem_cons]
      by_cases same : k = first
      · subst same
        obtain ⟨p, -, holds⟩ := numbers.inserted t k succeeds
        simp [holds]
      · rw [numbers.others t first succeeds k same]
        simp [same]

theorem Numbers.insert_distinct (numbers : Numbers position insert) {t : τ} {k : κ}
    (succeeds : 0 ≤ (insert t k).1) (distinct : Distinct position t) :
    Distinct position (insert t k).2 := by
  intro a b p atA atB
  by_cases first : a = k
  · by_cases second : b = k
    · rw [first, second]
    · subst first
      have moved : position t b ≠ position (insert t a).2 a :=
        numbers.distinct t a succeeds b second
      rw [numbers.others t a succeeds b second] at atB
      exact absurd (atB.trans atA.symm) moved
  · rw [numbers.others t k succeeds a first] at atA
    by_cases second : b = k
    · subst second
      exact absurd (atA.trans atB.symm) (numbers.distinct t b succeeds a first)
    · rw [numbers.others t k succeeds b second] at atB
      exact distinct a b p atA atB

theorem Numbers.insertAll_distinct (numbers : Numbers position insert) {keys : List κ} {t u : τ}
    (done : insertAll insert t keys = some u) (distinct : Distinct position t) :
    Distinct position u := by
  induction keys generalizing t with
  | nil =>
      obtain rfl := Option.some.inj done
      exact distinct
  | cons first keys inductionHypothesis =>
      obtain ⟨succeeds, rest⟩ := insertAll_cons done
      exact inductionHypothesis rest (numbers.insert_distinct succeeds distinct)

/-! ## Keys in the order of insertion -/

variable [DecidableEq κ]

/-- The position of a key in a list of keys. -/
def listPosition (t : List κ) (k : κ) : Option ℕ := t.findIdx? (· == k)

/-- Insert a key at the end of the list, unless the list holds it. -/
def listInsert (t : List κ) (k : κ) : ℤ × List κ :=
  match listPosition t k with
  | some p => (p, t)
  | none => (t.length, t ++ [k])

theorem listPosition_append (t : List κ) (k k' : κ) :
    listPosition (t ++ [k]) k' =
      (listPosition t k').or (if k = k' then some t.length else none) := by
  rw [listPosition, List.findIdx?_append, listPosition]
  by_cases same : k = k'
  · subst same
    cases List.findIdx? (· == k) t <;> simp
  · simp [same]

theorem listPosition_lt {t : List κ} {k : κ} {p : ℕ} (found : listPosition t k = some p) :
    p < t.length :=
  (List.findIdx?_eq_some_iff_findIdx_eq.mp found).1

theorem listPosition_get {t : List κ} {k : κ} {p : ℕ} (found : listPosition t k = some p) :
    t[p]? = some k := by
  obtain ⟨inside, same, -⟩ := List.findIdx?_eq_some_iff_getElem.mp found
  rw [List.getElem?_eq_getElem inside, eq_of_beq same]

/-- **A list numbers its keys** in the order of insertion, from 0. -/
theorem list_numbers : Numbers (κ := κ) listPosition listInsert where
  inserted t k _ := by
    unfold listInsert
    cases found : listPosition t k with
    | some p => exact ⟨p, rfl, found⟩
    | none => exact ⟨t.length, rfl, by simp [listPosition_append, found]⟩
  others t k _ k' other := by
    unfold listInsert
    cases listPosition t k with
    | some p => rfl
    | none => simp [listPosition_append, Ne.symm other]
  distinct t k _ k' other same := by
    unfold listInsert at same
    cases found : listPosition t k with
    | some p =>
        simp only [found] at same
        have here := listPosition_get same
        rw [listPosition_get found] at here
        exact other (Option.some.inj here).symm
    | none =>
        simp only [found, listPosition_append, Option.none_or, if_true] at same
        exact Nat.lt_irrefl _ (listPosition_lt same)

end DdosFiltering.Foundation
