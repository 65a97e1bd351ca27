import DdosFiltering.Engine.FastStrstr
import Mathlib.Data.List.Nodup
import Mathlib.Data.Int.Order.Basic
import Mathlib.Tactic.SplitIfs

/-!
# The tree of the keys

`fast_strstr_tree` is a map with the nodes in the order of `compare`. An insertion changes what is
found under its key only (`gTreeLookup_gTreeInsert`), and keys that are inserted one after the
other are found under their numbers if they are pairwise different (`gTreeLookup_insertKeys`).
-/

set_option autoImplicit false

namespace DdosFiltering.Engine

/-! ## One key -/

theorem compare_neg_iff {a b : ℤ} : compare a b < 0 ↔ a < b := by
  unfold compare
  split
  · rename_i less
    exact iff_of_true (by decide) less
  · rename_i notLess
    split
    · exact iff_of_false (by decide) notLess
    · exact iff_of_false (by decide) notLess

theorem compare_eq_zero_iff {a b : ℤ} : compare a b = 0 ↔ a = b := by
  unfold compare
  split
  · exact iff_of_false (by decide) (by omega)
  · split
    · exact iff_of_false (by decide) (by omega)
    · exact iff_of_true rfl (by omega)

/-- An insertion changes what is found under its key only. -/
theorem gTreeLookup_gTreeInsert (key other : ℤ) (value : ℕ) (nodes : List (ℤ × ℕ)) :
    gTreeLookup other (gTreeInsert key value nodes) =
      if other = key then some value else gTreeLookup other nodes := by
  induction nodes with
  | nil =>
      simp only [gTreeInsert, gTreeLookup, compare_neg_iff, compare_eq_zero_iff]
      split_ifs <;> first | rfl | omega
  | cons node nodes inductionHypothesis =>
      obtain ⟨k, v⟩ := node
      rcases lt_trichotomy key k with less | rfl | greater
      · simp only [gTreeInsert, compare_neg_iff, if_pos less, gTreeLookup, compare_eq_zero_iff]
        split_ifs <;> first | rfl | omega
      · simp only [gTreeInsert, compare_neg_iff, lt_irrefl, if_false, gTreeLookup,
          compare_eq_zero_iff, if_true]
        split_ifs <;> first | rfl | omega
      · have notLess := not_lt_of_gt greater
        have different := ne_of_gt greater
        simp only [gTreeInsert, compare_neg_iff, compare_eq_zero_iff, if_neg notLess,
          if_neg different, gTreeLookup, inductionHypothesis]
        split_ifs <;> first | rfl | omega

/-- An insertion makes a node, unless its key is there. -/
theorem length_gTreeInsert {key : ℤ} {value : ℕ} {nodes : List (ℤ × ℕ)}
    (absent : gTreeLookup key nodes = none) :
    (gTreeInsert key value nodes).length = nodes.length + 1 := by
  induction nodes with
  | nil => rfl
  | cons node nodes inductionHypothesis =>
      obtain ⟨k, v⟩ := node
      rw [gTreeLookup] at absent
      rw [gTreeInsert]
      split_ifs at absent ⊢ with less same
      · rfl
      · exact congrArg (· + 1) (inductionHypothesis absent)

/-! ## All keys -/

/-- Insert keys one after the other, with their numbers from `first` on as values. -/
def insertKeys (first : ℕ) : List ℤ → List (ℤ × ℕ) → List (ℤ × ℕ)
  | [], nodes => nodes
  | key :: keys, nodes => insertKeys (first + 1) keys (gTreeInsert key first nodes)

section InsertKeys

variable {first : ℕ} {keys : List ℤ} {nodes : List (ℤ × ℕ)}

/-- Other keys are found as before. -/
theorem gTreeLookup_insertKeys_of_notMem {key : ℤ} (absent : key ∉ keys) :
    gTreeLookup key (insertKeys first keys nodes) = gTreeLookup key nodes := by
  induction keys generalizing first nodes with
  | nil => rfl
  | cons k keys inductionHypothesis =>
      rw [List.mem_cons, not_or] at absent
      rw [insertKeys, inductionHypothesis absent.2, gTreeLookup_gTreeInsert, if_neg absent.1]

/-- Keys that are pairwise different are found under their numbers. -/
theorem gTreeLookup_insertKeys (distinct : keys.Nodup) {i : ℕ} {key : ℤ}
    (here : keys[i]? = some key) :
    gTreeLookup key (insertKeys first keys nodes) = some (first + i) := by
  induction keys generalizing first nodes i with
  | nil => cases here
  | cons k keys inductionHypothesis =>
      obtain ⟨absent, distinct⟩ := List.nodup_cons.mp distinct
      cases i with
      | zero =>
          obtain rfl := Option.some.inj here
          rw [insertKeys, gTreeLookup_insertKeys_of_notMem absent, gTreeLookup_gTreeInsert,
            if_pos rfl]
          rfl
      | succ i =>
          rw [insertKeys, inductionHypothesis distinct here, Nat.add_right_comm]
          rfl

/-- Keys that are pairwise different and new make one node each. -/
theorem length_insertKeys (distinct : keys.Nodup)
    (absent : ∀ key ∈ keys, gTreeLookup key nodes = none) :
    (insertKeys first keys nodes).length = nodes.length + keys.length := by
  induction keys generalizing first nodes with
  | nil => rfl
  | cons k keys inductionHypothesis =>
      obtain ⟨notLater, distinct⟩ := List.nodup_cons.mp distinct
      obtain ⟨now, later⟩ := List.forall_mem_cons.mp absent
      rw [insertKeys, inductionHypothesis distinct, length_gTreeInsert now, List.length_cons]
      · omega
      · intro key member
        have different : key ≠ k := fun same => notLater (same ▸ member)
        rw [gTreeLookup_gTreeInsert, if_neg different]
        exact later key member

/-- What is not found behind the insertions has not been there, and is not inserted. -/
theorem gTreeLookup_insertKeys_eq_none_iff {key : ℤ} :
    gTreeLookup key (insertKeys first keys nodes) = none ↔
      key ∉ keys ∧ gTreeLookup key nodes = none := by
  induction keys generalizing first nodes with
  | nil => exact (and_iff_right List.not_mem_nil).symm
  | cons k keys inductionHypothesis =>
      rw [insertKeys, inductionHypothesis, gTreeLookup_gTreeInsert, List.mem_cons, not_or]
      by_cases same : key = k
      · rw [if_pos same]
        exact iff_of_false (fun found => nomatch found.2) fun found => found.1.1 same
      · rw [if_neg same, and_assoc, and_iff_right same]

end InsertKeys

end DdosFiltering.Engine
