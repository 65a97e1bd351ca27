import Mathlib.Algebra.BigOperators.Group.List.Basic
import Mathlib.Tactic.Abel

/-!
# Search with a rolling sum

A window of fixed length moves over a list, and the sum of its weights is kept up to date:
each move takes away the weight of the element that leaves the window and adds the weight of
the one that enters it. A window is tested further only when its sum is the one looked for,
that is, when the difference of the two is 0. The search finds a window exactly when there is
one (`rolls_iff`).

When the test compares all elements but the last with those of a pattern, the sum decides about
the last one: a window that is found is the pattern with the last element that gives the sum
(`foundAt_within`), and where weights tell elements apart, it is the pattern itself
(`foundAt_pattern`).
-/

set_option autoImplicit false

namespace DdosFiltering.Foundation

variable {α M : Type*} [AddCommGroup M] [DecidableEq M] {weight : α → M} {test : List α → Bool}

/-- The sum of the weights of a list. -/
def weightSum (weight : α → M) (l : List α) : M := (l.map weight).sum

omit [DecidableEq M] in
@[simp] theorem weightSum_nil : weightSum weight [] = 0 := rfl

omit [DecidableEq M] in
@[simp] theorem weightSum_cons (a : α) (l : List α) :
    weightSum weight (a :: l) = weight a + weightSum weight l := by
  simp [weightSum]

omit [DecidableEq M] in
@[simp] theorem weightSum_append (front back : List α) :
    weightSum weight (front ++ back) = weightSum weight front + weightSum weight back := by
  simp [weightSum]

/-- The moves of the window. `diff` is the sum of the window less the sum looked for, `sub`
starts with the window, and `ahead` starts behind it. -/
def rolls (weight : α → M) (test : List α → Bool) : M → List α → List α → Bool
  | diff, leaves :: sub, enters :: ahead =>
      let diff := diff - weight leaves + weight enters
      (decide (diff = 0) && test sub) || rolls weight test diff sub ahead
  | _, _, _ => false

/-- The window of length `n` at the offset `k` has the sum looked for, and passes the test. -/
def FoundAt (weight : α → M) (test : List α → Bool) (key : M) (n : ℕ) (text : List α) (k : ℕ) :
    Prop :=
  k + n ≤ text.length ∧ weightSum weight ((text.drop k).take n) = key ∧ test (text.drop k) = true

omit [DecidableEq M] in
theorem foundAt_cons {key : M} {n : ℕ} {a : α} {text : List α} {k : ℕ} :
    FoundAt weight test key n (a :: text) (k + 1) ↔ FoundAt weight test key n text k := by
  unfold FoundAt
  rw [List.length_cons, List.drop_succ_cons]
  exact and_congr_left' (by omega)

/-- **The search finds what is there.** By induction on the elements ahead of the window. -/
theorem rolls_iff (weight : α → M) (test : List α → Bool) (key : M) {n : ℕ} (positive : 0 < n)
    {window : List α} (length : window.length = n) (ahead : List α) :
    rolls weight test (weightSum weight window - key) (window ++ ahead) ahead = true ↔
      ∃ k, 1 ≤ k ∧ FoundAt weight test key n (window ++ ahead) k := by
  induction ahead generalizing window with
  | nil =>
      have nothing :
          rolls weight test (weightSum weight window - key) (window ++ []) [] = false := by
        cases window <;> rfl
      rw [nothing]
      refine iff_of_false nofun ?_
      rintro ⟨k, moved, fits, -⟩
      rw [List.append_nil, length] at fits
      omega
  | cons enters ahead inductionHypothesis =>
      obtain ⟨leaves, kept, rfl⟩ : ∃ leaves kept, window = leaves :: kept :=
        List.exists_cons_of_length_pos (length ▸ positive)
      have moved : kept ++ enters :: ahead = (kept ++ [enters]) ++ ahead := by simp
      have length' : (kept ++ [enters]).length = n := by simpa using length
      have diff : weightSum weight (leaves :: kept) - key - weight leaves + weight enters =
          weightSum weight (kept ++ [enters]) - key := by
        simp only [weightSum_cons, weightSum_append, weightSum_nil]
        abel
      have first : FoundAt weight test key n (kept ++ enters :: ahead) 0 ↔
          weightSum weight (kept ++ [enters]) - key = 0 ∧
            test (kept ++ enters :: ahead) = true := by
        have fits : 0 + n ≤ (kept ++ enters :: ahead).length := by
          rw [moved, List.length_append, length']
          omega
        rw [FoundAt, List.drop_zero, sub_eq_zero]
        conv_lhs => rw [moved, List.take_left' length']
        rw [← moved]
        exact and_iff_right fits
      have step : rolls weight test (weightSum weight (leaves :: kept) - key)
          (leaves :: kept ++ enters :: ahead) (enters :: ahead) = true ↔
            FoundAt weight test key n (kept ++ enters :: ahead) 0 ∨
              ∃ k, 1 ≤ k ∧ FoundAt weight test key n (kept ++ enters :: ahead) k := by
        rw [List.cons_append, rolls, diff, Bool.or_eq_true, Bool.and_eq_true, decide_eq_true_iff,
          first, moved, inductionHypothesis length']
      rw [step]
      constructor
      · rintro (found | ⟨k, -, found⟩)
        · exact ⟨1, le_refl 1, foundAt_cons.mpr found⟩
        · exact ⟨k + 1, Nat.le_add_left 1 k, foundAt_cons.mpr found⟩
      · rintro ⟨k, moved, found⟩
        obtain ⟨j, rfl⟩ : ∃ j, k = j + 1 := ⟨k - 1, by omega⟩
        have found' := foundAt_cons.mp found
        by_cases start : j = 0
        · exact .inl (start ▸ found')
        · exact .inr ⟨j, Nat.pos_of_ne_zero start, found'⟩

/-! ## Patterns -/

/-- The elements at the start of a list are those of `q`. -/
def startsWith [DecidableEq α] (q sub : List α) : Bool := decide (sub.take q.length = q)

omit [DecidableEq M] in
/-- A window that starts with `q` is `q` and one more element, and the sum is a statement about
that element. -/
theorem foundAt_startsWith [DecidableEq α] {key : M} {q text : List α} {k : ℕ} :
    FoundAt weight (startsWith q) key (q.length + 1) text k ↔
      ∃ b, weightSum weight q + weight b = key ∧ q ++ [b] <+: text.drop k := by
  constructor
  · rintro ⟨fits, sum, starts⟩
    have inside : q.length < (text.drop k).length := by
      rw [List.length_drop]
      omega
    have window : (text.drop k).take (q.length + 1) = q ++ [(text.drop k)[q.length]] := by
      rw [List.take_succ_eq_append_getElem inside, of_decide_eq_true starts]
    refine ⟨(text.drop k)[q.length], ?_, ?_⟩
    · rw [window, weightSum_append, weightSum_cons, weightSum_nil, add_zero] at sum
      exact sum
    · rw [← window]
      exact List.take_prefix _ _
  · rintro ⟨b, sum, rest, here⟩
    refine ⟨?_, ?_, ?_⟩
    · have length := congrArg List.length here
      simp only [List.length_append, List.length_singleton, List.length_drop] at length
      omega
    · rw [← here, List.take_left' (by simp), weightSum_append, weightSum_cons, weightSum_nil,
        add_zero]
      exact sum
    · rw [startsWith, ← here, List.append_assoc, List.take_left' rfl]
      exact decide_eq_true rfl

/-- A list occurs behind the first element exactly when it starts at a later offset. -/
theorem infix_tail_iff {w text : List α} :
    w <:+: text.tail ↔ ∃ k, 1 ≤ k ∧ w <+: text.drop k := by
  rw [List.infix_iff_prefix_suffix]
  constructor
  · rintro ⟨sub, starts, suffix⟩
    obtain ⟨front, split⟩ := suffix
    refine ⟨front.length + 1, Nat.le_add_left 1 _, ?_⟩
    rw [← List.drop_tail, ← split, List.drop_left' rfl]
    exact starts
  · rintro ⟨k, moved, starts⟩
    obtain ⟨j, rfl⟩ : ∃ j, k = j + 1 := ⟨k - 1, by omega⟩
    refine ⟨text.drop (j + 1), starts, ?_⟩
    rw [← List.drop_tail]
    exact List.drop_suffix _ _

omit [DecidableEq M] in
/-- **What is found behind the first window**: the pattern, with a last element that has the
weight that is missing. -/
theorem foundAt_within [DecidableEq α] {key : M} {q text : List α} :
    (∃ k, 1 ≤ k ∧ FoundAt weight (startsWith q) key (q.length + 1) text k) ↔
      ∃ b, weightSum weight q + weight b = key ∧ q ++ [b] <:+: text.tail := by
  simp only [foundAt_startsWith, infix_tail_iff]
  constructor
  · rintro ⟨k, moved, b, sum, starts⟩
    exact ⟨b, sum, k, moved, starts⟩
  · rintro ⟨b, sum, k, moved, starts⟩
    exact ⟨k, moved, b, sum, starts⟩

omit [DecidableEq M] in
/-- With the sum of the pattern itself, the last element need not be compared. -/
theorem foundAt_pattern [DecidableEq α] (injective : Function.Injective weight) {q text : List α}
    {c : α} :
    (∃ k, 1 ≤ k ∧
        FoundAt weight (startsWith q) (weightSum weight (q ++ [c])) (q.length + 1) text k) ↔
      q ++ [c] <:+: text.tail := by
  have last (b : α) : weightSum weight q + weight b = weightSum weight (q ++ [c]) ↔ b = c := by
    rw [weightSum_append, weightSum_cons, weightSum_nil, add_zero, add_right_inj]
    exact injective.eq_iff
  rw [foundAt_within]
  simp only [last, exists_eq_left]

end DdosFiltering.Foundation
