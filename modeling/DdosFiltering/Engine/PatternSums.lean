import DdosFiltering.Engine.PatternLoops
import Mathlib.Algebra.Order.BigOperators.Group.List

/-!
# Exact sums

The inner loop of `fast_str_compile` adds a value to `hash`, and only then asks
`addition_overflow` about the new `hash` and the value. Both are `int`, and are converted to
`uint32_t`. The guard passes only if both have fewer than 32 bits, so neither is negative: a sum
that has been wrapped is refused in the same turn (`additionOverflow_bmod_iff`). On every line that
is read to its newline the sums are therefore exact, turn by turn (`pattern_sums_exact`).
-/

set_option autoImplicit false

namespace DdosFiltering.Engine

theorem sum_pairVal_nonneg {ps : List (UInt8 × UInt8)} (nonneg : ∀ p ∈ ps, 0 ≤ pairVal p) :
    0 ≤ (ps.map pairVal).sum :=
  List.sum_nonneg (List.forall_mem_map.mpr nonneg)

/-- The first values add up to no more than all of them. -/
theorem sum_take_le_sum {ps : List (UInt8 × UInt8)} (nonneg : ∀ p ∈ ps, 0 ≤ pairVal p) (i : ℕ) :
    ((ps.take i).map pairVal).sum ≤ (ps.map pairVal).sum :=
  ((List.take_sublist i ps).map pairVal).sum_le_sum (List.forall_mem_map.mpr nonneg)

namespace Loops

variable {lib : StringLibrary} {room more : ℕ} {file tmp : List UInt8} {hash : ℤ} {t : FastStr}

/-- The turn that reads a pair and goes on. -/
theorem step_pair {p : UInt8 × UInt8} (noNewline : p.1 ≠ newline ∧ p.2 ≠ newline)
    (inside : tmp.length < fastStrMaxStringSize) (start : 0 ≤ hash) (nonneg : 0 ≤ pairVal p)
    (small : hash + pairVal p < 2 ^ 31) :
    step lib (.reading more (p.1 :: p.2 :: file) tmp hash t) =
      .reading more file (tmp ++ [pairByte p]) (hash + pairVal p) t := by
  have notWrapped : (hash + pairVal p).bmod (2 ^ 32) = hash + pairVal p :=
    Int.bmod_eq_of_le (by omega) (by omega)
  have guard := (additionOverflow_pair_iff start (by omega)).mpr ⟨nonneg, small⟩
  have value : getVal p.1 * 16 + getVal p.2 = pairVal p := rfl
  have shorter : ¬tmp.length + 1 > fastStrMaxStringSize := Nat.not_lt.mpr inside
  simp only [step, fgetc, if_neg noNewline.1, if_neg noNewline.2, value, List.length_append,
    List.length_singleton, if_neg shorter]
  rw [if_pos guard, notWrapped]
  rfl

/-- Where the inner loop is after so many turns. By induction on the pairs of the line. -/
theorem iterate_step_pairLine {ps : List (UInt8 × UInt8)} (readable : Readable room ps)
    (free : tmp.length + room = fastStrMaxStringSize) (start : 0 ≤ hash)
    (small : hash + (ps.map pairVal).sum < 2 ^ 31) {i : ℕ} (within : i ≤ ps.length) :
    (step lib)^[i] (.reading more (pairLine ps ++ file) tmp hash t) =
      .reading more (pairLine (ps.drop i) ++ file) (tmp ++ (ps.take i).map pairByte)
        (hash + ((ps.take i).map pairVal).sum) t := by
  induction ps generalizing room tmp hash i with
  | nil =>
      obtain rfl := Nat.le_zero.mp within
      simp
  | cons p ps inductionHypothesis =>
      cases i with
      | zero => simp
      | succ i =>
          cases room with
          | zero => exact absurd readable.short (by simp)
          | succ room =>
              obtain ⟨⟨first, second, nonneg⟩, readable⟩ := Readable.cons_iff.mp readable
              have later := sum_pairVal_nonneg readable.nonneg
              rw [List.map_cons, List.sum_cons] at small
              have text : pairLine (p :: ps) ++ file = p.1 :: p.2 :: (pairLine ps ++ file) := rfl
              rw [Function.iterate_succ_apply, text,
                step_pair ⟨first, second⟩ (by omega) start nonneg (by omega)]
              rw [inductionHypothesis readable
                (by rw [List.length_append, List.length_singleton]; omega) (by omega) (by omega)
                (Nat.le_of_succ_le_succ within)]
              simp [Int.add_assoc]

end Loops

/-- The line that `file` starts with is read with exact sums, up to `rest` and with the result
`hash`: it is made of pairs with values that are not negative, and after each turn `hash` is the
sum of the values so far, which is an `int`. -/
structure ReadExactly (file rest : List UInt8) (hash : ℤ) (ps : List (UInt8 × UInt8)) : Prop where
  line : file = pairLine ps ++ newline :: rest
  nonneg : ∀ p ∈ ps, 0 ≤ pairVal p
  sum : hash = (ps.map pairVal).sum
  turns : ∀ (lib : StringLibrary) (more : ℕ) (t : FastStr) (i : ℕ), i ≤ ps.length →
    (Loops.step lib)^[i] (.reading more file [] 0 t) =
      .reading more (pairLine (ps.drop i) ++ newline :: rest) ((ps.take i).map pairByte)
        ((ps.take i).map pairVal).sum t
  fits : ∀ i, 0 ≤ ((ps.take i).map pairVal).sum ∧ ((ps.take i).map pairVal).sum < 2 ^ 31

theorem exists_readExactly {file tmp rest : List UInt8} {hash : ℤ}
    (read : readPattern fastStrMaxStringSize file [] 0 = some (tmp, hash, rest)) :
    ∃ ps, ReadExactly file rest hash ps := by
  obtain ⟨ps, readable, rfl, -, sum, below⟩ := exists_readable le_rfl (by decide) read
  rw [Int.zero_add] at sum
  subst sum
  refine ⟨ps, rfl, readable.nonneg, rfl, ?_, ?_⟩
  · intro lib more t i within
    have small : 0 + (ps.map pairVal).sum < 2 ^ 31 := by rwa [Int.zero_add]
    rw [Loops.iterate_step_pairLine readable (Nat.zero_add _) le_rfl small within,
      List.nil_append, Int.zero_add]
  · intro i
    have nonneg : ∀ p ∈ ps.take i, 0 ≤ pairVal p := by
      intro p member
      exact readable.nonneg p (List.mem_of_mem_take member)
    exact ⟨sum_pairVal_nonneg nonneg, (sum_take_le_sum readable.nonneg i).trans_lt below⟩

/-- **The guard makes the sums exact.** `lg` is the bit length, also with more turns than 32, the
guard passes only if there is no overflow, and every line that is read to its newline is read with
exact sums. -/
theorem pattern_sums_exact :
    (∀ a : UInt32, lg a = a.toNat.size ∧ ∀ turns, 32 ≤ turns → lgLoop turns a 0 = lg a) ∧
      (∀ a b : UInt32, additionOverflow a b = true → a.toNat + b.toNat < 2 ^ 32) ∧
      ∀ (file tmp rest : List UInt8) (hash : ℤ),
        readPattern fastStrMaxStringSize file [] 0 = some (tmp, hash, rest) →
          ∃ ps, ReadExactly file rest hash ps := by
  refine ⟨?_, ?_, ?_⟩
  · intro a
    refine ⟨lg_eq_size a, ?_⟩
    intro turns enough
    have below := a.toNat_lt.trans_le (Nat.pow_le_pow_right (by decide) enough)
    rw [lgLoop_eq_size below, lg_eq_size, Nat.zero_add]
  · intro a b guard
    obtain ⟨first, second⟩ := (additionOverflow_iff a b).mp guard
    omega
  · intro file tmp rest hash read
    exact exists_readExactly read

/-- The line `ff4a00ff`, in front of another one, is read with the sum 584. -/
theorem pattern_sums_exact_fourBytes :
    ∃ ps, ReadExactly [102, 102, 52, 97, 48, 48, 102, 102, newline, 52, 97, newline]
      [52, 97, newline] 584 ps := by
  have read : readPattern fastStrMaxStringSize
      [102, 102, 52, 97, 48, 48, 102, 102, newline, 52, 97, newline] [] 0 =
      some ([0xff, 0x4a, 0, 0xff], 584, [52, 97, newline]) := rfl
  exact pattern_sums_exact.2.2 _ _ _ _ read

end DdosFiltering.Engine
