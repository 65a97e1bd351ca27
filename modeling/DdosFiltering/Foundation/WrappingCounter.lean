import Mathlib.Algebra.Group.Int.Defs
import Mathlib.Algebra.Order.Ring.Int
import Mathlib.Algebra.Ring.Divisibility.Basic
import Mathlib.Data.Int.Notation
import Mathlib.Data.Nat.Notation

/-!
# Counting with a counter that wraps

A signed counter that is only ever incremented holds the balanced residue of the number of
increments. Up to half its range it is that number; behind, it is negative, and the residue modulo
a divisor other than a power of two is another one. `wrapped_dvd_iff_upTo` says up to which
number of increments the multiples of `m` can be told by the counter.
-/

set_option autoImplicit false

namespace DdosFiltering.Foundation

/-- In the lower half of its range the counter is the number of increments. -/
theorem bmod_eq_of_lt_half {k half : ℕ} (below : k < half) :
    (k : ℤ).bmod (2 * half) = k :=
  Int.bmod_eq_of_le_mul_two (by omega) (by omega)

/-- In the upper half it is too small by a full range. -/
theorem bmod_eq_of_half_le {k half : ℕ} (above : half ≤ k) (below : k < 2 * half) :
    (k : ℤ).bmod (2 * half) = k - 2 * half := by
  rw [Int.bmod_def]
  have same : (k : ℤ) % ((2 * half : ℕ) : ℤ) = k := Int.emod_eq_of_lt (by omega) (by omega)
  rw [same, if_neg (by omega)]
  push_cast
  rfl

/-- A divisor of the range divides the counter and the number together. -/
theorem dvd_bmod_iff {m range k : ℕ} (divides : m ∣ range) :
    (m : ℤ) ∣ (k : ℤ).bmod range ↔ m ∣ k := by
  have whole : (m : ℤ) ∣ (k : ℤ).bmod range - k :=
    (Int.natCast_dvd_natCast.mpr divides).trans Int.dvd_bmod_sub_self
  exact (dvd_iff_dvd_of_dvd_sub whole).trans Int.natCast_dvd_natCast

section Half

variable {m half : ℕ}

/-- Where the counter is too small, it and the number are both multiples only of divisors of the
range. -/
theorem not_dvd_both (divides : ¬m ∣ 2 * half) {k : ℕ} (above : half ≤ k) (below : k < 2 * half)
    (counted : (m : ℤ) ∣ (k : ℤ).bmod (2 * half)) : ¬m ∣ k := by
  intro number
  rw [bmod_eq_of_half_le above below] at counted
  have range := (dvd_sub_right (Int.natCast_dvd_natCast.mpr number)).mp counted
  exact divides (Int.natCast_dvd_natCast.mp (mod_cast range))

/-- The first number whose counter does not tell whether it is a multiple of `m`: the
first multiple in the upper half, or the first number there whose counter is a multiple. -/
def firstWrong (m half : ℕ) : ℕ := half + min (half % m) (m - half % m)

/-- Behind `half`, neither the number nor the counter is a multiple before `firstWrong`. -/
theorem not_dvd_of_lt_firstWrong (positive : 0 < m) (small : m ≤ half) {k : ℕ}
    (above : half ≤ k) (below : k < firstWrong m half) :
    ¬m ∣ k ∧ ¬(m : ℤ) ∣ (k : ℤ).bmod (2 * half) := by
  obtain ⟨j, rfl⟩ := Nat.exists_eq_add_of_le above
  have close : half % m < m := Nat.mod_lt _ positive
  unfold firstWrong at below
  have behind : j < half % m ∧ j < m - half % m := by omega
  have whole : m ∣ half - half % m := Nat.dvd_sub_mod half
  have less : half % m ≤ half := Nat.mod_le _ _
  constructor
  · intro number
    have rest : m ∣ half + j - (half - half % m) := Nat.dvd_sub number whole
    have atMost := Nat.le_of_dvd (by omega) rest
    omega
  · rw [bmod_eq_of_half_le above (by omega)]
    intro counted
    have rest : (m : ℤ) ∣ (half % m - j : ℕ) := by
      have sum := Int.dvd_add counted (Int.natCast_dvd_natCast.mpr whole)
      refine (Int.dvd_neg.mpr sum).trans (dvd_of_eq ?_)
      omega
    have atMost := Nat.le_of_dvd (by omega) (Int.natCast_dvd_natCast.mp rest)
    omega

/-- **The counter tells the multiples of `m`** among the numbers up to `n` exactly if `m` divides
the range of the counter, or `n` is below `firstWrong`. -/
theorem wrapped_dvd_iff_upTo (positive : 0 < m) (small : m ≤ half) {n : ℕ} :
    (∀ k ≤ n, (m : ℤ) ∣ (k : ℤ).bmod (2 * half) ↔ m ∣ k) ↔
      m ∣ 2 * half ∨ n < firstWrong m half := by
  have close : half % m < m := Nat.mod_lt _ positive
  constructor
  · intro tells
    by_contra wrong
    obtain ⟨divides, reached⟩ := not_or.mp wrong
    have bound : firstWrong m half < 2 * half ∧ half ≤ firstWrong m half := by
      unfold firstWrong
      have nonzero : half % m ≠ 0 :=
        fun zero => divides ((Nat.dvd_of_mod_eq_zero zero).trans (Nat.dvd_mul_left _ _))
      omega
    have same := tells (firstWrong m half) (Nat.not_lt.mp reached)
    have whole : m ∣ half - half % m := Nat.dvd_sub_mod half
    have less : half % m ≤ half := Nat.mod_le _ _
    have counted : (m : ℤ) ∣ (firstWrong m half : ℤ).bmod (2 * half) := by
      by_cases first : half % m ≤ m - half % m
      · rw [bmod_eq_of_half_le bound.2 bound.1, firstWrong, Nat.min_eq_left first]
        refine Int.dvd_neg.mp ((Int.natCast_dvd_natCast.mpr whole).trans (dvd_of_eq ?_))
        omega
      · refine same.mpr ?_
        rw [firstWrong, Nat.min_eq_right (Nat.le_of_not_le first)]
        refine (Nat.dvd_add whole (Nat.dvd_refl m)).trans (dvd_of_eq ?_)
        omega
    exact not_dvd_both divides bound.2 bound.1 counted (same.mp counted)
  · rintro (divides | early) k inside
    · exact_mod_cast dvd_bmod_iff divides
    · by_cases below : k < half
      · rw [bmod_eq_of_lt_half below]
        exact Int.natCast_dvd_natCast
      · obtain ⟨number, counted⟩ := not_dvd_of_lt_firstWrong positive small
          (Nat.not_lt.mp below) (Nat.lt_of_le_of_lt inside early)
        exact iff_of_false counted number

end Half

end DdosFiltering.Foundation
