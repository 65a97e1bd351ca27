import DdosFiltering.Config.Rejections

/-!
# Numbers on the command line

`parse_portmask` and `parse_timer_period` turn the argument of an option into a number. The
number is a `long` for the C library and an `int` for `parse_args`, and -1 is at once the error
of both functions and a port mask with every bit set. An option is `Faithful` when it is accepted
exactly for the numbers in its range, with the number as it was written. The theorems say for
which texts that is so: for `-p` in `portmask_faithful_iff`, for `-T` and `--stats_t` in
`timers_faithful_iff`.
-/

set_option autoImplicit false

namespace DdosFiltering.Config

/-! ## Numerals -/

/-- The number that the whole text is, as `strtoul` reads it in base 16. -/
def hexNumeral (text : List Char) : Option UInt64 :=
  let (value, rest) := strtoul text
  if text = [] ∨ rest ≠ [] then none else some value

/-- The number that the whole text is, as `strtol` reads it in base 10. -/
def decimalNumeral (text : List Char) : Option ℤ :=
  let (value, rest) := strtol text
  if text = [] ∨ rest ≠ [] then none else some value

/-- The port mask that `parse_args` stores for a text without a number, and for 0. -/
theorem storedPortmask (arg : List Char) :
    UInt32.ofInt (parsePortmask arg) =
      match hexNumeral arg with
      | none => -1
      | some pm => if pm = 0 then -1 else pm.toUInt32 := by
  simp only [parsePortmask, hexNumeral]
  by_cases wrong : arg = [] ∨ (strtoul arg).2 ≠ []
  · simp only [if_pos wrong]
    rfl
  · simp only [if_neg wrong]
    by_cases zero : (strtoul arg).1 = 0
    · simp only [if_pos zero]
      rfl
    · simp only [if_neg zero]
      generalize (strtoul arg).1 = pm
      have sameBits : (pm.toNat : ℤ).bmod (2 ^ 32) % 2 ^ 32 = pm.toNat % 2 ^ 32 :=
        mod_cast Int.bmod_emod (x := (pm.toNat : ℤ)) (m := 2 ^ 32)
      apply UInt32.toNat_inj.mp
      rw [UInt64.toNat_toUInt32, UInt32.ofInt, UInt32.toNat_ofNat', sameBits]
      omega

theorem parseTimerPeriod_eq (arg : List Char) :
    parseTimerPeriod arg =
      match decimalNumeral arg with
      | none => -1
      | some v => if v.bmod (2 ^ 32) ≥ maxTimerPeriod then -1 else v.bmod (2 ^ 32) := by
  simp only [parseTimerPeriod, decimalNumeral]
  by_cases wrong : arg = [] ∨ (strtol arg).2 ≠ []
  · simp only [if_pos wrong]
  · simp only [if_neg wrong]

/-! ## Options with a number -/

/-- What is expected of an option with a number, in a call of `parse_args` that comes to it with
the variables `before`: it is accepted exactly if the number is one of its range, and then the
number is stored; otherwise `parse_args` returns -1. -/
structure Faithful {V : Type} (env : Environment) (s : Settings) (argv : List (List Char))
    (before : Settings) (o : Opt) (InRange : V → Prop) (Stored : V → Settings → Prop) : Prop where
  accepted : (∃ after, handle env before o = .goesOn after) ↔ ∃ v, InRange v
  stored : ∀ v after, InRange v → handle env before o = .goesOn after → Stored v after
  refused : (¬∃ v, InRange v) → ∃ after, parseArgs env s argv = .returns (-1) after

section Faithful

variable {V : Type} {env : Environment} {s before : Settings} {argv : List (List Char)}
  {pre post : List Opt} {o : Opt} {InRange : V → Prop} {Stored : V → Settings → Prop}

/-- `parse_args` returns -1 at an option that fails, and at no other one before it goes on. -/
theorem parseArgs_returns_iff (options : (getoptLong env.posixlyCorrect argv).1 = pre ++ o :: post)
    (reached : handleAll env s pre = .goesOn before)
    (stays : ¬∃ after, handle env before o = .goesOn after) :
    (∃ after, parseArgs env s argv = .returns (-1) after) ↔
      ∃ after, handle env before o = .fails after := by
  simp only [parseArgs, options, handleAll_append reached, handleAll]
  cases handled : handle env before o with
  | undefined | exits =>
      constructor
      · rintro ⟨after, returned⟩
        cases returned
      · rintro ⟨after, failed⟩
        cases failed
  | fails after => exact iff_of_true ⟨after, rfl⟩ ⟨after, rfl⟩
  | goesOn after => exact absurd ⟨after, handled⟩ stays

/-- Being faithful, in terms of one turn of the loop. -/
theorem faithful_iff (options : (getoptLong env.posixlyCorrect argv).1 = pre ++ o :: post)
    (reached : handleAll env s pre = .goesOn before) :
    Faithful env s argv before o InRange Stored ↔
      (∀ v, InRange v → ∃ after, handle env before o = .goesOn after ∧ Stored v after) ∧
      ((¬∃ v, InRange v) → ∃ after, handle env before o = .fails after) := by
  constructor
  · intro faithful
    constructor
    · intro v inRange
      obtain ⟨after, handled⟩ := faithful.accepted.mpr ⟨v, inRange⟩
      exact ⟨after, handled, faithful.stored v after inRange handled⟩
    · intro noValue
      have stays := mt faithful.accepted.mp noValue
      exact (parseArgs_returns_iff options reached stays).mp (faithful.refused noValue)
  · rintro ⟨inside, outside⟩
    have accepted : (∃ after, handle env before o = .goesOn after) ↔ ∃ v, InRange v := by
      constructor
      · rintro ⟨after, handled⟩
        by_contra noValue
        obtain ⟨after', failed⟩ := outside noValue
        cases handled.symm.trans failed
      · rintro ⟨v, inRange⟩
        obtain ⟨after, handled, -⟩ := inside v inRange
        exact ⟨after, handled⟩
    refine ⟨accepted, ?_, ?_⟩
    · intro v after inRange handled
      obtain ⟨after', handled', stored⟩ := inside v inRange
      rwa [← Handled.goesOn.inj (handled'.symm.trans handled)]
    · intro noValue
      have stays := mt accepted.mp noValue
      exact (parseArgs_returns_iff options reached stays).mpr (outside noValue)

/-- Being faithful, for an option that either fails or goes on. -/
theorem faithful_turn_iff {rejects : Prop} [Decidable rejects] {failed accepted : Settings}
    (options : (getoptLong env.posixlyCorrect argv).1 = pre ++ o :: post)
    (reached : handleAll env s pre = .goesOn before)
    (turn : handle env before o = if rejects then .fails failed else .goesOn accepted) :
    Faithful env s argv before o InRange Stored ↔
      (∀ v, InRange v → ¬rejects ∧ Stored v accepted) ∧ ((¬∃ v, InRange v) → rejects) := by
  rw [faithful_iff options reached]
  by_cases refused : rejects
  · rw [if_pos refused] at turn
    simp [turn, refused]
  · rw [if_neg refused] at turn
    simp [turn, refused]

end Faithful

/-! ## `-p` -/

/-- The port masks: hexadecimal numbers from 1 on that fit in 32 bits. -/
def IsPortmask (arg : List Char) (v : UInt64) : Prop :=
  hexNumeral arg = some v ∧ 1 ≤ v ∧ v.toNat < 2 ^ 32

theorem toUInt32_eq_zero_iff {v : UInt64} : v.toUInt32 = 0 ↔ v.toNat % 2 ^ 32 = 0 := by
  rw [← UInt32.toNat_inj, UInt64.toNat_toUInt32]
  exact Iff.rfl

theorem one_le_iff {v : UInt64} : 1 ≤ v ↔ v ≠ 0 := by
  rw [UInt64.le_iff_toNat_le, ne_eq, ← UInt64.toNat_inj]
  exact Nat.one_le_iff_ne_zero

/-- What the cut to 32 bits must do to a number other than 0, to keep it if it fits and to leave 0
of it if it does not. -/
theorem cut_iff {pm : UInt64} (nonzero : pm ≠ 0) :
    ((pm.toNat < 2 ^ 32 → ¬pm.toUInt32 = 0 ∧ pm.toUInt32.toNat = pm.toNat) ∧
        (¬pm.toNat < 2 ^ 32 → pm.toUInt32 = 0)) ↔
      pm.toNat < 2 ^ 32 ∨ pm.toNat % 2 ^ 32 = 0 := by
  by_cases small : pm.toNat < 2 ^ 32
  · have kept : pm.toUInt32.toNat = pm.toNat := by
      rw [UInt64.toNat_toUInt32, Nat.mod_eq_of_lt small]
    have something : ¬pm.toUInt32 = 0 := by
      intro nothing
      rw [nothing] at kept
      exact nonzero (UInt64.toNat_inj.mp kept.symm)
    exact iff_of_true ⟨fun _ => ⟨something, kept⟩, fun large => absurd small large⟩ (.inl small)
  · rw [or_iff_right small, ← toUInt32_eq_zero_iff]
    constructor
    · rintro ⟨-, refused⟩
      exact refused small
    · intro nothing
      exact ⟨fun fits => absurd fits small, fun _ => nothing⟩

/-- **When `-p` is faithful**: the text is a number other than 0 that fits in 32 bits, or whose
last 32 bits are 0. A text without a number is a port mask with every bit set, and so is 0; a
number that does not fit is cut off. -/
theorem portmask_faithful_iff {env : Environment} {s before : Settings}
    {argv : List (List Char)} {pre post : List Opt} {arg : List Char}
    (options : (getoptLong env.posixlyCorrect argv).1 = pre ++ .portmask arg :: post)
    (reached : handleAll env s pre = .goesOn before) :
    Faithful env s argv before (.portmask arg) (IsPortmask arg)
        (fun v after => after.globals.portMask.toNat = v.toNat) ↔
      ∃ v, hexNumeral arg = some v ∧ v ≠ 0 ∧ (v.toNat < 2 ^ 32 ∨ v.toNat % 2 ^ 32 = 0) := by
  rw [faithful_turn_iff options reached rfl, storedPortmask]
  simp only [IsPortmask]
  cases value : hexNumeral arg with
  | none =>
      constructor
      · rintro ⟨-, refused⟩
        have noValue : ¬∃ v, (none : Option UInt64) = some v ∧ 1 ≤ v ∧ v.toNat < 2 ^ 32 := by
          rintro ⟨v, present, -⟩
          cases present
        exact absurd (refused noValue) (by decide)
      · rintro ⟨v, present, -⟩
        cases present
  | some pm =>
      simp only [Option.some.injEq, exists_eq_left', and_imp, forall_eq', one_le_iff]
      by_cases zero : pm = 0
      · simp only [if_pos zero]
        refine iff_of_false ?_ fun good => good.1 zero
        rintro ⟨-, refused⟩
        exact absurd (refused fun inRange => inRange.1 zero) (by decide)
      · simp only [ne_eq, zero, not_false_eq_true, forall_true_left, true_and]
        exact cut_iff zero

/-- `-p 3` is faithful on the command line of the program. -/
theorem portmask_faithful_three :
    Faithful twice initial (words ["-p", "3"]) initial (.portmask ['3']) (IsPortmask ['3'])
      (fun v after => after.globals.portMask.toNat = v.toNat) := by
  have options : (getoptLong twice.posixlyCorrect (words ["-p", "3"])).1 =
      [] ++ .portmask ['3'] :: [] := by decide
  refine (portmask_faithful_iff options rfl).mpr ⟨3, ?_, ?_, ?_⟩
  · decide
  · decide
  · exact .inl (by decide)

/-- `-p 0` is accepted. -/
theorem portmask_zero_accepted :
    ¬∀ (env : Environment) (s before : Settings) (argv : List (List Char)) (pre post : List Opt)
      (arg : List Char),
      (getoptLong env.posixlyCorrect argv).1 = pre ++ .portmask arg :: post →
      handleAll env s pre = .goesOn before →
        Faithful env s argv before (.portmask arg) (IsPortmask arg)
          (fun v after => after.globals.portMask.toNat = v.toNat) := by
  intro claim
  have options : (getoptLong twice.posixlyCorrect (words ["-p", "0"])).1 =
      [] ++ .portmask ['0'] :: [] := by decide
  have faithful := claim twice initial initial _ [] [] ['0'] options rfl
  have accepted : ∃ after, handle twice initial (.portmask ['0']) = .goesOn after := ⟨_, rfl⟩
  obtain ⟨v, value, positive, -⟩ := faithful.accepted.mp accepted
  have zero : hexNumeral ['0'] = some 0 := by decide
  obtain rfl := Option.some.inj (zero.symm.trans value)
  exact absurd positive (by decide)

/-! ## `-T` and `--stats_t` -/

/-- The timer periods: decimal numbers from 0 on, below `MAX_TIMER_PERIOD`. -/
def IsPeriod (arg : List Char) (v : ℤ) : Prop :=
  decimalNumeral arg = some v ∧ 0 ≤ v ∧ v < maxTimerPeriod

/-- The last 32 bits of a number out of range are a number in range. -/
def Wraps (v : ℤ) : Prop :=
  ¬(0 ≤ v ∧ v < maxTimerPeriod) ∧ 0 ≤ v.bmod (2 ^ 32) ∧ v.bmod (2 ^ 32) < maxTimerPeriod

/-- A number in range is read as it is. -/
theorem parseTimerPeriod_of_isPeriod {arg : List Char} {v : ℤ} (period : IsPeriod arg v) :
    parseTimerPeriod arg = v := by
  obtain ⟨value, nonneg, small⟩ := period
  have kept : v.bmod (2 ^ 32) = v := by
    unfold maxTimerPeriod at small
    exact Int.bmod_eq_of_le (by omega) (by omega)
  rw [parseTimerPeriod_eq, value]
  simp only [kept]
  exact if_neg (Int.not_le.mpr small)

/-- A text that is no number in range is read as a number that is not negative exactly if its
number wraps. -/
theorem parseTimerPeriod_nonneg_iff {arg : List Char} (noPeriod : ¬∃ v, IsPeriod arg v) :
    0 ≤ parseTimerPeriod arg ↔ ∃ v, decimalNumeral arg = some v ∧ Wraps v := by
  rw [parseTimerPeriod_eq]
  cases value : decimalNumeral arg with
  | none => exact iff_of_false (by decide) nofun
  | some v =>
      have outside : ¬(0 ≤ v ∧ v < maxTimerPeriod) := fun inside => noPeriod ⟨v, value, inside⟩
      simp only [Option.some.injEq, exists_eq_left', Wraps, outside, not_false_eq_true, true_and]
      by_cases large : v.bmod (2 ^ 32) ≥ maxTimerPeriod
      · rw [if_pos large]
        exact iff_of_false (by decide) fun inside => Int.not_lt.mpr large inside.2
      · rw [if_neg large, and_iff_left (Int.not_le.mp large)]

/-- A thousand times the `int` fits in an `int` exactly if it does for the number in the text. -/
theorem period_fits_iff (arg : List Char) :
    ¬parseTimerPeriod arg * 1000 < -2 ^ 31 ↔
      ∀ v, decimalNumeral arg = some v → -2 ^ 31 ≤ v.bmod (2 ^ 32) * 1000 := by
  rw [parseTimerPeriod_eq, Int.not_lt]
  cases value : decimalNumeral arg with
  | none => exact iff_of_true (by decide) nofun
  | some v =>
      simp only [Option.some.injEq, forall_eq']
      by_cases large : v.bmod (2 ^ 32) ≥ maxTimerPeriod
      · rw [if_pos large]
        have period : (0 : ℤ) ≤ maxTimerPeriod := by decide
        exact iff_of_true (by decide) (by omega)
      · rw [if_neg large]

section Timers

variable {env : Environment} {s before : Settings} {argv argv' : List (List Char)}
  {pre pre' post post' : List Opt} {arg : List Char}

/-- An option that is a period of some unit: it fails when what `parse_timer_period` returns is
negative, unless it overflows then. -/
theorem period_faithful_iff {o : Opt} {overflows : Prop} [Decidable overflows]
    {failed accepted : Settings} {Stored : ℤ → Settings → Prop}
    (options : (getoptLong env.posixlyCorrect argv).1 = pre ++ o :: post)
    (reached : handleAll env s pre = .goesOn before)
    (turn : handle env before o =
      if overflows then .undefined
      else if parseTimerPeriod arg < 0 then .fails failed else .goesOn accepted)
    (overflowing : overflows → parseTimerPeriod arg < 0)
    (stored : ∀ v, IsPeriod arg v → Stored v accepted) :
    Faithful env s argv before o (IsPeriod arg) Stored ↔
      ¬overflows ∧ ∀ v, decimalNumeral arg = some v → ¬Wraps v := by
  have nonneg {v : ℤ} (period : IsPeriod arg v) : ¬parseTimerPeriod arg < 0 := by
    rw [parseTimerPeriod_of_isPeriod period]
    exact Int.not_lt.mpr period.2.1
  by_cases overflow : overflows
  · have noValue : ¬∃ v, IsPeriod arg v := by
      rintro ⟨v, period⟩
      exact nonneg period (overflowing overflow)
    rw [if_pos overflow] at turn
    rw [faithful_iff options reached, turn]
    refine iff_of_false ?_ fun good => good.1 overflow
    rintro ⟨-, refused⟩
    obtain ⟨after, failed⟩ := refused noValue
    cases failed
  · rw [if_neg overflow] at turn
    have inside : ∀ v, IsPeriod arg v → ¬parseTimerPeriod arg < 0 ∧ Stored v accepted :=
      fun v period => ⟨nonneg period, stored v period⟩
    rw [faithful_turn_iff options reached turn, and_iff_right inside, and_iff_right overflow]
    constructor
    · intro refused v value wraps
      have noValue : ¬∃ v, IsPeriod arg v := by
        rintro ⟨v', period⟩
        obtain rfl := Option.some.inj (period.1.symm.trans value)
        exact wraps.1 period.2
      exact Int.not_le.mpr (refused noValue)
        ((parseTimerPeriod_nonneg_iff noValue).mpr ⟨v, value, wraps⟩)
    · intro keeps noValue
      by_contra negative
      obtain ⟨v, value, wraps⟩ :=
        (parseTimerPeriod_nonneg_iff noValue).mp (Int.not_lt.mp negative)
      exact keeps v value wraps

/-- The timers hold the exact product for a number in range. -/
theorem ticks_period {v : ℤ} (period : IsPeriod arg v) (factor : ℤ) (positive : 0 ≤ factor)
    (small : factor ≤ 1000) :
    ticks (parseTimerPeriod arg * factor) = v * factor * timerMillisecond := by
  rw [parseTimerPeriod_of_isPeriod period]
  have nonneg := Int.mul_nonneg period.2.1 positive
  have below : v * factor ≤ 86400 * 1000 :=
    Int.mul_le_mul (Int.le_of_lt period.2.2) small positive (by decide)
  exact ticks_eq (by omega) (by omega)

/-- **When the timers are faithful**. For `--stats_t` the number must not wrap; for `-T` a
thousand times the `int` that it is read as must fit in an `int`, too. -/
theorem timers_faithful_iff
    (options : (getoptLong env.posixlyCorrect argv).1 = pre ++ .timer arg :: post)
    (reached : handleAll env s pre = .goesOn before)
    (options' : (getoptLong env.posixlyCorrect argv').1 = pre' ++ .long .statsTimer arg :: post')
    (reached' : handleAll env s pre' = .goesOn before) :
    (Faithful env s argv before (.timer arg) (IsPeriod arg)
        (fun v after => after.timerPeriod = v * 1000 * timerMillisecond) ↔
      ∀ v, decimalNumeral arg = some v → -2 ^ 31 ≤ v.bmod (2 ^ 32) * 1000 ∧ ¬Wraps v) ∧
    (Faithful env s argv' before (.long .statsTimer arg) (IsPeriod arg)
        (fun v after => after.timerStats = v * timerMillisecond) ↔
      ∀ v, decimalNumeral arg = some v → ¬Wraps v) := by
  constructor
  · have negative : parseTimerPeriod arg * 1000 < -2 ^ 31 → parseTimerPeriod arg < 0 := by omega
    have exact : ∀ v, IsPeriod arg v →
        ticks (parseTimerPeriod arg * 1000) = v * 1000 * timerMillisecond :=
      fun v period => ticks_period period 1000 (by decide) (by decide)
    rw [period_faithful_iff options reached (handle_timer env before arg) negative exact,
      period_fits_iff, ← forall_and]
    exact forall_congr' fun v => imp_and.symm
  · have turn := (handle_statsTimer env before arg).trans
      (if_neg not_false : (if False then Handled.undefined else _) = _).symm
    have exact : ∀ v, IsPeriod arg v → ticks (parseTimerPeriod arg) = v * timerMillisecond := by
      intro v period
      have product := ticks_period period 1 (by decide) (by decide)
      rwa [Int.mul_one, Int.mul_one] at product
    rw [period_faithful_iff options' reached' turn False.elim exact, and_iff_right not_false]

end Timers

/-- The text 5 is a period for both timers. -/
theorem timers_faithful_five :
    Faithful twice initial (words ["-T", "5"]) initial (.timer ['5']) (IsPeriod ['5'])
        (fun v after => after.timerPeriod = v * 1000 * timerMillisecond) ∧
      Faithful twice initial (words ["--stats_t", "5"]) initial (.long .statsTimer ['5'])
        (IsPeriod ['5']) (fun v after => after.timerStats = v * timerMillisecond) := by
  have options : (getoptLong twice.posixlyCorrect (words ["-T", "5"])).1 =
      [] ++ .timer ['5'] :: [] := by decide
  have options' : (getoptLong twice.posixlyCorrect (words ["--stats_t", "5"])).1 =
      [] ++ .long .statsTimer ['5'] :: [] := by decide
  obtain ⟨period, stats⟩ := timers_faithful_iff (s := initial) options rfl options' rfl
  have value : decimalNumeral ['5'] = some 5 := by decide
  rw [period, stats, value]
  simp only [Option.some.injEq, forall_eq', Wraps]
  decide

/-- `-T 4294967301` is accepted, as 5. -/
theorem timer_cut_accepted :
    ¬∀ (env : Environment) (s before : Settings) (argv : List (List Char)) (pre post : List Opt)
      (arg : List Char),
      (getoptLong env.posixlyCorrect argv).1 = pre ++ .timer arg :: post →
      handleAll env s pre = .goesOn before →
        Faithful env s argv before (.timer arg) (IsPeriod arg)
          (fun v after => after.timerPeriod = v * 1000 * timerMillisecond) := by
  intro claim
  have options : (getoptLong twice.posixlyCorrect (words ["-T", "4294967301"])).1 =
      [] ++ .timer "4294967301".toList :: [] := by decide
  have faithful := claim twice initial initial _ [] [] _ options rfl
  have read : parseTimerPeriod "4294967301".toList = 5 := by decide
  have value : decimalNumeral "4294967301".toList = some 4294967301 := by decide
  have accepted : ∃ after, handle twice initial (.timer "4294967301".toList) = .goesOn after := by
    rw [handle_timer, read]
    exact ⟨_, rfl⟩
  obtain ⟨v, value', -, small⟩ := faithful.accepted.mp accepted
  obtain rfl := Option.some.inj (value.symm.trans value')
  exact absurd small (by decide)

end DdosFiltering.Config
