import DdosFiltering.Datapath.Runs
import DdosFiltering.Foundation.WrappingCounter
import DdosFiltering.Libc

/-!
# The modulo engine

`engine_misc.c`: `modulo_init` reads the divisor from the arguments of the configuration, and
`modulo_engine` counts its calls in a static `int` and lets a packet pass when the count is
a multiple of the divisor. Nothing but `modulo_init` looks at the divisor, and it accepts 0
(`divides_iff`); and the count wraps, so that the divisor decides how long every `m`-th packet
passes (`passesOneIn_iff`).
-/

set_option autoImplicit false

namespace DdosFiltering.Engine

open Datapath Foundation

/-! ## The functions of `engine_misc.c` -/

/-- `atoi` as it is in the library: what `strtol` returns, in an `int`. -/
def atoiInt (text : List Char) : Int32 := Int32.ofInt (strtol text).1

/-- `modulo_init`: what it returns, and the static variable `modulo` behind it. -/
def moduloInit (args : List Char) : ℤ × Int32 :=
  let modulo := atoiInt args
  if modulo < 0 then (-1, modulo) else (0, modulo)

/-- `modulo_engine`: what it returns, and the static counter `n` behind it. `none` when the
remainder is not defined: the divisor is 0, or the quotient does not fit in an `int`. -/
def moduloEngine (modulo n : Int32) : Option (ℤ × Int32) :=
  let n := n + 1
  if modulo = 0 ∨ modulo = -1 ∧ n = Int32.minValue then
    none
  else
    some (if n % modulo = 0 then 0 else -1, n)

/-- So many calls of `modulo_engine` one after the other: what they return, and the counter. -/
def moduloCalls (modulo : Int32) : ℕ → Int32 → Option (List ℤ × Int32)
  | 0, n => some ([], n)
  | calls + 1, n => do
      let (ret, n) ← moduloEngine modulo n
      let (rets, n) ← moduloCalls modulo calls n
      some (ret :: rets, n)

/-- `modulo_engine` as the engine of `bridge_main_loop`. Its state is the counter, or `none` behind
a call that is not defined. -/
def moduloFilter (modulo : Int32) : Engine (Option Int32) := fun n _ _ =>
  match n.bind (moduloEngine modulo) with
  | some (ret, n) => (ret, some n)
  | none => (0, none)

section Verdicts

variable {modulo n : Int32}

/-- Behind a call that is not defined, no packet is judged any more. -/
theorem judgeWith_none (modulo : Int32) (pkts : List RteMbuf) :
    (judgeWith (Engine.verdict (moduloFilter modulo)) none pkts).2 = none := by
  induction pkts with
  | nil => rfl
  | cons m pkts inductionHypothesis => exact inductionHypothesis

/-- The loop judges the packets by what as many calls return. -/
theorem judgeWith_of_calls {pkts : List RteMbuf} {rets : List ℤ} {n' : Int32}
    (calls : moduloCalls modulo pkts.length n = some (rets, n')) :
    judgeWith (Engine.verdict (moduloFilter modulo)) (some n) pkts =
      (pkts.zip (rets.map fun ret => decide (ret ≠ 0)), some n') := by
  induction pkts generalizing n rets with
  | nil =>
      obtain ⟨rfl, rfl⟩ := Prod.mk.inj (Option.some.inj calls)
      rfl
  | cons m pkts inductionHypothesis =>
      simp only [List.length_cons, moduloCalls, Option.bind_eq_bind, Option.bind_eq_some_iff,
        Option.some.injEq, Prod.mk.injEq] at calls
      obtain ⟨⟨ret, next⟩, once, ⟨others, last⟩, rest, rfl, rfl⟩ := calls
      have judged : Engine.verdict (moduloFilter modulo) (some n) m =
          (decide (ret ≠ 0), some next) := by
        simp only [Engine.verdict, moduloFilter, Option.bind_some, once]
      simp only [judgeWith, judged, inductionHypothesis rest, List.map_cons, List.zip_cons_cons]

/-- The loop comes to a call that is not defined exactly if as many calls do. -/
theorem judgeWith_eq_none_iff {pkts : List RteMbuf} :
    (judgeWith (Engine.verdict (moduloFilter modulo)) (some n) pkts).2 = none ↔
      moduloCalls modulo pkts.length n = none := by
  cases calls : moduloCalls modulo pkts.length n with
  | some result =>
      rw [judgeWith_of_calls calls]
      exact iff_of_false (Option.some_ne_none _) (Option.some_ne_none _)
  | none =>
      refine iff_of_true ?_ rfl
      induction pkts generalizing n with
      | nil => cases calls
      | cons m pkts inductionHypothesis =>
          simp only [judgeWith, Engine.verdict, moduloFilter, Option.bind_some]
          cases once : moduloEngine modulo n with
          | none => exact judgeWith_none modulo pkts
          | some result =>
              obtain ⟨ret, next⟩ := result
              refine inductionHypothesis ?_
              simp only [List.length_cons, moduloCalls, once, Option.bind_eq_bind,
                Option.bind_some, Option.bind_eq_none_iff] at calls
              refine Option.eq_none_iff_forall_not_mem.mpr ?_
              intro result member
              cases calls result member

end Verdicts

/-! ## Division by zero -/

/-- With a divisor from 1 on, all calls are defined. -/
theorem moduloCalls_ne_none {modulo : Int32} (nonzero : modulo ≠ 0) (notMinusOne : modulo ≠ -1)
    (calls : ℕ) (n : Int32) : moduloCalls modulo calls n ≠ none := by
  induction calls generalizing n with
  | zero => exact Option.some_ne_none _
  | succ calls inductionHypothesis =>
      have once : moduloEngine modulo n =
          some (if (n + 1) % modulo = 0 then 0 else -1, n + 1) := by
        simp [moduloEngine, nonzero, notMinusOne]
      obtain ⟨⟨rets, last⟩, rest⟩ := Option.ne_none_iff_exists'.mp (inductionHypothesis (n + 1))
      simp only [moduloCalls, once, rest, Option.bind_eq_bind, Option.bind_some]
      exact Option.some_ne_none _

/-- The first call divides by the divisor. -/
theorem moduloCalls_zero_eq_none (calls : ℕ) (n : Int32) :
    moduloCalls 0 (calls + 1) n = none := by
  simp [moduloCalls, moduloEngine]

theorem moduloInit_returns_iff {args : List Char} {modulo : Int32} :
    moduloInit args = (0, modulo) ↔ modulo = atoiInt args ∧ ¬modulo < 0 := by
  unfold moduloInit
  by_cases negative : atoiInt args < 0
  · simp only [if_pos negative, Prod.mk.injEq]
    exact iff_of_false (by rintro ⟨⟨⟩⟩) (by rintro ⟨rfl, nonneg⟩; exact nonneg negative)
  · simp only [if_neg negative, Prod.mk.injEq, true_and]
    constructor
    · rintro rfl
      exact ⟨rfl, negative⟩
    · exact fun same => same.1.symm

/-- **When the engine never divides by zero**, in the runs of `bridge_main_loop` behind a call of
`modulo_init` that returns 0: the arguments are read as another number than 0, or there is
no packet. -/
theorem divides_iff {args : List Char} {modulo n : Int32}
    (accepted : moduloInit args = (0, modulo)) {driver : TxDriver} {tscHz : UInt64}
    {s t : State (Option Int32)} (fresh : s.Fresh) (counter : s.engine = some n)
    {inputs : List Bridge.Input}
    (run : Bridge.bridgeMainLoop driver (moduloFilter modulo) tscHz s inputs = some t) :
    t.engine ≠ none ↔ atoiInt args ≠ 0 ∨ Bridge.arrivals inputs = [] := by
  obtain ⟨rfl, nonneg⟩ := moduloInit_returns_iff.mp accepted
  rw [Bridge.bridgeMainLoop_engine (.fresh fresh) run, counter, ne_eq, judgeWith_eq_none_iff]
  by_cases zero : atoiInt args = 0
  · rw [zero, or_iff_right (not_not.mpr rfl)]
    cases Bridge.arrivals inputs with
    | nil => exact iff_of_true nofun rfl
    | cons m pkts => exact iff_of_false (not_not.mpr (moduloCalls_zero_eq_none _ n)) nofun
  · have notMinusOne : atoiInt args ≠ -1 := fun minusOne => nonneg (minusOne ▸ by decide)
    exact iff_of_true (moduloCalls_ne_none zero notMinusOne _ n) (.inl zero)

/-- One packet of sixty bytes. -/
def onePacket : List Bridge.Input := [⟨0, ⟨[⟨1, 0, 60, []⟩], by decide⟩⟩]

/-- With the argument 3, the engine gets over a packet. -/
theorem divides_iff_three :
    ∃ t, Bridge.bridgeMainLoop ⟨fun _ _ => 0, fun _ _ => Nat.zero_le _⟩
        (moduloFilter (atoiInt ['3'])) 1000000 (State.initial (some 0)) onePacket = some t ∧
      t.engine ≠ none := by
  obtain ⟨t, run, -⟩ := Bridge.bridgeMainLoop_boundary
    (.fresh (State.Fresh.initial (some 0)))
    ⟨fun _ _ => 0, fun _ _ => Nat.zero_le _⟩ (moduloFilter (atoiInt ['3'])) 1000000 onePacket
  have accepted : moduloInit ['3'] = (0, atoiInt ['3']) := by decide
  exact ⟨t, run, (divides_iff accepted (.initial _) rfl run).mpr (.inl (by decide))⟩

/-- Without an argument, the first packet is a division by zero. -/
theorem no_argument_divides :
    ¬∀ (args : List Char) (modulo n : Int32) (driver : TxDriver) (tscHz : UInt64)
      (s t : State (Option Int32)) (inputs : List Bridge.Input),
      moduloInit args = (0, modulo) → s.Fresh → s.engine = some n →
      Bridge.bridgeMainLoop driver (moduloFilter modulo) tscHz s inputs = some t →
        t.engine ≠ none := by
  intro claim
  have boundary := Boundary.fresh (State.Fresh.initial (some (0 : Int32)))
  obtain ⟨t, run, -⟩ := Bridge.bridgeMainLoop_boundary boundary
    ⟨fun _ _ => 0, fun _ _ => Nat.zero_le _⟩ (moduloFilter 0) 1000000 onePacket
  refine claim [] 0 0 _ _ _ t onePacket (by decide) (.initial _) rfl run ?_
  rw [Bridge.bridgeMainLoop_engine boundary run]
  exact judgeWith_eq_none_iff.mpr (moduloCalls_zero_eq_none 0 0)

/-! ## One packet in `m` -/

section Counting

variable {m : Int32}

/-- A positive divisor as a number. -/
theorem toInt_of_pos (positive : 0 < m) :
    ∃ d : ℕ, m.toInt = d ∧ 0 < d ∧ d ≤ 2 ^ 31 ∧ m ≠ 0 ∧ m ≠ -1 := by
  have above : 0 < m.toInt := Int32.lt_iff_toInt_lt.mp positive
  have below := m.toInt_lt
  refine ⟨m.toInt.toNat, ?_, ?_, ?_, ?_, ?_⟩
  · omega
  · omega
  · omega
  · rintro rfl
    exact absurd positive (by decide)
  · rintro rfl
    exact absurd positive (by decide)

/-- What the call of number `k` returns. -/
def returned (d k : ℕ) : ℤ := if (d : ℤ) ∣ (k : ℤ).bmod (2 ^ 32) then 0 else -1

/-- One call: the counter is the balanced residue of the number of the call. -/
theorem moduloEngine_eq (positive : 0 < m) {d : ℕ} (divisor : m.toInt = d) {n : Int32} {k : ℕ}
    (counter : n.toInt = (k : ℤ).bmod (2 ^ 32)) :
    moduloEngine m n = some (returned d (k + 1), n + 1) ∧
      (n + 1).toInt = ((k + 1 : ℕ) : ℤ).bmod (2 ^ 32) := by
  obtain ⟨-, -, -, -, nonzero, notMinusOne⟩ := toInt_of_pos positive
  have next : (n + 1).toInt = ((k + 1 : ℕ) : ℤ).bmod (2 ^ 32) := by
    rw [Int32.toInt_add, counter, Int32.toInt_one, Int.bmod_add_bmod]
    rfl
  refine ⟨?_, next⟩
  have divides : (n + 1) % m = 0 ↔ (d : ℤ) ∣ ((k + 1 : ℕ) : ℤ).bmod (2 ^ 32) := by
    rw [← next, ← divisor, Int.dvd_iff_tmod_eq_zero, ← Int32.toInt_mod, ← Int32.toInt_zero]
    exact Int32.toInt_inj.symm
  simp only [moduloEngine, nonzero, notMinusOne, false_and, or_false, if_false, returned]
  rw [if_congr divides rfl rfl]

/-- The calls from number `k + 1` on, by induction on how many they are. -/
theorem moduloCalls_eq (positive : 0 < m) {d : ℕ} (divisor : m.toInt = d) (calls : ℕ) {n : Int32}
    {k : ℕ} (counter : n.toInt = (k : ℤ).bmod (2 ^ 32)) :
    ∃ last, moduloCalls m calls n =
      some ((List.range calls).map fun i => returned d (k + i + 1), last) := by
  induction calls generalizing n k with
  | zero => exact ⟨n, rfl⟩
  | succ calls inductionHypothesis =>
      obtain ⟨once, next⟩ := moduloEngine_eq positive divisor counter
      obtain ⟨last, rest⟩ := inductionHypothesis next
      have shift : (List.range calls).map (fun i => returned d (k + 1 + i + 1)) =
          (List.range calls).map ((fun i => returned d (k + i + 1)) ∘ Nat.succ) := by
        refine List.map_congr_left ?_
        intro i _
        rw [Function.comp_apply, Nat.succ_eq_add_one, Nat.add_assoc k 1 i, Nat.add_comm 1 i]
      refine ⟨last, ?_⟩
      simp only [moduloCalls, once, rest, shift, Option.bind_eq_bind, Option.bind_some,
        List.range_succ_eq_map, List.map_cons, List.map_map, Nat.add_zero]

/-- As many packets pass as calls return 0. -/
theorem letPass_zip_length (pkts : List RteMbuf) (rets : List ℤ)
    (same : rets.length = pkts.length) :
    (letPass (pkts.zip (rets.map fun ret => decide (ret ≠ 0)))).length = rets.count 0 := by
  induction pkts generalizing rets with
  | nil =>
      obtain rfl := List.eq_nil_of_length_eq_zero same
      rfl
  | cons m pkts inductionHypothesis =>
      cases rets with
      | nil => cases same
      | cons ret rets =>
          have rest := inductionHypothesis rets (Nat.succ.inj same)
          simp only [letPass, List.length_map] at rest ⊢
          by_cases zero : ret = 0
          · subst zero
            simpa using rest
          · simpa [zero] using rest

/-- The multiples of `d` from 1 to `n`. -/
theorem count_multiples (d n : ℕ) :
    ((List.range n).map fun i => if d ∣ i + 1 then (0 : ℤ) else -1).count 0 = n / d := by
  induction n with
  | zero => rw [Nat.zero_div]; rfl
  | succ n inductionHypothesis =>
      rw [List.range_succ, List.map_append, List.count_append, inductionHypothesis, Nat.succ_div]
      by_cases multiple : d ∣ n + 1
      · simp [multiple]
      · simp [multiple]

/-- Every `m`-th packet of a run passes: the `k`-th call returns 0 exactly if `m` divides `k`, and
so many packets pass. -/
structure PassesOneIn (m : Int32) (inputs : List Bridge.Input) (rets : List ℤ) : Prop where
  calls : ∃ n, moduloCalls m (Bridge.arrivals inputs).length 0 = some (rets, n)
  returns : ∀ k ≥ 1, k ≤ (Bridge.arrivals inputs).length →
    (rets[k - 1]? = some 0 ↔ m.toInt ∣ (k : ℤ))
  passed : (letPass (Bridge.verdicts (moduloFilter m) (some 0) inputs)).length =
    (Bridge.arrivals inputs).length / m.toInt.toNat

/-- The results of the calls of a run are those of `returned`. -/
theorem calls_from_zero (positive : 0 < m) {d : ℕ} (divisor : m.toInt = d) (calls : ℕ) :
    ∃ last, moduloCalls m calls 0 =
      some ((List.range calls).map fun i => returned d (i + 1), last) := by
  have counter : (0 : Int32).toInt = ((0 : ℕ) : ℤ).bmod (2 ^ 32) := by decide
  obtain ⟨last, all⟩ := moduloCalls_eq positive divisor calls counter
  simp only [Nat.zero_add] at all
  exact ⟨last, all⟩

theorem returned_eq_zero_iff {d k : ℕ} : returned d k = 0 ↔ (d : ℤ) ∣ (k : ℤ).bmod (2 ^ 32) := by
  unfold returned
  split
  · rename_i divides
    exact iff_of_true rfl divides
  · rename_i divides
    exact iff_of_false (by decide) divides

/-- The result of the call of number `k` in a list of results. -/
theorem returned_getElem? {d k calls : ℕ} (first : k ≥ 1) (inside : k ≤ calls) :
    ((List.range calls).map fun i => returned d (i + 1))[k - 1]? = some 0 ↔
      (d : ℤ) ∣ (k : ℤ).bmod (2 ^ 32) := by
  rw [List.getElem?_map, List.getElem?_range (by omega), Option.map_some,
    Nat.sub_add_cancel first, Option.some.injEq]
  exact returned_eq_zero_iff

/-- When the counter tells the multiples, so many packets pass. -/
theorem passed_eq (positive : 0 < m) {d : ℕ} (divisor : m.toInt = d) (inputs : List Bridge.Input)
    (tells : ∀ k ≤ (Bridge.arrivals inputs).length,
      (d : ℤ) ∣ (k : ℤ).bmod (2 ^ 32) ↔ d ∣ k) :
    (letPass (Bridge.verdicts (moduloFilter m) (some 0) inputs)).length =
      (Bridge.arrivals inputs).length / d := by
  obtain ⟨last, all⟩ := calls_from_zero positive divisor (Bridge.arrivals inputs).length
  rw [Bridge.verdicts, judgeWith_of_calls all, letPass_zip_length _ _ (by simp),
    ← count_multiples]
  refine congrArg (List.count 0) (List.map_congr_left ?_)
  intro i inside
  exact if_congr (tells (i + 1) (List.mem_range.mp inside)) rfl rfl

/-- **How long one packet in `m` passes**: for ever when `m` divides the range of the counter, that
is, when it is a power of two, and otherwise up to the first call whose number the counter does
not tell. -/
theorem passesOneIn_iff (positive : 0 < m) (inputs : List Bridge.Input) :
    (∃ rets, PassesOneIn m inputs rets) ↔
      m.toInt.toNat ∣ 2 ^ 32 ∨
        (Bridge.arrivals inputs).length < firstWrong m.toInt.toNat (2 ^ 31) := by
  obtain ⟨d, divisor, above, below, -, -⟩ := toInt_of_pos positive
  obtain ⟨last, all⟩ := calls_from_zero positive divisor (Bridge.arrivals inputs).length
  have number : m.toInt.toNat = d := by rw [divisor, Int.toNat_natCast]
  have range : 2 * 2 ^ 31 = 2 ^ 32 := rfl
  have counter := wrapped_dvd_iff_upTo above below (n := (Bridge.arrivals inputs).length)
  rw [range] at counter
  rw [number, ← counter]
  constructor
  · rintro ⟨rets, passes⟩ k inside
    obtain ⟨last', calls⟩ := passes.calls
    obtain ⟨rfl, -⟩ := Prod.mk.inj (Option.some.inj (all.symm.trans calls))
    by_cases none : k = 0
    · subst none
      exact iff_of_true (by simp) (Nat.dvd_zero d)
    · have first := Nat.pos_of_ne_zero none
      have returns := passes.returns k first inside
      rw [returned_getElem? first inside, divisor, Int.natCast_dvd_natCast] at returns
      exact returns
  · intro tells
    refine ⟨_, ⟨last, all⟩, ?_, ?_⟩
    · intro k first inside
      rw [returned_getElem? first inside, divisor, Int.natCast_dvd_natCast]
      exact tells k inside
    · rw [number]
      exact passed_eq positive divisor inputs tells

/-- A full burst, so many times. -/
def fullBursts (bursts : ℕ) : List Bridge.Input :=
  List.replicate bursts ⟨0, ⟨List.replicate 64 ⟨1, 0, 60, []⟩, by decide⟩⟩

theorem arrivals_fullBursts (bursts : ℕ) :
    (Bridge.arrivals (fullBursts bursts)).length = bursts * 64 := by
  simp [Bridge.arrivals, fullBursts, List.length_flatMap]

/-- Every third packet of three full bursts passes. -/
theorem passesOneIn_iff_three :
    ∃ rets, PassesOneIn 3 (fullBursts 3) rets ∧
      (letPass (Bridge.verdicts (moduloFilter 3) (some 0) (fullBursts 3))).length = 64 := by
  have early : (Bridge.arrivals (fullBursts 3)).length <
      firstWrong (3 : Int32).toInt.toNat (2 ^ 31) := by
    rw [arrivals_fullBursts]
    decide
  obtain ⟨rets, passes⟩ := (passesOneIn_iff (by decide) (fullBursts 3)).mpr (.inr early)
  refine ⟨rets, passes, passes.passed.trans ?_⟩
  rw [arrivals_fullBursts]
  decide

/-- Packet 2147483649 is a multiple of 3, and the counter is -2147483647 there. -/
theorem wrapped_counter_drops :
    ¬∀ (m : Int32) (inputs : List Bridge.Input), 0 < m → ∃ rets, PassesOneIn m inputs rets := by
  intro claim
  obtain ⟨rets, passes⟩ := claim 3 (fullBursts (2 ^ 25 + 1)) (by decide)
  have divisor : (3 : Int32).toInt = (3 : ℕ) := by decide
  have long := arrivals_fullBursts (2 ^ 25 + 1)
  obtain ⟨last, all⟩ := calls_from_zero (by decide) divisor
    (Bridge.arrivals (fullBursts (2 ^ 25 + 1))).length
  obtain ⟨last', calls⟩ := passes.calls
  obtain ⟨rfl, -⟩ := Prod.mk.inj (Option.some.inj (all.symm.trans calls))
  have inside : 2147483649 ≤ (Bridge.arrivals (fullBursts (2 ^ 25 + 1))).length := by
    rw [long]
    decide
  have returns := passes.returns 2147483649 (by decide) inside
  rw [returned_getElem? (by decide) inside, divisor] at returns
  exact absurd (returns.mpr (by decide)) (by decide)

end Counting

end DdosFiltering.Engine
