import DdosFiltering.Datapath.Occupancy
import DdosFiltering.Foundation.Spacing

/-!
# How often the timer drains

Both loops send the transmit table when `diff_tsc` is more than `drain_tsc`, which is about
`BURST_TX_DRAIN_US`, and neither sets `prev_tsc` behind that. So the test holds in every
iteration once the counter has passed `drain_tsc`, and every iteration that finds packets sends
them. Between two such iterations packets leave in full bursts only (`RespectsPeriod.full`),
but the iterations themselves can be any number of cycles apart. They are more than a period
apart exactly when the packets arrive accordingly (`drains_respect_period_iff`).
-/

set_option autoImplicit false

namespace DdosFiltering.Datapath

open Foundation

variable {σ : Type}

/-! ## Transmissions -/

/-- A transmission of a full table, or an event that is no transmission. -/
def DatapathEvent.IsFull : DatapathEvent → Prop
  | .txBurst _ _ pkts _ => pkts.length = maxPktBurst
  | _ => True

/-- From `s` to `t` packets leave in full bursts only. -/
def SendsFull (s t : State σ) : Prop :=
  ∃ events, t.trace = s.trace ++ events ∧ ∀ e ∈ events, e.IsFull

namespace SendsFull

theorem refl (s : State σ) : SendsFull s s :=
  ⟨[], (List.append_nil _).symm, List.forall_mem_nil _⟩

theorem trans {s t u : State σ} (front : SendsFull s t) (back : SendsFull t u) :
    SendsFull s u := by
  obtain ⟨events, added, full⟩ := front
  obtain ⟨more, addedMore, fullMore⟩ := back
  refine ⟨events ++ more, by rw [addedMore, added, List.append_assoc], ?_⟩
  intro e member
  rcases List.mem_append.mp member with earlier | later
  · exact full e earlier
  · exact fullMore e later

/-- A step that records one event. -/
theorem of_log {s t : State σ} {e : DatapathEvent} (added : t.trace = s.trace ++ [e])
    (full : e.IsFull) : SendsFull s t :=
  ⟨[e], added, List.forall_mem_singleton.mpr full⟩

/-- Only the trace counts. -/
theorem of_trace {s s' t t' : State σ} (sends : SendsFull s t) (start : s'.trace = s.trace)
    (final : t'.trace = t.trace) : SendsFull s' t' := by
  obtain ⟨events, added, full⟩ := sends
  exact ⟨events, by rw [final, added, start], full⟩

end SendsFull

/-- Sending a full table. -/
theorem bridgeSendBurst_sendsFull (driver : TxDriver) (s : State σ) :
    SendsFull s (Bridge.bridgeSendBurst driver s maxPktBurst) := by
  have full := s.length_txSlots (Nat.le_refl maxPktBurst)
  rw [bridgeSendBurst_eq driver s (Nat.le_refl maxPktBurst)]
  refine ⟨_, rfl, ?_⟩
  intro e member
  rcases List.mem_cons.mp member with rfl | freed
  · exact full
  · obtain ⟨m, -, rfl⟩ := List.mem_map.mp freed
    trivial

/-- Settling a packet transmits nothing unless the table is full. -/
theorem settle_sendsFull {driver : TxDriver} {s t : State σ} {m : RteMbuf} {drop : Bool}
    (settled : settle driver s m drop = some t) : SendsFull s t := by
  cases drop with
  | true =>
      obtain rfl := Option.some.inj settled
      exact .of_log (e := .freeFiltered m) rfl trivial
  | false =>
      obtain ⟨⟨ret, u⟩, added, rfl⟩ := Option.map_eq_some_iff.mp settled
      unfold Bridge.bridgeAddPacket at added
      by_cases inside : (s.countRxBytes m).txLength < maxPktBurst
      · by_cases full : (s.countRxBytes m).txLength + 1 = maxPktBurst
        · simp only [dif_pos inside, if_pos full] at added
          obtain ⟨-, rfl⟩ := Prod.mk.inj (Option.some.inj added)
          have sent := bridgeSendBurst_sendsFull driver
            ((s.countRxBytes m).storeMbuf (s.countRxBytes m).txLength inside m)
          exact sent.of_trace rfl rfl
        · simp only [dif_pos inside, if_neg full] at added
          obtain ⟨-, rfl⟩ := Prod.mk.inj (Option.some.inj added)
          exact (SendsFull.refl s).of_trace rfl rfl
      · simp only [dif_neg inside] at added
        cases added

theorem settleAll_sendsFull {driver : TxDriver} {judged : List (RteMbuf × Bool)} {s t : State σ}
    (settled : settleAll driver s judged = some t) : SendsFull s t := by
  induction judged generalizing s with
  | nil =>
      obtain rfl := Option.some.inj settled
      exact .refl s
  | cons j judged inductionHypothesis =>
      rw [settleAll_cons] at settled
      obtain ⟨u, once, rest⟩ := Option.bind_eq_some_iff.mp settled
      exact (settle_sendsFull once).trans (inductionHypothesis rest)

/-- Receiving and settling a burst. -/
theorem burst_sendsFull {driver : TxDriver} {port queue : UInt8} {pkts : List RteMbuf}
    {judged : List (RteMbuf × Bool) × σ} {s t : State σ}
    (settled : settleJudged driver ((s.log (.rxBurst port queue pkts)).countRx pkts.length)
      judged = some t) : SendsFull s t := by
  obtain ⟨u, all, rfl⟩ := Option.map_eq_some_iff.mp settled
  have received : SendsFull s (s.log (.rxBurst port queue pkts)) := .of_log rfl trivial
  exact received.trans ((settleAll_sendsFull all).of_trace rfl rfl)

/-! ## The timer tests of a run

`tests i s curTsc` says that iteration `i` comes to its timer test in the state `s` at the
reading `curTsc`.
-/

section

variable {driver : TxDriver} {tscHz : UInt64} {tests : ℕ → State σ → UInt64 → Prop}

/-- The timer makes an iteration send the table. -/
def TimerFlush (tscHz curTsc : UInt64) (s : State σ) : Prop :=
  TimerDue tscHz curTsc ∧ s.txLength ≠ 0

/-- Iteration `i` sends the table because of the timer. -/
def FlushesAt (tscHz : UInt64) (tests : ℕ → State σ → UInt64 → Prop) (i : ℕ) : Prop :=
  ∃ s curTsc, tests i s curTsc ∧ TimerFlush tscHz curTsc s

/-- More than `drain_tsc` cycles lie between two readings. -/
def MoreThanDrain (tscHz a b : UInt64) : Prop := drainTsc tscHz < b - a

instance (tscHz a b : UInt64) : Decidable (MoreThanDrain tscHz a b) :=
  inferInstanceAs (Decidable (_ < _))

/-- A later reading is farther away. -/
theorem MoreThanDrain.farther {tscHz a c b : UInt64} (first : a ≤ c) (second : c ≤ b)
    (far : MoreThanDrain tscHz a c) : MoreThanDrain tscHz a b := by
  have whole := UInt64.le_trans first second
  refine UInt64.lt_of_lt_of_le far ?_
  rw [UInt64.le_iff_toNat_le, UInt64.toNat_sub_of_le _ _ first, UInt64.toNat_sub_of_le _ _ whole]
  exact Nat.sub_le_sub_right (UInt64.le_iff_toNat_le.mp second) _

/-- Successive flushes of the timer are more than `drain_tsc` cycles apart, and between them
packets leave in full bursts only. -/
structure RespectsPeriod (driver : TxDriver) (tscHz : UInt64)
    (tests : ℕ → State σ → UInt64 → Prop) (readings : List UInt64) : Prop where
  apart : Apart (MoreThanDrain tscHz) (FlushesAt tscHz tests) readings
  full : ∀ i j s t a b, i < j → tests i s a → tests j t b →
    (∀ k, i < k → k < j → ¬FlushesAt tscHz tests k) → SendsFull (Bridge.drain driver tscHz a s) t

/-- The timer is due in iteration `i`, and full bursts are not all that has passed since it was
last due. -/
def LeftOver (tscHz : UInt64) (ticks : List Tick) (i : ℕ) : Prop :=
  ∃ tick, ticks[i]? = some tick ∧ TimerDue tscHz tick.curTsc ∧
    ¬maxPktBurst ∣ passedCount (sinceDue tscHz (ticks.take i))

/-- What the timer tests of both loops have in common. -/
structure TestsOf (driver : TxDriver) (tscHz : UInt64) (tests : ℕ → State σ → UInt64 → Prop)
    (ticks : List Tick) : Prop where
  /-- A run is determined by what it reads. -/
  unique : ∀ {i s t a b}, tests i s a → tests i t b → s = t ∧ a = b
  /-- Behind the test of an iteration only full bursts leave, up to the next test. -/
  step : ∀ {i t b}, tests (i + 1) t b →
    ∃ s a, tests i s a ∧ SendsFull (Bridge.drain driver tscHz a s) t
  /-- There is a test for every tick. -/
  readings : ∀ i a, (∃ s, tests i s a) ↔ (ticks.map Tick.curTsc)[i]? = some a
  length : ∀ {i s a}, tests i s a →
    s.txLength = passedCount (sinceDue tscHz (ticks.take i)) % maxPktBurst

/-- The test leaves the state alone unless the table is sent. -/
theorem drain_eq_self {curTsc : UInt64} {s : State σ} (idle : ¬TimerFlush tscHz curTsc s) :
    Bridge.drain driver tscHz curTsc s = s := by
  unfold Bridge.drain
  by_cases due : curTsc - prevTsc > drainTsc tscHz
  · by_cases waiting : s.txLength ≠ 0
    · exact absurd ⟨due, waiting⟩ idle
    · simp only [if_pos due, if_neg waiting]
  · simp only [if_neg due]

namespace TestsOf

variable {ticks : List Tick} (run : TestsOf driver tscHz tests ticks)
include run

/-- **From a timer test to a later one, without a flush between them.** -/
theorem sendsFull {i : ℕ} {s : State σ} {a : UInt64} (first : tests i s a) {j : ℕ} (later : i < j)
    {t : State σ} {b : UInt64} (second : tests j t b)
    (none_between : ∀ k, i < k → k < j → ¬FlushesAt tscHz tests k) :
    SendsFull (Bridge.drain driver tscHz a s) t := by
  induction j, later using Nat.le_induction generalizing t b with
  | base =>
      obtain ⟨s', a', test, sends⟩ := run.step second
      obtain ⟨rfl, rfl⟩ := run.unique first test
      exact sends
  | succ j later inductionHypothesis =>
      obtain ⟨u, c, test, sends⟩ := run.step second
      have idle : ¬TimerFlush tscHz c u := by
        intro flush
        exact none_between j later (Nat.lt_succ_self j) ⟨u, c, test, flush⟩
      rw [drain_eq_self idle] at sends
      have front := inductionHypothesis test fun k after before =>
        none_between k after (Nat.lt_succ_of_lt before)
      exact front.trans sends

/-- **The timer sends the table where packets are left over.** -/
theorem flushesAt_iff (i : ℕ) : FlushesAt tscHz tests i ↔ LeftOver tscHz ticks i := by
  constructor
  · rintro ⟨s, a, test, due, waiting⟩
    have atTick := (run.readings i a).mp ⟨s, test⟩
    rw [List.getElem?_map] at atTick
    obtain ⟨tick, present, rfl⟩ := Option.map_eq_some_iff.mp atTick
    rw [run.length test] at waiting
    exact ⟨tick, present, due, mt Nat.dvd_iff_mod_eq_zero.mp waiting⟩
  · rintro ⟨tick, present, due, left⟩
    have atTick : (ticks.map Tick.curTsc)[i]? = some tick.curTsc := by
      rw [List.getElem?_map, present, Option.map_some]
    obtain ⟨s, test⟩ := (run.readings i tick.curTsc).mpr atTick
    refine ⟨s, tick.curTsc, test, due, ?_⟩
    rw [run.length test]
    exact mt Nat.dvd_iff_mod_eq_zero.mpr left

/-- **When the period is respected.** -/
theorem respectsPeriod_iff {readings : List UInt64} (sorted : readings.Pairwise (· ≤ ·))
    (short : ticks.length ≤ readings.length) :
    RespectsPeriod driver tscHz tests readings ↔
      AllApart (MoreThanDrain tscHz) (LeftOver tscHz ticks) readings := by
  have same : FlushesAt tscHz tests = LeftOver tscHz ticks :=
    funext fun i => propext (run.flushesAt_iff i)
  have inside : ∀ i, FlushesAt tscHz tests i → i < readings.length := by
    intro i flushes
    obtain ⟨tick, present, -⟩ := (run.flushesAt_iff i).mp flushes
    obtain ⟨within, -⟩ := List.getElem?_eq_some_iff.mp present
    exact Nat.lt_of_lt_of_le within short
  have apart_iff : Apart (MoreThanDrain tscHz) (FlushesAt tscHz tests) readings ↔
      AllApart (MoreThanDrain tscHz) (FlushesAt tscHz tests) readings :=
    apart_iff_allApart UInt64.le_refl MoreThanDrain.farther sorted inside
  rw [← same, ← apart_iff]
  constructor
  · intro respected
    exact respected.apart
  · intro apart
    refine ⟨apart, ?_⟩
    intro i j s t a b later first second none_between
    exact run.sendsFull first later second none_between

/-- Packets left over in two successive iterations that are near each other. -/
theorem not_respectsPeriod {readings : List UInt64} {i : ℕ} {a b : UInt64}
    (first : LeftOver tscHz ticks i) (second : LeftOver tscHz ticks (i + 1))
    (atFirst : readings[i]? = some a) (atSecond : readings[i + 1]? = some b)
    (near : ¬MoreThanDrain tscHz a b) : ¬RespectsPeriod driver tscHz tests readings := by
  intro respected
  have nothing_between : ∀ k, i < k → k < i + 1 → ¬FlushesAt tscHz tests k :=
    fun k after before => absurd before (Nat.not_lt.mpr after)
  exact near (respected.apart i (i + 1) a b (Nat.lt_succ_self i) ((run.flushesAt_iff i).mpr first)
    ((run.flushesAt_iff (i + 1)).mpr second) nothing_between atFirst atSecond)

end TestsOf

end

/-! ## `bridge_main_loop` -/

/-- The element before an element of a list. -/
theorem getElem?_of_succ {α : Type*} {l : List α} {i : ℕ} {b : α} (present : l[i + 1]? = some b) :
    ∃ a, l[i]? = some a := by
  obtain ⟨inside, -⟩ := List.getElem?_eq_some_iff.mp present
  exact ⟨_, List.getElem?_eq_getElem (Nat.lt_of_succ_lt inside)⟩

namespace Bridge

/-- Iteration `i` of a run comes to its timer test. -/
def TimerTest (driver : TxDriver) (engine : Engine σ) (tscHz : UInt64) (s₀ : State σ)
    (inputs : List Input) (i : ℕ) (s : State σ) (curTsc : UInt64) : Prop :=
  ∃ input, inputs[i]? = some input ∧ input.curTsc = curTsc ∧
    bridgeMainLoop driver engine tscHz s₀ (inputs.take i) = some s

theorem iteration_sendsFull {driver : TxDriver} {engine : Engine σ} {tscHz : UInt64}
    {s t : State σ} {input : Input} (once : iteration driver engine tscHz s input = some t) :
    SendsFull (drain driver tscHz input.curTsc s) t := by
  rw [iteration, processBurst_eq] at once
  exact burst_sendsFull once

theorem testsOf (driver : TxDriver) (engine : Engine σ) (tscHz : UInt64) {s₀ : State σ}
    (fresh : s₀.Fresh) (inputs : List Input) :
    TestsOf driver tscHz (TimerTest driver engine tscHz s₀ inputs)
      (ticks engine s₀.engine inputs) where
  unique := by
    rintro i s t a b ⟨input, present, rfl, run⟩ ⟨input', present', rfl, run'⟩
    obtain rfl := Option.some.inj (present.symm.trans present')
    exact ⟨Option.some.inj (run.symm.trans run'), rfl⟩
  step := by
    rintro i t b ⟨input, present, rfl, run⟩
    obtain ⟨earlier, before⟩ := getElem?_of_succ present
    rw [List.take_add_one, before, bridgeMainLoop, List.foldlM_append] at run
    obtain ⟨s, front, last⟩ := Option.bind_eq_some_iff.mp run
    have once : iteration driver engine tscHz s earlier = some t := by
      simpa using last
    exact ⟨s, earlier.curTsc, ⟨earlier, before, rfl, front⟩, iteration_sendsFull once⟩
  readings := by
    intro i a
    rw [ticks_curTsc, List.getElem?_map, Option.map_eq_some_iff]
    constructor
    · rintro ⟨s, input, present, same, -⟩
      exact ⟨input, present, same⟩
    · rintro ⟨input, present, same⟩
      obtain ⟨s, run, -⟩ :=
        bridgeMainLoop_boundary (.fresh fresh) driver engine tscHz (inputs.take i)
      exact ⟨s, input, present, same, run⟩
  length := by
    rintro i s a ⟨input, present, rfl, run⟩
    rw [txLength_eq_passedCount fresh run, ticks_take]

end Bridge

/-! ## `bridge_loop_optimized` -/

namespace BridgeOptimized

/-- Iteration `i` of a run comes to its timer test. A command is sent back before it. -/
def TimerTest (driver : TxDriver) (engine4 : Engine4 σ) (engine : Engine1 σ) (tscHz : UInt64)
    (s₀ : State σ) (inputs : List Input) (i : ℕ) (s : State σ) (curTsc : UInt64) : Prop :=
  ∃ input u, inputs[i]? = some input ∧ input.curTsc = curTsc ∧ input.cmd ≠ some .stop ∧
    bridgeLoopOptimized driver engine4 engine tscHz s₀ (inputs.take i) = some (.running, u) ∧
    s = echoed u input

theorem iteration_sendsFull {driver : TxDriver} {engine4 : Engine4 σ} {engine : Engine1 σ}
    {tscHz : UInt64} {s t : State σ} {input : Input} (goesOn : input.cmd ≠ some .stop)
    (once : iteration driver engine4 engine tscHz s input = some (.running, t)) :
    SendsFull (Bridge.drain driver tscHz input.curTsc (echoed s input)) t := by
  rw [iteration_eq driver engine4 engine tscHz s goesOn] at once
  obtain ⟨u, settled, same⟩ := Option.map_eq_some_iff.mp once
  obtain ⟨-, rfl⟩ := Prod.mk.inj same
  exact burst_sendsFull settled

theorem echoed_sendsFull (s : State σ) (input : Input) : SendsFull s (echoed s input) := by
  unfold echoed
  cases input.cmd with
  | none => exact .refl s
  | some c => exact .of_log rfl trivial

theorem testsOf (driver : TxDriver) (engine4 : Engine4 σ) (engine : Engine1 σ) (tscHz : UInt64)
    {s₀ : State σ} (fresh : s₀.Fresh) (inputs : List Input) :
    TestsOf driver tscHz (TimerTest driver engine4 engine tscHz s₀ inputs)
      (ticks engine4 engine s₀.engine (served inputs)) where
  unique := by
    rintro i s t a b ⟨input, u, present, rfl, -, run, rfl⟩ ⟨input', u', present', rfl, -, run', rfl⟩
    obtain rfl := Option.some.inj (present.symm.trans present')
    obtain ⟨-, rfl⟩ := Prod.mk.inj (Option.some.inj (run.symm.trans run'))
    exact ⟨rfl, rfl⟩
  step := by
    rintro i t b ⟨input, u, present, rfl, -, run, rfl⟩
    obtain ⟨earlier, before⟩ := getElem?_of_succ present
    rw [List.take_add_one, before] at run
    obtain ⟨s, front, once⟩ := bridgeLoopOptimized_concat run
    have goesOn := (iteration_running_iff once).mp rfl
    exact ⟨_, _, ⟨earlier, s, before, rfl, goesOn, front, rfl⟩,
      (iteration_sendsFull goesOn once).trans (echoed_sendsFull u input)⟩
  readings := by
    intro i a
    rw [ticks_curTsc, List.getElem?_map, Option.map_eq_some_iff]
    constructor
    · rintro ⟨s, input, u, present, same, goesOn, run, -⟩
      exact ⟨input, served_getElem?.mpr ⟨present, goesOn, (running_iff run).mp rfl⟩, same⟩
    · rintro ⟨input, serves, same⟩
      obtain ⟨present, goesOn, before⟩ := served_getElem?.mp serves
      obtain ⟨status, u, run, -⟩ := bridgeLoopOptimized_boundary (.fresh fresh) driver engine4
        engine tscHz (inputs.take i)
      obtain rfl := (running_iff run).mpr before
      exact ⟨_, input, u, present, same, goesOn, run, rfl⟩
  length := by
    rintro i s a ⟨input, u, present, rfl, -, run, rfl⟩
    rw [(echoed_same u input).1, txLength_eq_passedCount fresh run, served_take, ticks_take]

end BridgeOptimized

/-! ## The period -/

/-- **When the timer drains respect their period.** In every run of either loop from an empty
table, at readings that do not decrease, exactly if any two iterations that come past
`drain_tsc` with packets left over are more than `drain_tsc` cycles apart. -/
theorem drains_respect_period_iff (driver : TxDriver) (tscHz : UInt64) {s₀ : State σ}
    (fresh : s₀.Fresh) :
    (∀ (engine : Engine σ) (inputs : List Bridge.Input),
      (inputs.map Bridge.Input.curTsc).Pairwise (· ≤ ·) →
      (RespectsPeriod driver tscHz (Bridge.TimerTest driver engine tscHz s₀ inputs)
          (inputs.map Bridge.Input.curTsc) ↔
        AllApart (MoreThanDrain tscHz) (LeftOver tscHz (Bridge.ticks engine s₀.engine inputs))
          (inputs.map Bridge.Input.curTsc))) ∧
    (∀ (engine4 : Engine4 σ) (engine : Engine1 σ) (inputs : List BridgeOptimized.Input),
      (inputs.map BridgeOptimized.Input.curTsc).Pairwise (· ≤ ·) →
      (RespectsPeriod driver tscHz
          (BridgeOptimized.TimerTest driver engine4 engine tscHz s₀ inputs)
          (inputs.map BridgeOptimized.Input.curTsc) ↔
        AllApart (MoreThanDrain tscHz)
          (LeftOver tscHz (BridgeOptimized.ticks engine4 engine s₀.engine
            (BridgeOptimized.served inputs)))
          (inputs.map BridgeOptimized.Input.curTsc))) := by
  constructor
  · intro engine inputs sorted
    have ofTicks := congrArg List.length (Bridge.ticks_curTsc engine s₀.engine inputs)
    rw [List.length_map] at ofTicks
    exact (Bridge.testsOf driver engine tscHz fresh inputs).respectsPeriod_iff sorted
      (Nat.le_of_eq ofTicks)
  · intro engine4 engine inputs sorted
    have ofTicks := congrArg List.length
      (BridgeOptimized.ticks_curTsc engine4 engine s₀.engine (BridgeOptimized.served inputs))
    rw [List.length_map, List.length_map] at ofTicks
    refine (BridgeOptimized.testsOf driver engine4 engine tscHz fresh inputs).respectsPeriod_iff
      sorted ?_
    rw [List.length_map, ofTicks]
    exact BridgeOptimized.length_served_le inputs

/-- One packet in each of three iterations, 101 cycles apart, where `drain_tsc` is 100. -/
theorem drains_respect_period_iff_three :
    let driver : TxDriver := ⟨fun _ pkts => pkts.length, fun _ _ => Nat.le_refl _⟩
    let burst : RxBurst := ⟨[⟨1, 0, 60, []⟩], by decide⟩
    RespectsPeriod driver 1000000
        (Bridge.TimerTest driver (fun e _ _ => (0, e)) 1000000 (State.initial ())
          [⟨101, burst⟩, ⟨202, burst⟩, ⟨303, burst⟩]) [101, 202, 303] ∧
      RespectsPeriod driver 1000000
        (BridgeOptimized.TimerTest driver (fun e _ ret => (ret, e)) (fun e _ ret => (ret, e))
          1000000 (State.initial ())
          [⟨101, none, burst⟩, ⟨202, none, burst⟩, ⟨303, none, burst⟩]) [101, 202, 303] := by
  intro driver burst
  have far : [101, 202, 303].Pairwise (MoreThanDrain 1000000) := by decide
  have period := drains_respect_period_iff driver 1000000 (State.Fresh.initial ())
  exact ⟨(period.1 _ [⟨101, burst⟩, ⟨202, burst⟩, ⟨303, burst⟩] (by decide)).mpr
      (.of_pairwise far),
    (period.2 _ _ [⟨101, none, burst⟩, ⟨202, none, burst⟩, ⟨303, none, burst⟩] (by decide)).mpr
      (.of_pairwise far)⟩

/-- One packet in each of three iterations, one cycle apart: the second and the third send the
table. -/
theorem every_iteration_drains :
    let driver : TxDriver := ⟨fun _ pkts => pkts.length, fun _ _ => Nat.le_refl _⟩
    let burst : RxBurst := ⟨[⟨1, 0, 60, []⟩], by decide⟩
    ¬RespectsPeriod driver 1000000
        (Bridge.TimerTest driver (fun e _ _ => (0, e)) 1000000 (State.initial ())
          [⟨101, burst⟩, ⟨102, burst⟩, ⟨103, burst⟩]) [101, 102, 103] ∧
      ¬RespectsPeriod driver 1000000
        (BridgeOptimized.TimerTest driver (fun e _ ret => (ret, e)) (fun e _ ret => (ret, e))
          1000000 (State.initial ())
          [⟨101, none, burst⟩, ⟨102, none, burst⟩, ⟨103, none, burst⟩]) [101, 102, 103] := by
  intro driver burst
  have plain := Bridge.testsOf driver (fun e _ _ => (0, e)) 1000000 (State.Fresh.initial ())
    [⟨101, burst⟩, ⟨102, burst⟩, ⟨103, burst⟩]
  have optimized := BridgeOptimized.testsOf driver (fun e _ ret => (ret, e))
    (fun e _ ret => (ret, e)) 1000000 (State.Fresh.initial ())
    [⟨101, none, burst⟩, ⟨102, none, burst⟩, ⟨103, none, burst⟩]
  constructor
  · exact plain.not_respectsPeriod (i := 1) ⟨_, rfl, by decide, by decide⟩
      ⟨_, rfl, by decide, by decide⟩ rfl rfl (by decide)
  · exact optimized.not_respectsPeriod (i := 1) ⟨_, rfl, by decide, by decide⟩
      ⟨_, rfl, by decide, by decide⟩ rfl rfl (by decide)

end DdosFiltering.Datapath
