import DdosFiltering.Datapath.Runs
import Mathlib.Data.List.Induction

/-!
# How many packets wait

An iteration of either loop empties the transmit table when the timer is due, adds the packets that
the engine lets pass, and sends the table whenever it is full. So how many packets wait
behind a run depends on the time stamps and on how many packets pass in each iteration
(`Tick`), and not on the NIC: it is the number of packets that have passed since the timer was
last due, without the full bursts (`Bridge.bridgeMainLoop_txLength`,
`BridgeOptimized.bridgeLoopOptimized_txLength`).
-/

set_option autoImplicit false

namespace DdosFiltering.Datapath

variable {σ : Type}

/-! ## Ticks -/

/-- The timer test. `prev_tsc` is 0 in all iterations. -/
def TimerDue (tscHz curTsc : UInt64) : Prop := curTsc - prevTsc > drainTsc tscHz

instance (tscHz curTsc : UInt64) : Decidable (TimerDue tscHz curTsc) :=
  inferInstanceAs (Decidable (_ > _))

/-- What an iteration does to the number of packets that wait: the time stamp counter, and how many
packets pass. -/
structure Tick where
  curTsc : UInt64
  passed : ℕ

namespace Tick

/-- How many packets wait behind the iteration. -/
def after (tscHz : UInt64) (waiting : ℕ) (tick : Tick) : ℕ :=
  ((if TimerDue tscHz tick.curTsc then 0 else waiting) + tick.passed) % maxPktBurst

end Tick

/-- How many packets pass. -/
def passedCount (ticks : List Tick) : ℕ := (ticks.map Tick.passed).sum

/-- The ticks from the last one on at which the timer is due, or all when it never is. -/
def sinceDue (tscHz : UInt64) : List Tick → List Tick
  | [] => []
  | tick :: ticks =>
      if ticks.any fun tick => TimerDue tscHz tick.curTsc then
        sinceDue tscHz ticks
      else
        tick :: ticks

/-- One tick more. -/
theorem sinceDue_concat (tscHz : UInt64) (ticks : List Tick) (tick : Tick) :
    sinceDue tscHz (ticks ++ [tick]) =
      if TimerDue tscHz tick.curTsc then [tick] else sinceDue tscHz ticks ++ [tick] := by
  induction ticks with
  | nil =>
      simp [sinceDue]
  | cons first ticks inductionHypothesis =>
      rw [List.cons_append, sinceDue, sinceDue, inductionHypothesis, List.any_append]
      by_cases due : TimerDue tscHz tick.curTsc
      · simp [due]
      · by_cases earlier : (ticks.any fun tick => decide (TimerDue tscHz tick.curTsc)) = true
        · simp [due, earlier]
        · simp [due, earlier]

/-- **The packets that wait** are those that have passed since the timer was last due, without the
full bursts. -/
theorem foldl_after (tscHz : UInt64) (ticks : List Tick) :
    ticks.foldl (Tick.after tscHz) 0 = passedCount (sinceDue tscHz ticks) % maxPktBurst := by
  induction ticks using List.reverseRecOn with
  | nil => rfl
  | append_singleton ticks tick inductionHypothesis =>
      rw [List.foldl_append, List.foldl_cons, List.foldl_nil, inductionHypothesis, Tick.after,
        sinceDue_concat]
      by_cases due : TimerDue tscHz tick.curTsc
      · simp [due, passedCount]
      · simp [due, passedCount]

/-! ## The length of the table -/

theorem drain_txLength (driver : TxDriver) (tscHz curTsc : UInt64) (s : State σ) :
    (Bridge.drain driver tscHz curTsc s).txLength =
      if TimerDue tscHz curTsc then 0 else s.txLength := by
  unfold Bridge.drain
  by_cases due : curTsc - prevTsc > drainTsc tscHz
  · have now : TimerDue tscHz curTsc := due
    simp only [if_pos due, if_pos now]
    by_cases waiting : s.txLength ≠ 0
    · rw [if_pos waiting]
      rfl
    · rw [if_neg waiting]
      exact not_not.mp waiting
  · have notNow : ¬TimerDue tscHz curTsc := due
    simp only [if_neg due, if_neg notNow]

/-- Settling a packet adds it to the table if it passes. -/
theorem settle_txLength {driver : TxDriver} {s t : State σ} {m : RteMbuf} {drop : Bool}
    (room : s.Room) (settled : settle driver s m drop = some t) :
    t.txLength = (s.txLength + if drop then 0 else 1) % maxPktBurst := by
  have inside : s.txLength < maxPktBurst := room
  cases drop with
  | true =>
      obtain rfl := Option.some.inj settled
      exact (Nat.mod_eq_of_lt inside).symm
  | false =>
      have sameLength : (s.countRxBytes m).txLength = s.txLength := rfl
      simp only [settle, Bridge.bridgeAddPacket, sameLength, dif_pos inside, Bool.false_eq_true,
        if_false] at settled ⊢
      by_cases full : s.txLength + 1 = maxPktBurst
      · rw [if_pos full] at settled
        obtain rfl := Option.some.inj settled
        rw [full, Nat.mod_self]
        rfl
      · rw [if_neg full] at settled
        obtain rfl := Option.some.inj settled
        have room' : s.txLength + 1 < maxPktBurst := Nat.lt_of_le_of_ne inside full
        exact (Nat.mod_eq_of_lt room').symm

theorem settleAll_txLength {driver : TxDriver} {judged : List (RteMbuf × Bool)} {s t : State σ}
    (room : s.Room) (settled : settleAll driver s judged = some t) :
    t.txLength = (s.txLength + (letPass judged).length) % maxPktBurst := by
  induction judged generalizing s with
  | nil =>
      obtain rfl := Option.some.inj settled
      exact (Nat.mod_eq_of_lt room).symm
  | cons j judged inductionHypothesis =>
      obtain ⟨m, drop⟩ := j
      rw [settleAll_cons] at settled
      obtain ⟨u, once, rest⟩ := Option.bind_eq_some_iff.mp settled
      have one := settle_txLength room once
      have room' : u.Room := by
        rw [State.Room, one]
        exact Nat.mod_lt _ (by decide)
      rw [inductionHypothesis room' rest, one, Nat.mod_add_mod, Nat.add_assoc]
      cases drop with
      | true => simp [letPass]
      | false => simp [letPass, Nat.add_comm]

/-- The table has room in the middle of an iteration. -/
theorem State.Room.drain {s : State σ} (room : s.Room) (driver : TxDriver)
    (tscHz curTsc : UInt64) : (Bridge.drain driver tscHz curTsc s).Room := by
  rw [State.Room, drain_txLength]
  split
  · decide
  · exact room

/-- What draining the table and settling a burst do to the length of the table. -/
theorem tick_txLength {driver : TxDriver} {tscHz curTsc : UInt64} {port queue : UInt8}
    {pkts : List RteMbuf} {judged : List (RteMbuf × Bool) × σ} {s t : State σ} (room : s.Room)
    (settled : settleJudged driver (((Bridge.drain driver tscHz curTsc s).log
      (.rxBurst port queue pkts)).countRx pkts.length) judged = some t) :
    t.txLength = Tick.after tscHz s.txLength ⟨curTsc, (letPass judged.1).length⟩ := by
  have drained := drain_txLength driver tscHz curTsc s
  have inside := room.drain driver tscHz curTsc
  generalize Bridge.drain driver tscHz curTsc s = u at settled drained inside
  obtain ⟨v, all, rfl⟩ := Option.map_eq_some_iff.mp settled
  obtain ⟨sameLength, -⟩ := u.countRx_log (.rxBurst port queue pkts) pkts.length
  have inside' : ((u.log (.rxBurst port queue pkts)).countRx pkts.length).Room := by
    rw [State.Room, sameLength]
    exact inside
  have length := settleAll_txLength inside' all
  rw [sameLength, drained] at length
  exact length

/-! ## `bridge_main_loop` -/

namespace Bridge

/-- The ticks of a run. -/
def ticks (engine : Engine σ) : σ → List Input → List Tick
  | _, [] => []
  | e, input :: inputs =>
      let judged := judgeWith (Engine.verdict engine) e input.rx.pkts
      ⟨input.curTsc, (letPass judged.1).length⟩ :: ticks engine judged.2 inputs

theorem ticks_cons (engine : Engine σ) (e : σ) (input : Input) (inputs : List Input) :
    ticks engine e (input :: inputs) =
      ⟨input.curTsc, (letPass (judgeWith (Engine.verdict engine) e input.rx.pkts).1).length⟩ ::
        ticks engine (judgeWith (Engine.verdict engine) e input.rx.pkts).2 inputs := rfl

theorem ticks_take (engine : Engine σ) (e : σ) (inputs : List Input) (i : ℕ) :
    ticks engine e (inputs.take i) = (ticks engine e inputs).take i := by
  induction inputs generalizing e i with
  | nil => simp [ticks]
  | cons input inputs inductionHypothesis =>
      cases i with
      | zero => rfl
      | succ i => simp only [List.take_succ_cons, ticks, inductionHypothesis]

theorem ticks_curTsc (engine : Engine σ) (e : σ) (inputs : List Input) :
    (ticks engine e inputs).map Tick.curTsc = inputs.map Input.curTsc := by
  induction inputs generalizing e with
  | nil => rfl
  | cons input inputs inductionHypothesis =>
      simp only [ticks, List.map_cons, inductionHypothesis]

theorem iteration_txLength {driver : TxDriver} {engine : Engine σ} {tscHz : UInt64}
    {s t : State σ} {input : Input} (room : s.Room)
    (once : iteration driver engine tscHz s input = some t) :
    t.txLength = Tick.after tscHz s.txLength ⟨input.curTsc,
      (letPass (judgeWith (Engine.verdict engine) s.engine input.rx.pkts).1).length⟩ := by
  have sameEngine := drain_engine driver tscHz input.curTsc s room
  rw [iteration, processBurst_eq, (State.countRx_log _ _ 0).2, sameEngine] at once
  exact tick_txLength room once

/-- **The length of the table behind a run of `bridge_main_loop`.** -/
theorem bridgeMainLoop_txLength {driver : TxDriver} {engine : Engine σ} {tscHz : UInt64}
    {inputs : List Input} {base : BridgePortStatistics} {judged : List (RteMbuf × Bool)}
    {s t : State σ} (boundary : Boundary base s judged)
    (run : bridgeMainLoop driver engine tscHz s inputs = some t) :
    t.txLength = (ticks engine s.engine inputs).foldl (Tick.after tscHz) s.txLength := by
  induction inputs generalizing s judged with
  | nil =>
      obtain rfl := Option.some.inj run
      rfl
  | cons input inputs inductionHypothesis =>
      obtain ⟨s', once, next, engineState⟩ :=
        iteration_boundary boundary driver engine tscHz input
      rw [bridgeMainLoop, List.foldlM_cons, once] at run
      rw [inductionHypothesis next run, iteration_txLength boundary.room once, engineState,
        ticks_cons, List.foldl_cons]

/-- Behind a run from an empty table. -/
theorem txLength_eq_passedCount {driver : TxDriver} {engine : Engine σ} {tscHz : UInt64}
    {inputs : List Input} {s t : State σ} (fresh : s.Fresh)
    (run : bridgeMainLoop driver engine tscHz s inputs = some t) :
    t.txLength =
      passedCount (sinceDue tscHz (ticks engine s.engine inputs)) % maxPktBurst := by
  rw [bridgeMainLoop_txLength (.fresh fresh) run, fresh.length, foldl_after]

end Bridge

/-! ## `bridge_loop_optimized` -/

namespace BridgeOptimized

/-- The ticks of iterations that do not read STOP. -/
def ticks (engine4 : Engine4 σ) (engine : Engine1 σ) : σ → List Input → List Tick
  | _, [] => []
  | e, input :: inputs =>
      let judged := judgeGroups engine4 engine e input.rx.pkts
      ⟨input.curTsc, (letPass judged.1).length⟩ :: ticks engine4 engine judged.2 inputs

theorem ticks_cons (engine4 : Engine4 σ) (engine : Engine1 σ) (e : σ) (input : Input)
    (inputs : List Input) :
    ticks engine4 engine e (input :: inputs) =
      ⟨input.curTsc, (letPass (judgeGroups engine4 engine e input.rx.pkts).1).length⟩ ::
        ticks engine4 engine (judgeGroups engine4 engine e input.rx.pkts).2 inputs := rfl

theorem ticks_take (engine4 : Engine4 σ) (engine : Engine1 σ) (e : σ) (inputs : List Input)
    (i : ℕ) :
    ticks engine4 engine e (inputs.take i) = (ticks engine4 engine e inputs).take i := by
  induction inputs generalizing e i with
  | nil => simp [ticks]
  | cons input inputs inductionHypothesis =>
      cases i with
      | zero => rfl
      | succ i => simp only [List.take_succ_cons, ticks, inductionHypothesis]

theorem ticks_curTsc (engine4 : Engine4 σ) (engine : Engine1 σ) (e : σ) (inputs : List Input) :
    (ticks engine4 engine e inputs).map Tick.curTsc = inputs.map Input.curTsc := by
  induction inputs generalizing e with
  | nil => rfl
  | cons input inputs inductionHypothesis =>
      simp only [ticks, List.map_cons, inductionHypothesis]

theorem iteration_txLength {driver : TxDriver} {engine4 : Engine4 σ} {engine : Engine1 σ}
    {tscHz : UInt64} {s t : State σ} {input : Input} (room : s.Room)
    (goesOn : input.cmd ≠ some .stop)
    (once : iteration driver engine4 engine tscHz s input = some (.running, t)) :
    t.txLength = Tick.after tscHz s.txLength ⟨input.curTsc,
      (letPass (judgeGroups engine4 engine s.engine input.rx.pkts).1).length⟩ := by
  obtain ⟨sameLength, sameEngine⟩ := echoed_same s input
  have room' : (echoed s input).Room := by
    rw [State.Room, sameLength]
    exact room
  rw [iteration_eq driver engine4 engine tscHz s goesOn] at once
  obtain ⟨u, settled, same⟩ := Option.map_eq_some_iff.mp once
  obtain ⟨-, rfl⟩ := Prod.mk.inj same
  rw [tick_txLength room' settled, drain_engine driver tscHz input.curTsc _ room', sameLength,
    sameEngine]

/-- **The length of the table behind a run of `bridge_loop_optimized`**, up to its return. -/
theorem bridgeLoopOptimized_txLength {driver : TxDriver} {engine4 : Engine4 σ}
    {engine : Engine1 σ} {tscHz : UInt64} {inputs : List Input} {base : BridgePortStatistics}
    {judged : List (RteMbuf × Bool)} {status : Status} {s t : State σ}
    (boundary : Boundary base s judged)
    (run : bridgeLoopOptimized driver engine4 engine tscHz s inputs = some (status, t)) :
    t.txLength =
      (ticks engine4 engine s.engine (served inputs)).foldl (Tick.after tscHz) s.txLength := by
  induction inputs generalizing s judged with
  | nil =>
      obtain ⟨-, rfl⟩ := Prod.mk.inj (Option.some.inj run)
      rfl
  | cons input inputs inductionHypothesis =>
      by_cases stop : input.cmd = some .stop
      · rw [bridgeLoopOptimized, iteration, stop] at run
        obtain ⟨-, rfl⟩ := Prod.mk.inj (Option.some.inj run)
        rw [served, if_pos stop]
        rfl
      · obtain ⟨s', once, next, engineState⟩ :=
          iteration_boundary boundary driver engine4 engine tscHz input stop
        rw [bridgeLoopOptimized, once] at run
        rw [inductionHypothesis next run, iteration_txLength boundary.room stop once, engineState,
          served, if_neg stop, ticks_cons, List.foldl_cons]

/-- Behind a run from an empty table. -/
theorem txLength_eq_passedCount {driver : TxDriver} {engine4 : Engine4 σ} {engine : Engine1 σ}
    {tscHz : UInt64} {inputs : List Input} {status : Status} {s t : State σ} (fresh : s.Fresh)
    (run : bridgeLoopOptimized driver engine4 engine tscHz s inputs = some (status, t)) :
    t.txLength =
      passedCount (sinceDue tscHz (ticks engine4 engine s.engine (served inputs))) %
        maxPktBurst := by
  rw [bridgeLoopOptimized_txLength (.fresh fresh) run, fresh.length, foldl_after]

end BridgeOptimized

end DdosFiltering.Datapath
