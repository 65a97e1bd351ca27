import DdosFiltering.Datapath.Occupancy
import DdosFiltering.Datapath.Refinement

/-!
# Runs of the optimized loop refine runs of the plain one

`processBurst_refines` compares the two loops on one burst. `bridge_loop_optimized` also reads
commands, sends them back and returns at STOP; `bridge_main_loop` does none of this. Whatever
commands are read, the optimized loop makes the calls to the NIC and to the mbuf pool that the
plain loop makes on the bursts before the STOP, in the same order and with the same packets, and
between them it sends back the commands it has read, in their order (`loop_refines`).

Neither loop looks at what it has called before: an operation behind a longer trace records
the same events (`State.behind`).
-/

set_option autoImplicit false

namespace DdosFiltering.Datapath

variable {σ : Type}

/-! ## Operations behind a longer trace -/

namespace State

/-- The same state, with `earlier` events in front of its trace. -/
def behind (earlier : List DatapathEvent) (s : State σ) : State σ :=
  { s with trace := earlier ++ s.trace }

/-- The same state with nothing recorded. -/
def bare (s : State σ) : State σ := { s with trace := [] }

variable (earlier : List DatapathEvent) (s : State σ)

@[simp] theorem behind_trace : (s.behind earlier).trace = earlier ++ s.trace := rfl

@[simp] theorem behind_slaveConf : (s.behind earlier).slaveConf = s.slaveConf := rfl

@[simp] theorem bare_behind : (s.behind earlier).bare = s.bare := rfl

@[simp] theorem bare_log (e : DatapathEvent) : (s.log e).bare = s.bare := rfl

theorem behind_bare : s.bare.behind s.trace = s := by simp [behind, bare]

theorem behind_log (e : DatapathEvent) :
    (s.behind earlier).log e = (s.log e).behind earlier := by
  simp [behind, log]

theorem behind_transmitted (pkts : List RteMbuf) (n : ℕ) :
    (s.behind earlier).transmitted pkts n = (s.transmitted pkts n).behind earlier := by
  simp [behind, transmitted]

theorem behind_freeFiltered (m : RteMbuf) :
    (s.behind earlier).freeFiltered m = (s.freeFiltered m).behind earlier := by
  simp [behind, freeFiltered]

theorem behind_freeDropped (m : RteMbuf) :
    (s.behind earlier).freeDropped m = (s.freeDropped m).behind earlier := by
  simp [behind, freeDropped]

end State

open State

theorem foldl_freeDropped_behind (earlier : List DatapathEvent) (pkts : List RteMbuf)
    (s : State σ) :
    pkts.foldl freeDropped (s.behind earlier) = (pkts.foldl freeDropped s).behind earlier := by
  induction pkts generalizing s with
  | nil => rfl
  | cons m pkts inductionHypothesis =>
      rw [List.foldl_cons, List.foldl_cons, behind_freeDropped]
      exact inductionHypothesis (s.freeDropped m)

theorem bridgeSendBurst_behind (driver : TxDriver) (earlier : List DatapathEvent) (s : State σ)
    (n : ℕ) :
    Bridge.bridgeSendBurst driver (s.behind earlier) n =
      (Bridge.bridgeSendBurst driver s n).behind earlier := by
  have sameCalls : (s.behind earlier).txCalls = s.txCalls := rfl
  have sameSlots : (s.behind earlier).txSlots n = s.txSlots n := rfl
  unfold Bridge.bridgeSendBurst
  simp only [sameCalls, sameSlots, behind_transmitted]
  by_cases short : driver.accept s.txCalls (s.txSlots n) < n
  · simp only [if_pos short]
    exact foldl_freeDropped_behind earlier ((s.txSlots n).drop _)
      ((s.transmitted (s.txSlots n) (driver.accept s.txCalls (s.txSlots n))).countDropped _)
  · simp only [if_neg short]

theorem bridgeAddPacket_behind (driver : TxDriver) (earlier : List DatapathEvent) (s : State σ)
    (m : RteMbuf) :
    Bridge.bridgeAddPacket driver (s.behind earlier) m =
      (Bridge.bridgeAddPacket driver s m).map fun r => (r.1, r.2.behind earlier) := by
  have sameLength : (s.behind earlier).txLength = s.txLength := rfl
  unfold Bridge.bridgeAddPacket
  by_cases inside : s.txLength < maxPktBurst
  · by_cases full : s.txLength + 1 = maxPktBurst
    · simp only [sameLength, dif_pos inside, if_pos full]
      have send :=
        bridgeSendBurst_behind driver earlier (s.storeMbuf s.txLength inside m) maxPktBurst
      exact congrArg (fun t : State σ => some ((0 : ℤ), t.setLength 0)) send
    · simp only [sameLength, dif_pos inside, if_neg full]
      rfl
  · simp only [sameLength, dif_neg inside]
    rfl

theorem settle_behind (driver : TxDriver) (earlier : List DatapathEvent) (s : State σ)
    (m : RteMbuf) (drop : Bool) :
    settle driver (s.behind earlier) m drop =
      (settle driver s m drop).map (State.behind earlier) := by
  have counted : (s.behind earlier).countRxBytes m = (s.countRxBytes m).behind earlier := rfl
  unfold settle
  rw [counted]
  cases drop with
  | true => exact congrArg some (behind_freeFiltered earlier (s.countRxBytes m) m)
  | false =>
      simp only [Bool.false_eq_true, if_false]
      rw [bridgeAddPacket_behind]
      simp [Function.comp_def]

theorem settleAll_behind (driver : TxDriver) (earlier : List DatapathEvent)
    (judged : List (RteMbuf × Bool)) (s : State σ) :
    settleAll driver (s.behind earlier) judged =
      (settleAll driver s judged).map (State.behind earlier) := by
  induction judged generalizing s with
  | nil => rfl
  | cons j judged inductionHypothesis =>
      rw [settleAll_cons, settleAll_cons, settle_behind]
      cases settle driver s j.1 j.2 with
      | none => rfl
      | some t => exact inductionHypothesis t

/-- Processing a burst records the same events behind any trace. -/
theorem processBurst_behind (driver : TxDriver) (engine : Engine σ)
    (earlier : List DatapathEvent) (s : State σ) (pkts : List RteMbuf) :
    Bridge.processBurst driver engine (s.behind earlier) pkts =
      (Bridge.processBurst driver engine s pkts).map (State.behind earlier) := by
  rw [Bridge.processBurst_eq, Bridge.processBurst_eq, settleJudged, settleJudged]
  have counted : (s.behind earlier).countRx pkts.length =
      (s.countRx pkts.length).behind earlier := rfl
  rw [counted, settleAll_behind, Option.map_map, Option.map_map]
  rfl

/-- The timer test records the same events behind any trace. -/
theorem drain_behind (driver : TxDriver) (tscHz curTsc : UInt64) (earlier : List DatapathEvent)
    (s : State σ) :
    Bridge.drain driver tscHz curTsc (s.behind earlier) =
      (Bridge.drain driver tscHz curTsc s).behind earlier := by
  have sameLength : (s.behind earlier).txLength = s.txLength := rfl
  unfold Bridge.drain
  by_cases due : curTsc - prevTsc > drainTsc tscHz
  · by_cases waiting : s.txLength ≠ 0
    · simp only [sameLength, if_pos due, if_pos waiting, bridgeSendBurst_behind]
      rfl
    · simp only [sameLength, if_pos due, if_neg waiting]
  · simp only [if_neg due]

/-- What an iteration of the plain loop does behind its timer test. -/
def receiveBurst (driver : TxDriver) (engine : Engine σ) (pkts : List RteMbuf) (s : State σ) :
    Option (State σ) :=
  Bridge.processBurst driver engine
    (s.log (.rxBurst s.slaveConf.portRx s.slaveConf.queueRx pkts)) pkts

theorem Bridge.iteration_eq (driver : TxDriver) (engine : Engine σ) (tscHz : UInt64)
    (s : State σ) (input : Bridge.Input) :
    Bridge.iteration driver engine tscHz s input =
      receiveBurst driver engine input.rx.pkts (Bridge.drain driver tscHz input.curTsc s) := rfl

theorem receiveBurst_behind (driver : TxDriver) (engine : Engine σ) (pkts : List RteMbuf)
    (earlier : List DatapathEvent) (s : State σ) :
    receiveBurst driver engine pkts (s.behind earlier) =
      (receiveBurst driver engine pkts s).map (State.behind earlier) := by
  unfold receiveBurst
  rw [behind_slaveConf, behind_log, processBurst_behind]

/-- An iteration of the plain loop records the same events behind any trace. -/
theorem Bridge.iteration_behind (driver : TxDriver) (engine : Engine σ) (tscHz : UInt64)
    (earlier : List DatapathEvent) (s : State σ) (input : Bridge.Input) :
    Bridge.iteration driver engine tscHz (s.behind earlier) input =
      (Bridge.iteration driver engine tscHz s input).map (State.behind earlier) := by
  rw [Bridge.iteration_eq, Bridge.iteration_eq, drain_behind, receiveBurst_behind]

/-! ## States that differ in the commands sent back -/

/-- The command that is sent back in an event. -/
def DatapathEvent.command : DatapathEvent → Option BridgeCmd
  | .echo cmd => some cmd
  | _ => none

/-- A call to the NIC or to the mbuf pool. -/
def DatapathEvent.isPacketCall : DatapathEvent → Bool
  | .echo _ => false
  | _ => true

namespace State

/-- The calls to the NIC and to the mbuf pool, in order. -/
def packetCalls (s : State σ) : List DatapathEvent := s.trace.filter DatapathEvent.isPacketCall

/-- The commands sent back, in order. -/
def commands (s : State σ) : List BridgeCmd := s.trace.filterMap DatapathEvent.command

/-- Two states that differ only in the commands sent back. -/
structure Alike (s t : State σ) : Prop where
  bare : s.bare = t.bare
  packetCalls : s.packetCalls = t.packetCalls

theorem Alike.refl (s : State σ) : s.Alike s := ⟨rfl, rfl⟩

/-- Sending back a command is the difference. -/
theorem Alike.logEcho {s t : State σ} (alike : s.Alike t) (c : BridgeCmd) :
    (s.log (.echo c)).Alike t := by
  refine ⟨alike.bare, ?_⟩
  rw [← alike.packetCalls]
  simp [State.packetCalls, State.log, DatapathEvent.isPacketCall]

theorem Alike.behind {u : State σ} {front front' : List DatapathEvent}
    (same : front.filter DatapathEvent.isPacketCall = front'.filter DatapathEvent.isPacketCall) :
    (u.behind front).Alike (u.behind front') := by
  refine ⟨rfl, ?_⟩
  simp [State.packetCalls, same]

/-- What records the same events behind any trace leads from states that are alike to states
that are alike. -/
theorem Alike.map {s s' t : State σ} (alike : s.Alike s') {f : State σ → Option (State σ)}
    (parametric : ∀ earlier s, f (s.behind earlier) = (f s).map (State.behind earlier))
    (after : f s = some t) : ∃ t', f s' = some t' ∧ t.Alike t' := by
  have start : s' = s.bare.behind s'.trace := by rw [alike.bare, behind_bare]
  rw [← behind_bare s, parametric] at after
  obtain ⟨u, once, rfl⟩ := Option.map_eq_some_iff.mp after
  refine ⟨u.behind s'.trace, ?_, .behind alike.packetCalls⟩
  calc f s'
    _ = f (s.bare.behind s'.trace) := congrArg f start
    _ = some (u.behind s'.trace) := by rw [parametric, once, Option.map_some]

end State

/-! ## Whole runs -/

namespace State

@[simp] theorem commands_log (s : State σ) (e : DatapathEvent) :
    (s.log e).commands = s.commands ++ e.command.toList := by
  cases e <;> simp [commands, log, DatapathEvent.command]

@[simp] theorem commands_countRx (s : State σ) (n : ℕ) : (s.countRx n).commands = s.commands :=
  rfl

@[simp] theorem commands_transmitted (s : State σ) (pkts : List RteMbuf) (n : ℕ) :
    (s.transmitted pkts n).commands = s.commands := by
  simp [commands, transmitted, DatapathEvent.command]

@[simp] theorem commands_freeFiltered (s : State σ) (m : RteMbuf) :
    (s.freeFiltered m).commands = s.commands := by
  simp [commands, freeFiltered, DatapathEvent.command]

@[simp] theorem commands_freeDropped (s : State σ) (m : RteMbuf) :
    (s.freeDropped m).commands = s.commands := by
  simp [commands, freeDropped, DatapathEvent.command]

end State

theorem foldl_freeDropped_commands (pkts : List RteMbuf) (s : State σ) :
    (pkts.foldl freeDropped s).commands = s.commands := by
  induction pkts generalizing s with
  | nil => rfl
  | cons m pkts inductionHypothesis =>
      rw [List.foldl_cons, inductionHypothesis, commands_freeDropped]

theorem bridgeSendBurst_commands (driver : TxDriver) (s : State σ) (n : ℕ) :
    (Bridge.bridgeSendBurst driver s n).commands = s.commands := by
  have counted (t : State σ) (k : ℕ) : (t.countDropped k).commands = t.commands := rfl
  unfold Bridge.bridgeSendBurst
  dsimp only
  split
  · rw [foldl_freeDropped_commands, counted, commands_transmitted]
  · rw [commands_transmitted]

/-- Settling packets sends back no command. -/
theorem settle_commands {driver : TxDriver} {s t : State σ} {m : RteMbuf} {drop : Bool}
    (settled : settle driver s m drop = some t) : t.commands = s.commands := by
  cases drop with
  | true =>
      obtain rfl := Option.some.inj settled
      exact commands_freeFiltered (s.countRxBytes m) m
  | false =>
      obtain ⟨⟨ret, u⟩, added, rfl⟩ := Option.map_eq_some_iff.mp settled
      unfold Bridge.bridgeAddPacket at added
      by_cases inside : (s.countRxBytes m).txLength < maxPktBurst
      · by_cases full : (s.countRxBytes m).txLength + 1 = maxPktBurst
        · simp only [dif_pos inside, if_pos full] at added
          obtain ⟨-, rfl⟩ := Prod.mk.inj (Option.some.inj added)
          exact bridgeSendBurst_commands driver
            ((s.countRxBytes m).storeMbuf (s.countRxBytes m).txLength inside m) maxPktBurst
        · simp only [dif_pos inside, if_neg full] at added
          obtain ⟨-, rfl⟩ := Prod.mk.inj (Option.some.inj added)
          rfl
      · simp only [dif_neg inside] at added
        cases added

theorem settleAll_commands {driver : TxDriver} {judged : List (RteMbuf × Bool)} {s t : State σ}
    (settled : settleAll driver s judged = some t) : t.commands = s.commands := by
  induction judged generalizing s with
  | nil =>
      obtain rfl := Option.some.inj settled
      rfl
  | cons j judged inductionHypothesis =>
      rw [settleAll_cons] at settled
      obtain ⟨u, once, rest⟩ := Option.bind_eq_some_iff.mp settled
      rw [inductionHypothesis rest, settle_commands once]

theorem drain_commands (driver : TxDriver) (tscHz curTsc : UInt64) (s : State σ) :
    (Bridge.drain driver tscHz curTsc s).commands = s.commands := by
  unfold Bridge.drain
  dsimp only
  split
  · split
    · exact bridgeSendBurst_commands driver s s.txLength
    · rfl
  · rfl

/-- The plain loop sends back no command. -/
theorem Bridge.iteration_commands {driver : TxDriver} {engine : Engine σ} {tscHz : UInt64}
    {s t : State σ} {input : Bridge.Input}
    (once : Bridge.iteration driver engine tscHz s input = some t) : t.commands = s.commands := by
  unfold Bridge.iteration at once
  rw [Bridge.processBurst_eq] at once
  obtain ⟨u, settled, rfl⟩ := Option.map_eq_some_iff.mp once
  have settledAll := settleAll_commands settled
  rw [commands_countRx, commands_log, drain_commands] at settledAll
  exact settledAll.trans (List.append_nil _)

namespace BridgeOptimized

/-- What the plain loop reads in an iteration. -/
def Input.plain (input : Input) : Bridge.Input := ⟨input.curTsc, input.rx⟩

/-- The commands that the loop reads until it returns. -/
def commandsRead (inputs : List Input) : List BridgeCmd :=
  (inputs.take ((served inputs).length + 1)).filterMap Input.cmd

variable {engine4 : Engine4 σ} {engine : Engine1 σ} {plain : Engine σ}

/-- Behind the timer test, both loops do the same to a burst. -/
theorem receiveBurst_refines (driver : TxDriver) (grouped : Grouped engine4 engine)
    (same : SameVerdict plain engine) {s : State σ} (room : s.Room) (burst : RxBurst) :
    ∃ t, settleJudged driver
        ((s.log (.rxBurst s.slaveConf.portRx s.slaveConf.queueRx burst.pkts)).countRx
          burst.pkts.length) (judgeGroups engine4 engine s.engine burst.pkts) = some t ∧
      receiveBurst driver plain burst.pkts s = some t ∧ t.Room := by
  have logged : (s.log (.rxBurst s.slaveConf.portRx s.slaveConf.queueRx burst.pkts)).Room := room
  obtain ⟨t, optimized, plainBurst, roomAfter⟩ :=
    processBurst_refines driver grouped same logged burst
  rw [BridgeOptimized.processBurst_eq] at optimized
  exact ⟨t, optimized, plainBurst, roomAfter⟩

/-- Without STOP, an iteration is one of the plain loop behind the command it has read. -/
theorem iteration_eq_plain (driver : TxDriver) (grouped : Grouped engine4 engine)
    (same : SameVerdict plain engine) (tscHz : UInt64) {s : State σ} (room : s.Room)
    {input : Input} (goesOn : input.cmd ≠ some .stop) :
    ∃ t, iteration driver engine4 engine tscHz s input = some (.running, t) ∧
      Bridge.iteration driver plain tscHz (echoed s input) input.plain = some t ∧ t.Room := by
  have behindEcho : (echoed s input).Room := by
    rw [State.Room, (echoed_same s input).1]
    exact room
  obtain ⟨t, optimized, plainBurst, roomAfter⟩ := receiveBurst_refines driver grouped same
    (behindEcho.drain driver tscHz input.curTsc) input.rx
  refine ⟨t, ?_, ?_, roomAfter⟩
  · rw [iteration_eq driver engine4 engine tscHz s goesOn, optimized, Option.map_some]
  · rw [Bridge.iteration_eq]
    exact plainBurst

theorem commands_echoed (s : State σ) (input : Input) :
    (echoed s input).commands = s.commands ++ input.cmd.toList := by
  unfold echoed
  cases input.cmd with
  | none => exact (List.append_nil _).symm
  | some c => exact commands_log s (.echo c)

theorem echoed_alike {s t : State σ} (alike : s.Alike t) (input : Input) :
    (echoed s input).Alike t := by
  unfold echoed
  cases input.cmd with
  | none => exact alike
  | some c => exact alike.logEcho c

theorem commandsRead_cons (input : Input) (inputs : List Input) :
    commandsRead (input :: inputs) = input.cmd.toList ++
      if input.cmd = some .stop then [] else commandsRead inputs := by
  unfold commandsRead
  by_cases stop : input.cmd = some .stop
  · simp [served, stop]
  · rw [served, if_neg stop, if_neg stop, List.length_cons, List.take_succ_cons,
      List.filterMap_cons]
    cases input.cmd <;> rfl

/-- **Every run of the optimized loop is a run of the plain one.** The grouped engine writes what
the single engine would write, and the engine of the plain loop returns non-zero where the
single engine writes a positive value. Then, from any two states that differ only in the
commands sent back, the optimized loop ends as the plain loop does behind the bursts that come
before the STOP: with the same statistics, the same table and the same calls of
`rte_eth_rx_burst`, `rte_eth_tx_burst` and `rte_pktmbuf_free` with the same packets. The commands
it has sent back are those it has read, in order, and it has returned exactly if one of them is
STOP. -/
theorem loop_refines (driver : TxDriver) {engine4 : Engine4 σ} {engine : Engine1 σ}
    {plain : Engine σ} (grouped : Grouped engine4 engine) (same : SameVerdict plain engine)
    (tscHz : UInt64) {s s' : State σ} (room : s'.Room) (alike : s.Alike s')
    (inputs : List Input) :
    ∃ status t t', bridgeLoopOptimized driver engine4 engine tscHz s inputs = some (status, t) ∧
      Bridge.bridgeMainLoop driver plain tscHz s' ((served inputs).map Input.plain) = some t' ∧
      t.Alike t' ∧ t.commands = s.commands ++ commandsRead inputs ∧
      (status = .returned ↔ .stop ∈ commandsRead inputs) := by
  induction inputs generalizing s s' with
  | nil =>
      exact ⟨.running, s, s', rfl, rfl, alike, (List.append_nil _).symm, by simp [commandsRead]⟩
  | cons input inputs inductionHypothesis =>
      rw [commandsRead_cons]
      by_cases stop : input.cmd = some .stop
      · refine ⟨.returned, s.log (.echo .stop), s', ?_, ?_, alike.logEcho .stop, ?_, ?_⟩
        · rw [bridgeLoopOptimized, iteration, stop]
          rfl
        · rw [served, if_pos stop]
          rfl
        · simp [stop, DatapathEvent.command]
        · simp [stop]
      · have room' : s.Room := by
          have sameTable : s.bare.Room := alike.bare ▸ room
          exact sameTable
        obtain ⟨u, optimized, once, roomU⟩ :=
          iteration_eq_plain driver grouped same tscHz room' stop
        obtain ⟨u', plainOnce, alikeU⟩ := (echoed_alike alike input).map
          (f := fun t => Bridge.iteration driver plain tscHz t input.plain)
          (fun earlier t => Bridge.iteration_behind driver plain tscHz earlier t input.plain) once
        have roomU' : u'.Room := by
          have sameTable : u'.bare.Room := alikeU.bare ▸ roomU
          exact sameTable
        obtain ⟨status, t, t', run, plainRun, alikeT, commands, returned⟩ :=
          inductionHypothesis roomU' alikeU
        refine ⟨status, t, t', ?_, ?_, alikeT, ?_, ?_⟩
        · rw [bridgeLoopOptimized, optimized]
          exact run
        · rw [served, if_neg stop, List.map_cons, Bridge.bridgeMainLoop, List.foldlM_cons,
            plainOnce]
          exact plainRun
        · rw [if_neg stop, commands, Bridge.iteration_commands once, commands_echoed,
            List.append_assoc]
        · rw [if_neg stop, returned, List.mem_append]
          have notHere : BridgeCmd.stop ∉ input.cmd.toList := by simpa using stop
          exact (or_iff_right notHere).symm

/-- An engine that matches the packets whose first byte is 0. A PING comes with the first burst,
and a STOP behind the second; the packet that would come with it is not received. -/
theorem loop_refines_pingAndStop :
    let engine : Engine1 Unit := fun e m _ => (if m.data.head? = some 0 then 1 else -1, e)
    let pkt (addr : ℕ) (byte : UInt8) : RteMbuf := ⟨addr, 32, 60, [byte]⟩
    let driver : TxDriver := ⟨fun _ pkts => pkts.length, fun _ _ => Nat.le_refl _⟩
    let inputs : List Input :=
      [⟨200, some .ping, ⟨[pkt 1 0, pkt 2 7, pkt 3 0, pkt 4 9], by decide⟩⟩,
        ⟨300, none, ⟨[pkt 5 0], by decide⟩⟩, ⟨400, some .stop, ⟨[pkt 6 1], by decide⟩⟩]
    ∃ status t t', bridgeLoopOptimized driver (fun e m _ => engine.inOrder e m) engine 1000000
        (State.initial ()) inputs = some (status, t) ∧
      Bridge.bridgeMainLoop driver (fun e data _ => (if data.head? = some 0 then 1 else 0, e))
        1000000 (State.initial ()) [⟨200, ⟨[pkt 1 0, pkt 2 7, pkt 3 0, pkt 4 9], by decide⟩⟩,
          ⟨300, ⟨[pkt 5 0], by decide⟩⟩] = some t' ∧
      t.Alike t' ∧ t.commands = [] ++ [.ping, .stop] ∧
      (status = .returned ↔ .stop ∈ [BridgeCmd.ping, .stop]) := by
  refine loop_refines _ (fun _ _ => rfl) ?_ 1000000 (.fresh (.initial ())) (.refl _) _
  intro e m
  by_cases first : m.data.head? = some 0 <;> simp [first]

end BridgeOptimized

end DdosFiltering.Datapath
