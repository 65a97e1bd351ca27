import DdosFiltering.Datapath.Runs

/-!
# A slave calls the NIC on its own queues

`bridge_init_engine` copies the ports and queues of the configuration into `slave_conf`, and
nothing writes them behind that. So every `rte_eth_rx_burst` and every `rte_eth_tx_burst` of both
loops is on these ports and queues (`State.OwnQueues`), whatever the engine does.
-/

set_option autoImplicit false

namespace DdosFiltering.Datapath

variable {σ : Type}

/-- `port_rx`, `queue_rx`, `port_tx` and `queue_tx`. -/
def SlaveConf.ports (c : SlaveConf) : UInt8 × UInt8 × UInt8 × UInt8 :=
  (c.portRx, c.queueRx, c.portTx, c.queueTx)

/-- A call to the NIC is on the queues of the slave. -/
def DatapathEvent.On (c : SlaveConf) : DatapathEvent → Prop
  | .rxBurst port queue _ => port = c.portRx ∧ queue = c.queueRx
  | .txBurst port queue _ _ => port = c.portTx ∧ queue = c.queueTx
  | _ => True

/-- The slave has the ports and queues of `c`, and has called the NIC on no others. -/
structure State.OwnQueues (c : SlaveConf) (s : State σ) : Prop where
  ports : s.slaveConf.ports = c.ports
  calls : ∀ e ∈ s.trace, e.On c

variable {c : SlaveConf} {s t : State σ}

namespace State.OwnQueues

theorem fresh (fresh : s.Fresh) : s.OwnQueues s.slaveConf where
  ports := rfl
  calls := by
    rw [fresh.trace]
    exact List.forall_mem_nil _

/-- What neither records an event nor writes a port. -/
theorem same (own : s.OwnQueues c) (ports : t.slaveConf.ports = s.slaveConf.ports)
    (trace : t.trace = s.trace) : t.OwnQueues c :=
  ⟨ports.trans own.ports, trace ▸ own.calls⟩

/-- What records one event. -/
theorem record (own : s.OwnQueues c) (ports : t.slaveConf.ports = s.slaveConf.ports)
    {e : DatapathEvent} (trace : t.trace = s.trace ++ [e]) (on : e.On c) : t.OwnQueues c where
  ports := ports.trans own.ports
  calls e' member := by
    rw [trace] at member
    rcases List.mem_append.mp member with earlier | here
    · exact own.calls e' earlier
    · obtain rfl := List.mem_singleton.mp here
      exact on

theorem portRx (own : s.OwnQueues c) :
    s.slaveConf.portRx = c.portRx ∧ s.slaveConf.queueRx = c.queueRx :=
  ⟨congrArg Prod.fst own.ports, congrArg (fun p => p.2.1) own.ports⟩

theorem portTx (own : s.OwnQueues c) :
    s.slaveConf.portTx = c.portTx ∧ s.slaveConf.queueTx = c.queueTx :=
  ⟨congrArg (fun p => p.2.2.1) own.ports, congrArg (fun p => p.2.2.2) own.ports⟩

theorem foldl_freeDropped (pkts : List RteMbuf) (own : s.OwnQueues c) :
    (pkts.foldl State.freeDropped s).OwnQueues c := by
  induction pkts generalizing s with
  | nil => exact own
  | cons m pkts inductionHypothesis =>
      have freed : (s.freeDropped m).OwnQueues c := own.record rfl rfl trivial
      exact inductionHypothesis freed

theorem bridgeSendBurst (own : s.OwnQueues c) (driver : TxDriver) (n : ℕ) :
    (Bridge.bridgeSendBurst driver s n).OwnQueues c := by
  have sent : (s.transmitted (s.txSlots n) (driver.accept s.txCalls (s.txSlots n))).OwnQueues c :=
    own.record rfl rfl own.portTx
  unfold Bridge.bridgeSendBurst
  dsimp only
  split
  · have counted : ((s.transmitted (s.txSlots n)
        (driver.accept s.txCalls (s.txSlots n))).countDropped
          (n - driver.accept s.txCalls (s.txSlots n))).OwnQueues c := sent.same rfl rfl
    exact counted.foldl_freeDropped _
  · exact sent

/-- Settling a packet calls the NIC on the queues of the slave only. -/
theorem settle (own : s.OwnQueues c) {driver : TxDriver} {m : RteMbuf} {drop : Bool}
    (settled : settle driver s m drop = some t) : t.OwnQueues c := by
  have counted : (s.countRxBytes m).OwnQueues c := own.same rfl rfl
  cases drop with
  | true =>
      obtain rfl := Option.some.inj settled
      exact counted.record rfl rfl trivial
  | false =>
      obtain ⟨⟨ret, u⟩, added, rfl⟩ := Option.map_eq_some_iff.mp settled
      unfold Bridge.bridgeAddPacket at added
      by_cases inside : (s.countRxBytes m).txLength < maxPktBurst
      · have stored : ((s.countRxBytes m).storeMbuf (s.countRxBytes m).txLength inside
            m).OwnQueues c := counted.same rfl rfl
        by_cases full : (s.countRxBytes m).txLength + 1 = maxPktBurst
        · simp only [dif_pos inside, if_pos full] at added
          obtain ⟨-, rfl⟩ := Prod.mk.inj (Option.some.inj added)
          exact (stored.bridgeSendBurst driver maxPktBurst).same rfl rfl
        · simp only [dif_pos inside, if_neg full] at added
          obtain ⟨-, rfl⟩ := Prod.mk.inj (Option.some.inj added)
          exact stored.same rfl rfl
      · simp only [dif_neg inside] at added
        cases added

theorem settleAll (own : s.OwnQueues c) {driver : TxDriver} {judged : List (RteMbuf × Bool)}
    (settled : settleAll driver s judged = some t) : t.OwnQueues c := by
  induction judged generalizing s with
  | nil =>
      obtain rfl := Option.some.inj settled
      exact own
  | cons j judged inductionHypothesis =>
      rw [settleAll_cons] at settled
      obtain ⟨u, once, rest⟩ := Option.bind_eq_some_iff.mp settled
      exact inductionHypothesis (own.settle once) rest

theorem settleJudged (own : s.OwnQueues c) {driver : TxDriver}
    {judged : List (RteMbuf × Bool) × σ} (settled : settleJudged driver s judged = some t) :
    t.OwnQueues c := by
  obtain ⟨u, all, rfl⟩ := Option.map_eq_some_iff.mp settled
  exact (own.settleAll all).same rfl rfl

theorem drain (own : s.OwnQueues c) (driver : TxDriver) (tscHz curTsc : UInt64) :
    (Bridge.drain driver tscHz curTsc s).OwnQueues c := by
  unfold Bridge.drain
  dsimp only
  split
  · split
    · exact (own.bridgeSendBurst driver s.txLength).same rfl rfl
    · exact own
  · exact own

/-- Receiving a burst and settling it. -/
theorem burst (own : s.OwnQueues c) {driver : TxDriver} {pkts : List RteMbuf}
    {judged : List (RteMbuf × Bool) × σ}
    (settled : Datapath.settleJudged driver
      ((s.log (.rxBurst s.slaveConf.portRx s.slaveConf.queueRx pkts)).countRx pkts.length)
      judged = some t) : t.OwnQueues c := by
  have received : (s.log (.rxBurst s.slaveConf.portRx s.slaveConf.queueRx pkts)).OwnQueues c :=
    own.record rfl rfl own.portRx
  have counted : ((s.log (.rxBurst s.slaveConf.portRx s.slaveConf.queueRx pkts)).countRx
      pkts.length).OwnQueues c := received.same rfl rfl
  exact counted.settleJudged settled

/-- **`bridge_main_loop` calls the NIC on the queues of the slave only.** -/
theorem bridgeMainLoop (own : s.OwnQueues c) {driver : TxDriver} {engine : Engine σ}
    {tscHz : UInt64} {inputs : List Bridge.Input}
    (run : Bridge.bridgeMainLoop driver engine tscHz s inputs = some t) : t.OwnQueues c := by
  induction inputs generalizing s with
  | nil =>
      obtain rfl := Option.some.inj run
      exact own
  | cons input inputs inductionHypothesis =>
      rw [Bridge.bridgeMainLoop, List.foldlM_cons] at run
      obtain ⟨u, once, rest⟩ := Option.bind_eq_some_iff.mp run
      unfold Bridge.iteration at once
      rw [Bridge.processBurst_eq] at once
      exact inductionHypothesis ((own.drain driver tscHz input.curTsc).burst once) rest

theorem echoed (own : s.OwnQueues c) (input : BridgeOptimized.Input) :
    (BridgeOptimized.echoed s input).OwnQueues c := by
  unfold BridgeOptimized.echoed
  cases input.cmd with
  | none => exact own
  | some cmd => exact own.record rfl rfl trivial

/-- **`bridge_loop_optimized` calls the NIC on the queues of the slave only.** -/
theorem bridgeLoopOptimized (own : s.OwnQueues c) {driver : TxDriver} {engine4 : Engine4 σ}
    {engine : Engine1 σ} {tscHz : UInt64} {inputs : List BridgeOptimized.Input}
    {status : BridgeOptimized.Status}
    (run : BridgeOptimized.bridgeLoopOptimized driver engine4 engine tscHz s inputs =
      some (status, t)) : t.OwnQueues c := by
  induction inputs generalizing s with
  | nil =>
      obtain ⟨-, rfl⟩ := Prod.mk.inj (Option.some.inj run)
      exact own
  | cons input inputs inductionHypothesis =>
      rw [BridgeOptimized.bridgeLoopOptimized] at run
      obtain ⟨⟨here, u⟩, once, rest⟩ := Option.bind_eq_some_iff.mp run
      have next : u.OwnQueues c := by
        by_cases stop : input.cmd = some .stop
        · rw [BridgeOptimized.iteration, stop] at once
          obtain ⟨-, rfl⟩ := Prod.mk.inj (Option.some.inj once)
          exact own.record rfl rfl trivial
        · rw [BridgeOptimized.iteration_eq driver engine4 engine tscHz s stop] at once
          obtain ⟨v, settled, same⟩ := Option.map_eq_some_iff.mp once
          obtain ⟨-, rfl⟩ := Prod.mk.inj same
          exact ((own.echoed input).drain driver tscHz input.curTsc).burst settled
      cases here with
      | running => exact inductionHypothesis next rest
      | returned =>
          obtain ⟨-, rfl⟩ := Prod.mk.inj (Option.some.inj rest)
          exact next

end State.OwnQueues

end DdosFiltering.Datapath
