import DdosFiltering.Datapath.Conservation

/-!
# Runs of the packet loops

Every run of `bridge_main_loop` and of `bridge_loop_optimized` goes from boundary to
boundary (`Bridge.bridgeMainLoop_boundary`, `BridgeOptimized.bridgeLoopOptimized_boundary`),
whatever the NIC delivers, accepts and whatever the engines answer. Conservation of packets
and bytes and the ownership of the mbufs follow for runs of any length. The optimized loop
returns exactly if it reads STOP (`BridgeOptimized.running_iff`).
-/

set_option autoImplicit false

namespace DdosFiltering.Datapath

variable {σ : Type} {base : BridgePortStatistics}

theorem judgeWith_append (verdict : σ → RteMbuf → Bool × σ) (e : σ) (front back : List RteMbuf) :
    judgeWith verdict e (front ++ back) =
      ((judgeWith verdict e front).1 ++ (judgeWith verdict (judgeWith verdict e front).2 back).1,
        (judgeWith verdict (judgeWith verdict e front).2 back).2) := by
  induction front generalizing e with
  | nil => rfl
  | cons m front inductionHypothesis => simp [judgeWith, inductionHypothesis]

/-- An engine whose state stays as it is judges every packet on its own. -/
theorem judgeWith_of_fixed {verdict : σ → RteMbuf → Bool × σ} {e : σ} {matched : RteMbuf → Bool}
    {pkts : List RteMbuf} (fixed : ∀ m ∈ pkts, verdict e m = (matched m, e)) :
    judgeWith verdict e pkts = (pkts.map fun m => (m, matched m), e) := by
  induction pkts with
  | nil => rfl
  | cons m pkts inductionHypothesis =>
      obtain ⟨first, later⟩ := List.forall_mem_cons.mp fixed
      simp only [judgeWith, first, inductionHypothesis later, List.map_cons]

/-- Recording a burst changes neither the table nor the engine. -/
theorem State.countRx_log (s : State σ) (e : DatapathEvent) (n : ℕ) :
    ((s.log e).countRx n).txLength = s.txLength ∧ (s.log e).engine = s.engine := ⟨rfl, rfl⟩

/-! ## `bridge_main_loop` -/

namespace Bridge

/-- The packets of a run, in the order of reception. -/
def arrivals (inputs : List Input) : List RteMbuf := inputs.flatMap fun input => input.rx.pkts

/-- The verdicts of a run. -/
def verdicts (engine : Engine σ) (e : σ) (inputs : List Input) : List (RteMbuf × Bool) :=
  (judgeWith (Engine.verdict engine) e (arrivals inputs)).1

/-- Receiving and processing a burst leads to the next boundary. -/
theorem processBurst_boundary {s : State σ} {judged : List (RteMbuf × Bool)}
    (boundary : Boundary base s judged) (driver : TxDriver) (engine : Engine σ)
    (port queue : UInt8) (pkts : List RteMbuf) :
    ∃ t, processBurst driver engine (s.log (.rxBurst port queue pkts)) pkts = some t ∧
      Boundary base t (judged ++ (judgeWith (Engine.verdict engine) s.engine pkts).1) ∧
      t.engine = (judgeWith (Engine.verdict engine) s.engine pkts).2 := by
  rw [processBurst_eq]
  exact boundary.burst driver port queue _ (judgeWith_fst _ s.engine pkts)

/-- One iteration leads from boundary to boundary. -/
theorem iteration_boundary {s : State σ} {judged : List (RteMbuf × Bool)}
    (boundary : Boundary base s judged) (driver : TxDriver) (engine : Engine σ) (tscHz : UInt64)
    (input : Input) :
    ∃ t, iteration driver engine tscHz s input = some t ∧
      Boundary base t (judged ++ (judgeWith (Engine.verdict engine) s.engine input.rx.pkts).1) ∧
      t.engine = (judgeWith (Engine.verdict engine) s.engine input.rx.pkts).2 := by
  have drained := boundary.drain driver tscHz input.curTsc
  rw [← drain_engine driver tscHz input.curTsc s boundary.room]
  exact processBurst_boundary drained driver engine _ _ input.rx.pkts

/-- **Every run of `bridge_main_loop` leads from boundary to boundary.** -/
theorem bridgeMainLoop_boundary {s : State σ} {judged : List (RteMbuf × Bool)}
    (boundary : Boundary base s judged) (driver : TxDriver) (engine : Engine σ) (tscHz : UInt64)
    (inputs : List Input) :
    ∃ t, bridgeMainLoop driver engine tscHz s inputs = some t ∧
      Boundary base t (judged ++ verdicts engine s.engine inputs) := by
  induction inputs generalizing s judged with
  | nil =>
      refine ⟨s, rfl, ?_⟩
      simpa [verdicts, arrivals, judgeWith] using boundary
  | cons input inputs inductionHypothesis =>
      obtain ⟨s', once, next, engineState⟩ :=
        iteration_boundary boundary driver engine tscHz input
      obtain ⟨t, run, reached⟩ := inductionHypothesis next
      refine ⟨t, ?_, ?_⟩
      · rw [bridgeMainLoop, List.foldlM_cons, once]
        exact run
      · rw [verdicts, arrivals, List.flatMap_cons, judgeWith_append, ← engineState,
          ← List.append_assoc]
        exact reached

theorem verdicts_fst (engine : Engine σ) (e : σ) (inputs : List Input) :
    (verdicts engine e inputs).map Prod.fst = arrivals inputs := judgeWith_fst _ _ _

/-- The state of the engine behind a run is its state behind the packets of the run. -/
theorem bridgeMainLoop_engine {s t : State σ} {judged : List (RteMbuf × Bool)}
    (boundary : Boundary base s judged) {driver : TxDriver} {engine : Engine σ}
    {tscHz : UInt64} {inputs : List Input}
    (run : bridgeMainLoop driver engine tscHz s inputs = some t) :
    t.engine = (judgeWith (Engine.verdict engine) s.engine (arrivals inputs)).2 := by
  induction inputs generalizing s judged with
  | nil =>
      obtain rfl := Option.some.inj run
      rfl
  | cons input inputs inductionHypothesis =>
      obtain ⟨s', once, next, engineState⟩ :=
        iteration_boundary boundary driver engine tscHz input
      rw [bridgeMainLoop, List.foldlM_cons, once] at run
      rw [inductionHypothesis next run, engineState, arrivals, arrivals, List.flatMap_cons,
        judgeWith_append]

/-- **Packets and bytes are conserved.** At the end of every iteration of every run of
`bridge_main_loop`, the received packets are those sent, filtered, dropped or waiting; the
received bytes that were neither filtered nor dropped are those the NIC accepted and those
waiting; and no store has left the transmit table. -/
theorem bridgeMainLoop_conserves (driver : TxDriver) (engine : Engine σ) (tscHz : UInt64)
    {s₀ : State σ} (fresh : s₀.Fresh) (zeroed : s₀.stats = {}) (inputs : List Input) :
    ∃ s, bridgeMainLoop driver engine tscHz s₀ inputs = some s ∧
      s.stats.rx =
        s.stats.tx + s.stats.filtered + s.stats.dropped + UInt64.ofNat s.txLength ∧
      s.stats.rxB - s.stats.filteredB - s.stats.droppedB =
        UInt64.ofNat (totalBytes s.accepted + totalBytes s.queued) ∧
      s.txLength < maxPktBurst := by
  obtain ⟨s, run, boundary⟩ :=
    bridgeMainLoop_boundary (.fresh fresh) driver engine tscHz inputs
  have packets := boundary.packets
  have bytes := boundary.bytes
  simp only [zeroed, UInt64.sub_zero] at packets bytes
  exact ⟨s, run, packets, bytes, boundary.room⟩

/-- A slave that lets every packet pass, with a NIC that takes nothing, after one burst. -/
theorem bridgeMainLoop_conserves_burst :
    ∃ s, bridgeMainLoop ⟨fun _ _ => 0, fun _ _ => Nat.zero_le _⟩ (fun e _ _ => (0, e)) 1000000
        (State.initial ()) [⟨101, ⟨[⟨1, 0, 60, []⟩], by decide⟩⟩] = some s ∧
      s.stats.rx =
        s.stats.tx + s.stats.filtered + s.stats.dropped + UInt64.ofNat s.txLength ∧
      s.stats.rxB - s.stats.filteredB - s.stats.droppedB =
        UInt64.ofNat (totalBytes s.accepted + totalBytes s.queued) ∧
      s.txLength < maxPktBurst :=
  bridgeMainLoop_conserves _ _ _ (.initial ()) rfl _

end Bridge

/-! ## `bridge_loop_optimized` -/

namespace BridgeOptimized

/-- The inputs read before the loop returns. -/
def served : List Input → List Input
  | [] => []
  | input :: inputs => if input.cmd = some .stop then [] else input :: served inputs

/-- The packets of a run, in the order of reception. -/
def arrivals (inputs : List Input) : List RteMbuf :=
  (served inputs).flatMap fun input => input.rx.pkts

/-- The verdicts on a list of bursts. -/
def verdictsOn (engine4 : Engine4 σ) (engine : Engine1 σ) :
    σ → List Input → List (RteMbuf × Bool)
  | _, [] => []
  | e, input :: inputs =>
      (judgeGroups engine4 engine e input.rx.pkts).1 ++
        verdictsOn engine4 engine (judgeGroups engine4 engine e input.rx.pkts).2 inputs

/-- The verdicts of a run. -/
def verdicts (engine4 : Engine4 σ) (engine : Engine1 σ) (e : σ) (inputs : List Input) :
    List (RteMbuf × Bool) :=
  verdictsOn engine4 engine e (served inputs)

/-- The state behind the command of an iteration. -/
def echoed (s : State σ) (input : Input) : State σ := input.cmd.elim s fun c => s.log (.echo c)

theorem echoed_same (s : State σ) (input : Input) :
    (echoed s input).txLength = s.txLength ∧ (echoed s input).engine = s.engine := by
  unfold echoed
  cases input.cmd with
  | none => exact ⟨rfl, rfl⟩
  | some c => exact ⟨rfl, rfl⟩

/-- An iteration that does not read STOP. -/
theorem iteration_eq (driver : TxDriver) (engine4 : Engine4 σ) (engine : Engine1 σ)
    (tscHz : UInt64) (s : State σ) {input : Input} (goesOn : input.cmd ≠ some .stop) :
    iteration driver engine4 engine tscHz s input =
      (settleJudged driver
        (((Bridge.drain driver tscHz input.curTsc (echoed s input)).log
          (.rxBurst (Bridge.drain driver tscHz input.curTsc (echoed s input)).slaveConf.portRx
            (Bridge.drain driver tscHz input.curTsc (echoed s input)).slaveConf.queueRx
            input.rx.pkts)).countRx input.rx.pkts.length)
        (judgeGroups engine4 engine
          (Bridge.drain driver tscHz input.curTsc (echoed s input)).engine
          input.rx.pkts)).map (.running, ·) := by
  unfold iteration
  split
  · rename_i stop
    exact absurd stop goesOn
  · simp only [processBurst_eq, (State.countRx_log _ _ 0).2, echoed]

theorem echoed_boundary {s : State σ} {judged : List (RteMbuf × Bool)}
    (boundary : Boundary base s judged) (input : Input) :
    Boundary base (echoed s input) judged := by
  unfold echoed
  cases input.cmd with
  | none => exact boundary
  | some c => exact boundary.logEcho c

/-- An iteration that does not read STOP leads from boundary to boundary. -/
theorem iteration_boundary {s : State σ} {judged : List (RteMbuf × Bool)}
    (boundary : Boundary base s judged) (driver : TxDriver) (engine4 : Engine4 σ)
    (engine : Engine1 σ) (tscHz : UInt64) (input : Input) (goesOn : input.cmd ≠ some .stop) :
    ∃ t, iteration driver engine4 engine tscHz s input = some (.running, t) ∧
      Boundary base t (judged ++ (judgeGroups engine4 engine s.engine input.rx.pkts).1) ∧
      t.engine = (judgeGroups engine4 engine s.engine input.rx.pkts).2 := by
  have behindEcho := echoed_boundary boundary input
  have drained := behindEcho.drain driver tscHz input.curTsc
  have sameEngine := drain_engine driver tscHz input.curTsc _ behindEcho.room
  rw [(echoed_same s input).2] at sameEngine
  rw [iteration_eq driver engine4 engine tscHz s goesOn, sameEngine]
  obtain ⟨t, settled, reached, engineState⟩ := drained.burst driver
    (Bridge.drain driver tscHz input.curTsc (echoed s input)).slaveConf.portRx
    (Bridge.drain driver tscHz input.curTsc (echoed s input)).slaveConf.queueRx _
    (judgeGroups_fst engine4 engine s.engine input.rx.pkts)
  refine ⟨t, ?_, reached, engineState⟩
  rw [settled, Option.map_some]

/-- **Every run of `bridge_loop_optimized`, up to its return, leads from boundary to
boundary.** -/
theorem bridgeLoopOptimized_boundary {s : State σ} {judged : List (RteMbuf × Bool)}
    (boundary : Boundary base s judged) (driver : TxDriver) (engine4 : Engine4 σ)
    (engine : Engine1 σ) (tscHz : UInt64) (inputs : List Input) :
    ∃ status t, bridgeLoopOptimized driver engine4 engine tscHz s inputs = some (status, t) ∧
      Boundary base t (judged ++ verdicts engine4 engine s.engine inputs) := by
  induction inputs generalizing s judged with
  | nil =>
      refine ⟨.running, s, rfl, ?_⟩
      simpa [verdicts, served, verdictsOn] using boundary
  | cons input inputs inductionHypothesis =>
      by_cases stop : input.cmd = some .stop
      · refine ⟨.returned, s.log (.echo .stop), ?_, ?_⟩
        · rw [bridgeLoopOptimized, iteration, stop]
          rfl
        · simpa [verdicts, served, stop, verdictsOn] using boundary.logEcho .stop
      · obtain ⟨s', once, next, engineState⟩ :=
          iteration_boundary boundary driver engine4 engine tscHz input stop
        obtain ⟨status, t, run, reached⟩ := inductionHypothesis next
        refine ⟨status, t, ?_, ?_⟩
        · rw [bridgeLoopOptimized, once]
          exact run
        · rw [verdicts, served, if_neg stop, verdictsOn, ← engineState, ← List.append_assoc]
          exact reached

theorem verdicts_fst (engine4 : Engine4 σ) (engine : Engine1 σ) (e : σ) (inputs : List Input) :
    (verdicts engine4 engine e inputs).map Prod.fst = arrivals inputs := by
  unfold verdicts arrivals
  induction served inputs generalizing e with
  | nil => rfl
  | cons input inputs inductionHypothesis =>
      rw [verdictsOn, List.map_append, judgeGroups_fst, inductionHypothesis, List.flatMap_cons]

/-! ### Where the loop returns -/

/-- The loop runs on behind an iteration exactly if that has not read STOP. -/
theorem iteration_running_iff {driver : TxDriver} {engine4 : Engine4 σ} {engine : Engine1 σ}
    {tscHz : UInt64} {status : Status} {s t : State σ} {input : Input}
    (once : iteration driver engine4 engine tscHz s input = some (status, t)) :
    status = .running ↔ input.cmd ≠ some .stop := by
  by_cases stop : input.cmd = some .stop
  · rw [iteration, stop] at once
    obtain ⟨rfl, -⟩ := Prod.mk.inj (Option.some.inj once)
    exact iff_of_false Status.noConfusion (not_not.mpr stop)
  · rw [iteration_eq driver engine4 engine tscHz s stop] at once
    obtain ⟨u, -, same⟩ := Option.map_eq_some_iff.mp once
    obtain ⟨rfl, -⟩ := Prod.mk.inj same
    exact iff_of_true rfl stop

/-- The last iteration of a run that has not returned. -/
theorem bridgeLoopOptimized_concat {driver : TxDriver} {engine4 : Engine4 σ}
    {engine : Engine1 σ} {tscHz : UInt64} {inputs : List Input} {input : Input} {s t : State σ}
    (run : bridgeLoopOptimized driver engine4 engine tscHz s (inputs ++ [input]) =
      some (.running, t)) :
    ∃ u, bridgeLoopOptimized driver engine4 engine tscHz s inputs = some (.running, u) ∧
      iteration driver engine4 engine tscHz u input = some (.running, t) := by
  induction inputs generalizing s with
  | nil =>
      rw [List.nil_append, bridgeLoopOptimized] at run
      obtain ⟨⟨status, u⟩, once, rest⟩ := Option.bind_eq_some_iff.mp run
      cases status with
      | running =>
          obtain ⟨-, rfl⟩ := Prod.mk.inj (Option.some.inj rest)
          exact ⟨s, rfl, once⟩
      | returned => cases rest
  | cons first inputs inductionHypothesis =>
      rw [List.cons_append, bridgeLoopOptimized] at run
      obtain ⟨⟨status, u⟩, once, rest⟩ := Option.bind_eq_some_iff.mp run
      cases status with
      | running =>
          obtain ⟨v, front, last⟩ := inductionHypothesis rest
          refine ⟨v, ?_, last⟩
          rw [bridgeLoopOptimized, once]
          exact front
      | returned => cases rest

/-- The loop runs on exactly if it has not read STOP. -/
theorem running_iff {driver : TxDriver} {engine4 : Engine4 σ} {engine : Engine1 σ}
    {tscHz : UInt64} {inputs : List Input} {status : Status} {s t : State σ}
    (run : bridgeLoopOptimized driver engine4 engine tscHz s inputs = some (status, t)) :
    status = .running ↔ ∀ input ∈ inputs, input.cmd ≠ some .stop := by
  induction inputs generalizing s with
  | nil =>
      obtain ⟨rfl, -⟩ := Prod.mk.inj (Option.some.inj run)
      simp
  | cons input inputs inductionHypothesis =>
      rw [bridgeLoopOptimized] at run
      obtain ⟨⟨here, u⟩, once, rest⟩ := Option.bind_eq_some_iff.mp run
      cases here with
      | running =>
          rw [inductionHypothesis rest, List.forall_mem_cons]
          exact (and_iff_right ((iteration_running_iff once).mp rfl)).symm
      | returned =>
          obtain ⟨rfl, -⟩ := Prod.mk.inj (Option.some.inj rest)
          have stop : ¬input.cmd ≠ some .stop := mt (iteration_running_iff once).mpr (by decide)
          exact iff_of_false (by decide) fun all => stop (all input List.mem_cons_self)

/-- The inputs that are served are those up to STOP. -/
theorem served_getElem? {inputs : List Input} {i : ℕ} {input : Input} :
    (served inputs)[i]? = some input ↔
      inputs[i]? = some input ∧ input.cmd ≠ some .stop ∧
        ∀ earlier ∈ inputs.take i, earlier.cmd ≠ some .stop := by
  induction inputs generalizing i with
  | nil => simp [served]
  | cons first inputs inductionHypothesis =>
      by_cases stop : first.cmd = some .stop
      · rw [served, if_pos stop]
        refine iff_of_false (by simp) ?_
        rintro ⟨present, goesOn, before⟩
        cases i with
        | zero =>
            obtain rfl := Option.some.inj present
            exact goesOn stop
        | succ i => exact before first List.mem_cons_self stop
      · rw [served, if_neg stop]
        cases i with
        | zero =>
            constructor
            · intro present
              obtain rfl := Option.some.inj present
              exact ⟨rfl, stop, List.forall_mem_nil _⟩
            · rintro ⟨present, -⟩
              exact present
        | succ i =>
            rw [List.getElem?_cons_succ, List.getElem?_cons_succ, List.take_succ_cons,
              List.forall_mem_cons, inductionHypothesis]
            exact and_congr_right' (and_congr_right' (and_iff_right stop).symm)

theorem length_served_le (inputs : List Input) : (served inputs).length ≤ inputs.length := by
  induction inputs with
  | nil => exact Nat.le_refl 0
  | cons first inputs inductionHypothesis =>
      rw [served]
      split
      · exact Nat.zero_le _
      · exact Nat.succ_le_succ inductionHypothesis

theorem served_take (inputs : List Input) (i : ℕ) :
    served (inputs.take i) = (served inputs).take i := by
  induction inputs generalizing i with
  | nil => simp [served]
  | cons first inputs inductionHypothesis =>
      cases i with
      | zero => simp [served]
      | succ i =>
          by_cases stop : first.cmd = some .stop
          · simp [served, stop]
          · simp [served, stop, inductionHypothesis]

end BridgeOptimized

/-! ## Ownership of the mbufs -/

/-- The whereabouts of the mbufs of a run that received `arrivals`, on which the engine gave
the verdicts `judged`. -/
structure Owned (s : State σ) (arrivals : List RteMbuf) (judged : List (RteMbuf × Bool)) :
    Prop where
  /-- The mbufs received are those of the bursts, and the engine judged each of them. -/
  received : s.received = arrivals ∧ judged.map Prod.fst = arrivals
  /-- Each of them is in one of the four places. -/
  places : s.received.Perm (s.accepted ++ s.filteredPkts ++ s.droppedPkts ++ s.queued)
  /-- No mbuf is in two places, or twice in one. -/
  once : ((s.accepted ++ s.filteredPkts ++ s.droppedPkts ++ s.queued).map RteMbuf.addr).Nodup
  /-- No mbuf is freed twice, accepted twice, or freed after it was accepted. -/
  released : ((s.trace.flatMap DatapathEvent.released).map RteMbuf.addr).Nodup
  /-- The mbufs freed as filtered are those the engine matched. -/
  filtered : s.filteredPkts = matched judged
  /-- The NIC gets the packets the engine let pass in the order of reception. -/
  order : s.accepted.Sublist (letPass judged)

theorem State.released_perm (s : State σ) :
    (s.trace.flatMap DatapathEvent.released).Perm
      (s.accepted ++ s.filteredPkts ++ s.droppedPkts) := by
  have inner := List.flatMap_append_perm s.trace DatapathEvent.accepted DatapathEvent.filtered
  have outer := List.flatMap_append_perm s.trace
    (fun event => event.accepted ++ event.filtered) DatapathEvent.dropped
  exact ((inner.append_right _).trans outer).symm

theorem Boundary.owned {s : State σ} {judged : List (RteMbuf × Bool)} {arrivals : List RteMbuf}
    (boundary : Boundary base s judged) (all : judged.map Prod.fst = arrivals)
    (distinct : (arrivals.map RteMbuf.addr).Nodup) : Owned s arrivals judged := by
  have received := boundary.received_eq.trans all
  have once : ((s.accepted ++ s.filteredPkts ++ s.droppedPkts ++ s.queued).map
      RteMbuf.addr).Nodup := by
    rw [← received] at distinct
    exact (boundary.custody.map RteMbuf.addr).nodup_iff.mp distinct
  refine ⟨⟨received, all⟩, boundary.custody, once, ?_, boundary.filteredPkts_eq, ?_⟩
  · rw [List.map_append] at once
    exact (s.released_perm.map RteMbuf.addr).nodup_iff.mpr once.of_append_left
  · exact (List.sublist_append_left _ _).trans boundary.order

/-- **Every mbuf has one owner, and the NIC gets packets in order.** At every iteration
boundary of every run of `bridge_main_loop`, and of `bridge_loop_optimized` up to its
return, on bursts of distinct mbufs. -/
theorem mbufs_have_one_owner (driver : TxDriver) (tscHz : UInt64) {s₀ : State σ}
    (fresh : s₀.Fresh) :
    (∀ (engine : Engine σ) (inputs : List Bridge.Input),
      ((Bridge.arrivals inputs).map RteMbuf.addr).Nodup →
      ∃ s, Bridge.bridgeMainLoop driver engine tscHz s₀ inputs = some s ∧
        Owned s (Bridge.arrivals inputs) (Bridge.verdicts engine s₀.engine inputs)) ∧
    (∀ (engine4 : Engine4 σ) (engine : Engine1 σ) (inputs : List BridgeOptimized.Input),
      ((BridgeOptimized.arrivals inputs).map RteMbuf.addr).Nodup →
      ∃ status s,
        BridgeOptimized.bridgeLoopOptimized driver engine4 engine tscHz s₀ inputs =
          some (status, s) ∧
        Owned s (BridgeOptimized.arrivals inputs)
          (BridgeOptimized.verdicts engine4 engine s₀.engine inputs)) := by
  constructor
  · intro engine inputs distinct
    obtain ⟨s, run, boundary⟩ :=
      Bridge.bridgeMainLoop_boundary (.fresh fresh) driver engine tscHz inputs
    exact ⟨s, run, boundary.owned (Bridge.verdicts_fst engine _ inputs) distinct⟩
  · intro engine4 engine inputs distinct
    obtain ⟨status, s, run, boundary⟩ :=
      BridgeOptimized.bridgeLoopOptimized_boundary (.fresh fresh) driver engine4 engine tscHz
        inputs
    exact ⟨status, s, run,
      boundary.owned (BridgeOptimized.verdicts_fst engine4 engine _ inputs) distinct⟩

/-- Two packets, of which the engine matches the second: for the plain loop in one burst,
for the optimized one in two bursts with a STOP after them. -/
theorem mbufs_have_one_owner_twoPackets :
    let p : RteMbuf := ⟨1, 0, 60, [0]⟩
    let q : RteMbuf := ⟨2, 0, 60, [1]⟩
    (∃ s, Bridge.bridgeMainLoop ⟨fun _ pkts => pkts.length, fun _ _ => Nat.le_refl _⟩
        (fun e data _ => (if data = [1] then 1 else 0, e)) 1000000 (State.initial ())
        [⟨0, ⟨[p, q], by decide⟩⟩] = some s ∧
      Owned s [p, q] [(p, false), (q, true)]) ∧
    (∃ status s, BridgeOptimized.bridgeLoopOptimized
        ⟨fun _ pkts => pkts.length, fun _ _ => Nat.le_refl _⟩ (fun e _ ret => (ret, e))
        (fun e m ret => (if m.data = [1] then 1 else ret, e)) 1000000 (State.initial ())
        [⟨0, none, ⟨[p], by decide⟩⟩, ⟨200, some .ping, ⟨[q], by decide⟩⟩,
          ⟨300, some .stop, ⟨[p], by decide⟩⟩] = some (status, s) ∧
      Owned s [p, q] [(p, false), (q, true)]) := by
  have owner := mbufs_have_one_owner
    ⟨fun _ pkts => pkts.length, fun _ _ => Nat.le_refl _⟩ 1000000 (State.Fresh.initial ())
  exact ⟨owner.1 _ _ (by decide), owner.2 _ _ _ (by decide)⟩

end DdosFiltering.Datapath
