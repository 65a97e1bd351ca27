import DdosFiltering.Datapath.Occupancy

/-!
# What STOP loses

`bridge_loop_optimized` returns as soon as it reads STOP, before it drains the transmit table.
So the packets that wait in the table are neither handed to the NIC nor freed, and no counter
but the received one knows of them. How many wait is known (`Datapath.Occupancy`), so that a
run that returns has lost nothing exactly when the packets that have passed since the timer was
last due fill whole bursts (`losesNothing_iff`).
-/

set_option autoImplicit false

namespace DdosFiltering.Datapath

variable {σ : Type} {base : BridgePortStatistics}

/-- Every packet of a run is with the NIC or freed, and the counters, which started at `base`,
say so. -/
structure LosesNothing (base : BridgePortStatistics) (s : State σ) (arrivals : List RteMbuf) :
    Prop where
  empty : s.txLength = 0
  received : s.received = arrivals
  released : arrivals.Perm (s.accepted ++ s.filteredPkts ++ s.droppedPkts)
  counters : s.stats.rx - base.rx =
    s.stats.tx - base.tx + (s.stats.filtered - base.filtered) + (s.stats.dropped - base.dropped)

theorem State.queued_eq_nil {s : State σ} (empty : s.txLength = 0) : s.queued = [] := by
  have none_waits : s.slaveConf.mbufTx.length = 0 := empty
  rw [State.queued, MbufTable.queued, none_waits, List.take_zero]

/-- At a boundary, packets are lost exactly if some wait. -/
theorem Boundary.losesNothing_iff_empty {s : State σ} {judged : List (RteMbuf × Bool)}
    {arrivals : List RteMbuf} (boundary : Boundary base s judged)
    (all : judged.map Prod.fst = arrivals) :
    LosesNothing base s arrivals ↔ s.txLength = 0 := by
  constructor
  · intro lossless
    exact lossless.empty
  · intro empty
    have received := boundary.received_eq.trans all
    have custody := boundary.custody
    have packets := boundary.packets
    rw [State.queued_eq_nil empty, List.append_nil, received] at custody
    have zero : UInt64.ofNat 0 = 0 := rfl
    rw [empty, zero, UInt64.add_zero] at packets
    exact ⟨empty, received, custody, packets⟩

namespace BridgeOptimized

/-- A run that reads STOP returns. -/
theorem bridgeLoopOptimized_returns (driver : TxDriver) (engine4 : Engine4 σ)
    (engine : Engine1 σ) (tscHz : UInt64) {s₀ : State σ} (fresh : s₀.Fresh) (inputs : List Input)
    (stop : ∃ input ∈ inputs, input.cmd = some .stop) :
    ∃ s, bridgeLoopOptimized driver engine4 engine tscHz s₀ inputs = some (.returned, s) := by
  obtain ⟨input, read, isStop⟩ := stop
  obtain ⟨status, s, run, -⟩ :=
    bridgeLoopOptimized_boundary (.fresh fresh) driver engine4 engine tscHz inputs
  cases status with
  | running => exact absurd isStop ((running_iff run).mp rfl input read)
  | returned => exact ⟨s, run⟩

/-- **What STOP loses.** A run from an empty table that returns has lost no packet exactly when
the number of packets that have passed since the timer was last due, or since the start, is a
multiple of the burst size. -/
theorem losesNothing_iff {driver : TxDriver} {engine4 : Engine4 σ} {engine : Engine1 σ}
    {tscHz : UInt64} {inputs : List Input} {s₀ s : State σ} (fresh : s₀.Fresh)
    (run : bridgeLoopOptimized driver engine4 engine tscHz s₀ inputs = some (.returned, s)) :
    LosesNothing s₀.stats s (arrivals inputs) ↔
      maxPktBurst ∣
        passedCount (sinceDue tscHz (ticks engine4 engine s₀.engine (served inputs))) := by
  obtain ⟨status, t, same, boundary⟩ :=
    bridgeLoopOptimized_boundary (.fresh fresh) driver engine4 engine tscHz inputs
  obtain ⟨-, rfl⟩ := Prod.mk.inj (Option.some.inj (run.symm.trans same))
  have judged := verdicts_fst engine4 engine s₀.engine inputs
  rw [List.nil_append] at boundary
  rw [boundary.losesNothing_iff_empty judged, txLength_eq_passedCount fresh run,
    Nat.dvd_iff_mod_eq_zero]

/-- A packet, an iteration in which the timer is due, and STOP. -/
theorem losesNothing_iff_drained :
    let driver : TxDriver := ⟨fun _ pkts => pkts.length, fun _ _ => Nat.le_refl _⟩
    let packet : RteMbuf := ⟨1, 0, 60, []⟩
    ∃ s, bridgeLoopOptimized driver (fun e _ ret => (ret, e)) (fun e _ ret => (ret, e)) 1000000
        (State.initial ()) [⟨0, none, ⟨[packet], by decide⟩⟩, ⟨200, some .ping, ⟨[], by decide⟩⟩,
          ⟨300, some .stop, ⟨[], by decide⟩⟩] = some (.returned, s) ∧
      LosesNothing {} s [packet] := by
  intro driver packet
  obtain ⟨s, run⟩ := bridgeLoopOptimized_returns driver (fun e _ ret => (ret, e))
    (fun e _ ret => (ret, e)) 1000000 (State.Fresh.initial ())
    [⟨0, none, ⟨[packet], by decide⟩⟩, ⟨200, some .ping, ⟨[], by decide⟩⟩,
      ⟨300, some .stop, ⟨[], by decide⟩⟩] (by decide)
  exact ⟨s, run, (losesNothing_iff (.initial ()) run).mpr (by decide)⟩

/-- A packet and STOP: the packet waits in the table when the loop returns. -/
theorem stop_loses_packet :
    let driver : TxDriver := ⟨fun _ pkts => pkts.length, fun _ _ => Nat.le_refl _⟩
    let packet : RteMbuf := ⟨1, 0, 60, []⟩
    ∃ s, bridgeLoopOptimized driver (fun e _ ret => (ret, e)) (fun e _ ret => (ret, e)) 1000000
        (State.initial ()) [⟨0, none, ⟨[packet], by decide⟩⟩, ⟨0, some .stop, ⟨[], by decide⟩⟩] =
          some (.returned, s) ∧
      s.txLength = 1 ∧ ¬LosesNothing {} s [packet] := by
  intro driver packet
  obtain ⟨s, run⟩ := bridgeLoopOptimized_returns driver (fun e _ ret => (ret, e))
    (fun e _ ret => (ret, e)) 1000000 (State.Fresh.initial ())
    [⟨0, none, ⟨[packet], by decide⟩⟩, ⟨0, some .stop, ⟨[], by decide⟩⟩] (by decide)
  have waits : s.txLength = 1 := (txLength_eq_passedCount (.initial ()) run).trans (by decide)
  refine ⟨s, run, waits, ?_⟩
  intro lossless
  exact Nat.one_ne_zero (waits.symm.trans lossless.empty)

end BridgeOptimized

end DdosFiltering.Datapath
