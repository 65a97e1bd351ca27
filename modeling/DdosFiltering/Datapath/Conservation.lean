import DdosFiltering.Datapath.Settle
import DdosFiltering.Foundation.Custody

/-!
# What becomes of the packets

The packets of a run obey the custody discipline of `Foundation.Custody`: the transmit
table is the buffer, `rte_eth_tx_burst` hands a prefix of it to the NIC, and the rest is
freed. `Books` reads every counter, the table and the trace of a state off the ledger of
what became of the packets, and `Room` says that the table has a free slot. Every step of
either loop keeps both (`Books.settleAll`, `Books.drain`).

At the end of an iteration every received packet has been judged (`Boundary`). There the
counters are conserved (`Boundary.packets`, `Boundary.bytes`) and every packet is in one
place (`Boundary.custody`).
-/

set_option autoImplicit false

namespace DdosFiltering.Datapath

open Foundation

variable {σ : Type}

/-! ## The effect of `bridge_send_burst` -/

theorem bytes_eq (m : RteMbuf) : m.dataLen.toUInt64 = UInt64.ofNat m.bytes := by
  refine UInt64.toNat_inj.mp ?_
  have small : m.bytes < 2 ^ 64 :=
    lt_of_lt_of_le m.dataLen.toNat_lt (by decide)
  rw [UInt64.toNat_ofNat_of_lt' small]
  rfl

/-- Freeing the unsent packets adds up their bytes. -/
theorem foldl_freeDropped_eq (pkts : List RteMbuf) (s : State σ) :
    pkts.foldl State.freeDropped s =
      { s with
        stats.droppedB := s.stats.droppedB + UInt64.ofNat (totalBytes pkts)
        trace := s.trace ++ pkts.map .freeDropped } := by
  induction pkts generalizing s with
  | nil => simp
  | cons m pkts inductionHypothesis =>
      rw [List.foldl_cons, inductionHypothesis]
      simp only [State.freeDropped, bytes_eq, totalBytes_cons, UInt64.ofNat_add,
        UInt64.add_assoc, List.map_cons, List.append_assoc, List.cons_append, List.nil_append]

/-- How many packets the next call of `rte_eth_tx_burst` accepts. -/
def State.taken (driver : TxDriver) (s : State σ) (n : ℕ) : ℕ :=
  driver.accept s.txCalls (s.txSlots n)

theorem State.length_txSlots (s : State σ) {n : ℕ} (fits : n ≤ maxPktBurst) :
    (s.txSlots n).length = n := by
  simpa [State.txSlots] using fits

/-- `bridge_send_burst` hands over a prefix of the slots and frees the rest. -/
theorem bridgeSendBurst_eq (driver : TxDriver) (s : State σ) {n : ℕ} (fits : n ≤ maxPktBurst) :
    Bridge.bridgeSendBurst driver s n =
      { s with
        stats.tx := s.stats.tx + UInt64.ofNat ((s.txSlots n).take (s.taken driver n)).length
        stats.dropped :=
          s.stats.dropped + UInt64.ofNat ((s.txSlots n).drop (s.taken driver n)).length
        stats.droppedB :=
          s.stats.droppedB + UInt64.ofNat (totalBytes ((s.txSlots n).drop (s.taken driver n)))
        txCalls := s.txCalls + 1
        trace := s.trace ++
          .txBurst s.slaveConf.portTx s.slaveConf.queueTx (s.txSlots n) (s.taken driver n) ::
            ((s.txSlots n).drop (s.taken driver n)).map .freeDropped } := by
  have length := s.length_txSlots fits
  have taken_le : s.taken driver n ≤ n :=
    (driver.accept_le s.txCalls (s.txSlots n)).trans length.le
  have handedOver : ((s.txSlots n).take (s.taken driver n)).length = s.taken driver n := by
    rw [List.length_take, length, Nat.min_eq_left taken_le]
  have left : ((s.txSlots n).drop (s.taken driver n)).length = n - s.taken driver n := by
    rw [List.length_drop, length]
  rw [handedOver, left]
  unfold Bridge.bridgeSendBurst
  by_cases short : s.taken driver n < n
  · simp only [State.taken] at short ⊢
    simp only [if_pos short, foldl_freeDropped_eq]
    simp [State.transmitted, State.countDropped]
  · have all : s.taken driver n = n := Nat.le_antisymm taken_le (Nat.not_lt.mp short)
    have nothing : (s.txSlots n).drop n = [] := List.drop_of_length_le length.le
    simp only [State.taken] at short all ⊢
    simp only [if_neg short]
    rw [all, nothing]
    simp [State.transmitted]

/-! ## The ledger of a run -/

/-- The counters since `base`, the transmit table and the trace say what the ledger says. -/
structure Books (base : BridgePortStatistics) (s : State σ) (l : Ledger RteMbuf) : Prop where
  rx : s.stats.rx = base.rx + UInt64.ofNat l.arrived.length
  tx : s.stats.tx = base.tx + UInt64.ofNat l.handedOver.length
  filtered : s.stats.filtered = base.filtered + UInt64.ofNat l.refused.length
  dropped : s.stats.dropped = base.dropped + UInt64.ofNat l.discarded.length
  rxB : s.stats.rxB = base.rxB + UInt64.ofNat (totalBytes (l.judged.map Prod.fst))
  filteredB : s.stats.filteredB = base.filteredB + UInt64.ofNat (totalBytes l.refused)
  droppedB : s.stats.droppedB = base.droppedB + UInt64.ofNat (totalBytes l.discarded)
  received : s.received = l.arrived
  accepted : s.accepted = l.handedOver
  filteredPkts : s.filteredPkts = l.refused
  droppedPkts : s.droppedPkts = l.discarded
  queued : s.queued = l.waiting
  length : s.txLength = l.waiting.length

variable {base : BridgePortStatistics}

/-- The transmit table has a free slot. -/
def State.Room (s : State σ) : Prop := s.txLength < maxPktBurst

theorem Books.fresh {s : State σ} (fresh : s.Fresh) : Books s.stats s Ledger.empty := by
  have noPackets : ∀ f : DatapathEvent → List RteMbuf, s.trace.flatMap f = [] := by
    simp [fresh.trace]
  have noQueue : s.queued = [] := by
    have zero : s.slaveConf.mbufTx.length = 0 := fresh.length
    simp [State.queued, MbufTable.queued, zero]
  constructor <;>
    simp [fresh.length, Ledger.empty, Ledger.arrived, Ledger.refused, noQueue,
      State.received, State.accepted, State.filteredPkts, State.droppedPkts, noPackets]

theorem State.Room.emptied (s : State σ) : (s.setLength 0).Room := Nat.succ_pos 63

theorem State.Room.fresh {s : State σ} (fresh : s.Fresh) : s.Room := by
  rw [State.Room, fresh.length]
  decide

theorem Books.withEngine {s : State σ} {l : Ledger RteMbuf} (books : Books base s l) (e : σ) :
    Books base (s.withEngine e) l :=
  ⟨books.rx, books.tx, books.filtered, books.dropped, books.rxB, books.filteredB, books.droppedB,
    books.received, books.accepted, books.filteredPkts, books.droppedPkts, books.queued,
    books.length⟩

/-- Recording an event that moves no packet. -/
theorem Books.logEcho {s : State σ} {l : Ledger RteMbuf} (books : Books base s l) (c : BridgeCmd) :
    Books base (s.log (.echo c)) l := by
  have received : (s.log (.echo c)).received = s.received := by
    simp [State.received, State.log, DatapathEvent.received]
  have accepted : (s.log (.echo c)).accepted = s.accepted := by
    simp [State.accepted, State.log, DatapathEvent.accepted]
  have filteredPkts : (s.log (.echo c)).filteredPkts = s.filteredPkts := by
    simp [State.filteredPkts, State.log, DatapathEvent.filtered]
  have droppedPkts : (s.log (.echo c)).droppedPkts = s.droppedPkts := by
    simp [State.droppedPkts, State.log, DatapathEvent.dropped]
  exact ⟨books.rx, books.tx, books.filtered, books.dropped, books.rxB, books.filteredB,
    books.droppedB, received ▸ books.received, accepted ▸ books.accepted,
    filteredPkts ▸ books.filteredPkts, droppedPkts ▸ books.droppedPkts, books.queued, books.length⟩

/-- Receiving a burst and counting its packets. -/
theorem Books.arrive {s : State σ} {l : Ledger RteMbuf} (books : Books base s l)
    (port queue : UInt8) (pkts : List RteMbuf) :
    Books base ((s.log (.rxBurst port queue pkts)).countRx pkts.length) (l.arrive pkts) where
  rx := by simp [State.countRx, State.log, books.rx, UInt64.add_assoc]
  tx := books.tx
  filtered := books.filtered
  dropped := books.dropped
  rxB := books.rxB
  filteredB := books.filteredB
  droppedB := books.droppedB
  received := by
    rw [Ledger.arrived_arrive, ← books.received]
    simp [State.received, State.countRx, State.log, DatapathEvent.received]
  accepted := by
    refine Eq.trans ?_ books.accepted
    simp [State.accepted, State.countRx, State.log, DatapathEvent.accepted]
  filteredPkts := by
    refine Eq.trans ?_ books.filteredPkts
    simp [State.filteredPkts, State.countRx, State.log, DatapathEvent.filtered]
  droppedPkts := by
    refine Eq.trans ?_ books.droppedPkts
    simp [State.droppedPkts, State.countRx, State.log, DatapathEvent.dropped]
  queued := books.queued
  length := books.length

theorem received_map_freeDropped (pkts : List RteMbuf) :
    (pkts.map DatapathEvent.freeDropped).flatMap DatapathEvent.received = [] := by
  induction pkts with
  | nil => rfl
  | cons m pkts inductionHypothesis => exact inductionHypothesis

theorem accepted_map_freeDropped (pkts : List RteMbuf) :
    (pkts.map DatapathEvent.freeDropped).flatMap DatapathEvent.accepted = [] := by
  induction pkts with
  | nil => rfl
  | cons m pkts inductionHypothesis => exact inductionHypothesis

theorem filtered_map_freeDropped (pkts : List RteMbuf) :
    (pkts.map DatapathEvent.freeDropped).flatMap DatapathEvent.filtered = [] := by
  induction pkts with
  | nil => rfl
  | cons m pkts inductionHypothesis => exact inductionHypothesis

theorem dropped_map_freeDropped (pkts : List RteMbuf) :
    (pkts.map DatapathEvent.freeDropped).flatMap DatapathEvent.dropped = pkts := by
  induction pkts with
  | nil => rfl
  | cons m pkts inductionHypothesis => exact congrArg (List.cons m) inductionHypothesis

/-- Sending the whole table empties it. -/
theorem Books.flush {s : State σ} {l : Ledger RteMbuf} (books : Books base s l) (driver : TxDriver)
    (fits : s.txLength ≤ maxPktBurst) :
    Books base ((Bridge.bridgeSendBurst driver s s.txLength).setLength 0)
      (l.flush (s.taken driver s.txLength)) := by
  have slots : s.txSlots s.txLength = l.waiting := books.queued
  rw [bridgeSendBurst_eq driver s fits, slots]
  refine
    { rx := books.rx
      tx := ?_
      filtered := books.filtered
      dropped := ?_
      rxB := books.rxB
      filteredB := books.filteredB
      droppedB := ?_
      received := ?_
      accepted := ?_
      filteredPkts := ?_
      droppedPkts := ?_
      queued := rfl
      length := rfl }
  · simp only [State.setLength, books.tx, Ledger.flush, List.length_append, UInt64.ofNat_add,
      UInt64.add_assoc]
  · simp only [State.setLength, books.dropped, Ledger.flush, List.length_append, UInt64.ofNat_add,
      UInt64.add_assoc]
  · simp only [State.setLength, books.droppedB, Ledger.flush, totalBytes_append,
      UInt64.ofNat_add, UInt64.add_assoc]
  · refine Eq.trans ?_ books.received
    simp only [State.received, State.setLength, List.flatMap_append, List.flatMap_cons,
      received_map_freeDropped, DatapathEvent.received, List.append_nil]
  · rw [Ledger.flush, ← books.accepted]
    simp only [State.accepted, State.setLength, List.flatMap_append, List.flatMap_cons,
      accepted_map_freeDropped, DatapathEvent.accepted, List.append_nil]
  · refine Eq.trans ?_ books.filteredPkts
    simp only [State.filteredPkts, State.setLength, List.flatMap_append, List.flatMap_cons,
      filtered_map_freeDropped, DatapathEvent.filtered, List.append_nil]
  · rw [Ledger.flush, ← books.droppedPkts]
    simp only [State.droppedPkts, State.setLength, List.flatMap_append, List.flatMap_cons,
      dropped_map_freeDropped, DatapathEvent.dropped, List.nil_append]

/-- Freeing a packet the engine matched. -/
theorem Books.refuse {s : State σ} {l : Ledger RteMbuf} (books : Books base s l) {m : RteMbuf}
    {rest : List RteMbuf} (first : l.inbox = m :: rest) :
    Books base ((s.countRxBytes m).freeFiltered m) (l.refuse m rest) where
  rx := by rw [Ledger.arrived_refuse first]; exact books.rx
  tx := books.tx
  filtered := by
    simp [State.freeFiltered, State.countRxBytes, books.filtered, UInt64.add_assoc]
  dropped := books.dropped
  rxB := by
    simp [State.freeFiltered, State.countRxBytes, books.rxB, Ledger.refuse, bytes_eq,
      UInt64.add_assoc]
  filteredB := by
    simp [State.freeFiltered, State.countRxBytes, books.filteredB, bytes_eq, UInt64.add_assoc]
  droppedB := books.droppedB
  received := by
    rw [Ledger.arrived_refuse first, ← books.received]
    simp [State.received, State.freeFiltered, State.countRxBytes, DatapathEvent.received]
  accepted := by
    refine Eq.trans ?_ books.accepted
    simp [State.accepted, State.freeFiltered, State.countRxBytes, DatapathEvent.accepted]
  filteredPkts := by
    rw [Ledger.refused_refuse, ← books.filteredPkts]
    simp [State.filteredPkts, State.freeFiltered, State.countRxBytes, DatapathEvent.filtered]
  droppedPkts := by
    refine Eq.trans ?_ books.droppedPkts
    simp [State.droppedPkts, State.freeFiltered, State.countRxBytes, DatapathEvent.dropped]
  queued := books.queued
  length := books.length

/-- The first `i + 1` slots after a store into slot `i`. -/
theorem State.txSlots_storeMbuf (s : State σ) {i : ℕ} (inside : i < maxPktBurst) (m : RteMbuf) :
    (s.storeMbuf i inside m).txSlots (i + 1) = s.txSlots i ++ [m] := by
  have stored : (s.storeMbuf i inside m).slaveConf.mbufTx.mbufs.toList =
      s.slaveConf.mbufTx.mbufs.toList.set i m := by
    simp [State.storeMbuf, Vector.toList_set]
  have untouched : (s.slaveConf.mbufTx.mbufs.toList.set i m).take i =
      s.slaveConf.mbufTx.mbufs.toList.take i := List.take_set_of_le (Nat.le_refl i)
  rw [State.txSlots, State.txSlots, stored, List.take_add_one, untouched]
  simp [inside]

/-- Storing a packet the engine let pass. -/
theorem Books.pass {s : State σ} {l : Ledger RteMbuf} (books : Books base s l) {m : RteMbuf}
    {rest : List RteMbuf} (first : l.inbox = m :: rest) (inside : s.txLength < maxPktBurst) :
    Books base (((s.countRxBytes m).storeMbuf s.txLength inside m).setLength (s.txLength + 1))
      (l.pass m rest) where
  rx := by rw [Ledger.arrived_pass first]; exact books.rx
  tx := books.tx
  filtered := by rw [Ledger.refused_pass]; exact books.filtered
  dropped := books.dropped
  rxB := by
    simp [State.setLength, State.storeMbuf, State.countRxBytes, books.rxB, Ledger.pass, bytes_eq,
      UInt64.add_assoc]
  filteredB := by rw [Ledger.refused_pass]; exact books.filteredB
  droppedB := books.droppedB
  received := by rw [Ledger.arrived_pass first]; exact books.received
  accepted := books.accepted
  filteredPkts := by rw [Ledger.refused_pass]; exact books.filteredPkts
  droppedPkts := books.droppedPkts
  queued := by
    have waiting : s.txSlots s.txLength = l.waiting := books.queued
    rw [Ledger.pass, ← waiting]
    exact (s.countRxBytes m).txSlots_storeMbuf inside m
  length := by
    simp [State.setLength, State.txLength, Ledger.pass, ← books.length]

/-! ## Steps of the loops -/

/-- From `s` with ledger `l` the loop has come to `t` with ledger `l'`, and its transmit
table has room. -/
structure Advanced (base : BridgePortStatistics) (t : State σ) (l l' : Ledger RteMbuf) : Prop where
  books : Books base t l'
  room : t.Room
  moves : Moves l l'

/-- Emptying the table, at the end of `bridge_add_packet` or of a drain. -/
theorem Books.advancedFlush {s : State σ} {l : Ledger RteMbuf} (books : Books base s l)
    (driver : TxDriver) (fits : s.txLength ≤ maxPktBurst) :
    Advanced base ((Bridge.bridgeSendBurst driver s s.txLength).setLength 0) l
      (l.flush (s.taken driver s.txLength)) where
  books := books.flush driver fits
  room := .emptied _
  moves := .single (.flush l _)

/-- `bridge_send_burst` does not look at the length of the table. -/
theorem bridgeSendBurst_setLength (driver : TxDriver) (s : State σ) {n : ℕ}
    (fits : n ≤ maxPktBurst) (k : ℕ) :
    (Bridge.bridgeSendBurst driver (s.setLength k) n).setLength 0 =
      (Bridge.bridgeSendBurst driver s n).setLength 0 := by
  rw [bridgeSendBurst_eq driver _ fits, bridgeSendBurst_eq driver _ fits]
  rfl

/-- `bridge_add_packet` on a table with room succeeds, and there is room again after it. -/
theorem Books.bridgeAddPacket {s : State σ} {l : Ledger RteMbuf} (books : Books base s l)
    (room : s.Room) (driver : TxDriver) {m : RteMbuf} {rest : List RteMbuf}
    (first : l.inbox = m :: rest) :
    ∃ t l', Bridge.bridgeAddPacket driver (s.countRxBytes m) m = some (0, t) ∧
      Advanced base t l l' ∧ l'.judged = l.judged ++ [(m, true)] ∧ l'.inbox = rest := by
  have inside : s.txLength < maxPktBurst := room
  have sameLength : (s.countRxBytes m).txLength = s.txLength := rfl
  have stored := books.pass first inside
  unfold Bridge.bridgeAddPacket
  simp only [sameLength, dif_pos inside]
  by_cases full : s.txLength + 1 = maxPktBurst
  · rw [if_pos full]
    have flushed := stored.advancedFlush driver (Nat.le_of_eq full)
    have length : (((s.countRxBytes m).storeMbuf s.txLength inside m).setLength
        (s.txLength + 1)).txLength = maxPktBurst := full
    rw [length, bridgeSendBurst_setLength driver _ (Nat.le_refl _)] at flushed
    have moves := (Relation.ReflTransGen.single (.pass first)).trans flushed.moves
    exact ⟨_, (l.pass m rest).flush _, rfl, ⟨flushed.books, flushed.room, moves⟩, rfl, rfl⟩
  · rw [if_neg full]
    have room' : s.txLength + 1 < maxPktBurst := Nat.lt_of_le_of_ne inside full
    exact ⟨_, l.pass m rest, rfl, ⟨stored, room', .single (.pass first)⟩, rfl, rfl⟩

/-- **Settling a packet of the inbox succeeds and judges it.** -/
theorem Books.settle {s : State σ} {l : Ledger RteMbuf} (books : Books base s l) (room : s.Room)
    (driver : TxDriver) {m : RteMbuf} {rest : List RteMbuf} (drop : Bool)
    (first : l.inbox = m :: rest) :
    ∃ t l', settle driver s m drop = some t ∧ Advanced base t l l' ∧
      l'.judged = l.judged ++ [(m, !drop)] ∧ l'.inbox = rest := by
  cases drop with
  | true =>
      exact ⟨_, l.refuse m rest, rfl, ⟨books.refuse first, room, .single (.refuse first)⟩, rfl, rfl⟩
  | false =>
      obtain ⟨t, l', added, advanced, judged, inbox⟩ := books.bridgeAddPacket room driver first
      refine ⟨t, l', ?_, advanced, judged, inbox⟩
      simp [Datapath.settle, added]

/-- The judgements of the ledger that a list of verdicts stands for. -/
def judgements (judged : List (RteMbuf × Bool)) : List (RteMbuf × Bool) :=
  judged.map fun j => (j.1, !j.2)

theorem judgements_append (front back : List (RteMbuf × Bool)) :
    judgements (front ++ back) = judgements front ++ judgements back := List.map_append

/-- **Settling all packets of the inbox succeeds and judges them.** -/
theorem Books.settleAll (driver : TxDriver) {judged : List (RteMbuf × Bool)} {s : State σ}
    {l : Ledger RteMbuf} (books : Books base s l) (room : s.Room)
    (inbox : l.inbox = judged.map Prod.fst) :
    ∃ t l', settleAll driver s judged = some t ∧ Advanced base t l l' ∧
      l'.judged = l.judged ++ judgements judged ∧ l'.inbox = [] := by
  induction judged generalizing s l with
  | nil => exact ⟨s, l, rfl, ⟨books, room, .refl⟩, by simp [judgements], inbox⟩
  | cons j judged inductionHypothesis =>
      obtain ⟨s', l', settled, step, judgedOne, rest⟩ := books.settle room driver j.2 inbox
      obtain ⟨t, l'', settledAll, run, judgedRest, empty⟩ :=
        inductionHypothesis step.books step.room rest
      refine ⟨t, l'', ?_, ⟨run.books, run.room, step.moves.trans run.moves⟩, ?_, empty⟩
      · rw [settleAll_cons, settled]
        exact settledAll
      · rw [judgedRest, judgedOne]
        simp [judgements]

/-- The timer drain keeps the books. -/
theorem Books.drain {s : State σ} {l : Ledger RteMbuf} (books : Books base s l) (room : s.Room)
    (driver : TxDriver) (tscHz curTsc : UInt64) :
    ∃ l', Advanced base (Bridge.drain driver tscHz curTsc s) l l' ∧ l'.judged = l.judged ∧
      l'.inbox = l.inbox := by
  unfold Bridge.drain
  by_cases due : curTsc - prevTsc > drainTsc tscHz
  · by_cases waiting : s.txLength ≠ 0
    · simp only [if_pos due, if_pos waiting]
      exact ⟨_, books.advancedFlush driver (Nat.le_of_lt room), rfl, rfl⟩
    · simp only [if_pos due, if_neg waiting]
      exact ⟨l, ⟨books, room, .refl⟩, rfl, rfl⟩
  · simp only [if_neg due]
    exact ⟨l, ⟨books, room, .refl⟩, rfl, rfl⟩

theorem drain_engine (driver : TxDriver) (tscHz curTsc : UInt64) (s : State σ) (room : s.Room) :
    (Bridge.drain driver tscHz curTsc s).engine = s.engine := by
  unfold Bridge.drain
  by_cases due : curTsc - prevTsc > drainTsc tscHz
  · by_cases waiting : s.txLength ≠ 0
    · simp only [if_pos due, if_pos waiting]
      rw [bridgeSendBurst_eq driver s (Nat.le_of_lt room)]
      rfl
    · simp only [if_pos due, if_neg waiting]
  · simp only [if_neg due]

/-! ## The end of an iteration -/

/-- A state between two iterations, when the engine has given the verdicts `judged` so far. -/
structure Boundary (base : BridgePortStatistics) (s : State σ)
    (judged : List (RteMbuf × Bool)) : Prop where
  room : s.Room
  ledger : ∃ l, Kept l ∧ Books base s l ∧ l.inbox = [] ∧ l.judged = judgements judged

theorem Boundary.fresh {s : State σ} (fresh : s.Fresh) : Boundary s.stats s [] where
  room := .fresh fresh
  ledger := ⟨Ledger.empty, .empty, .fresh fresh, rfl, rfl⟩

theorem Boundary.logEcho {s : State σ} {judged : List (RteMbuf × Bool)}
    (boundary : Boundary base s judged) (c : BridgeCmd) :
    Boundary base (s.log (.echo c)) judged := by
  obtain ⟨l, kept, books, inbox, judgedSoFar⟩ := boundary.ledger
  exact ⟨boundary.room, l, kept, books.logEcho c, inbox, judgedSoFar⟩

theorem Boundary.drain {s : State σ} {judged : List (RteMbuf × Bool)}
    (boundary : Boundary base s judged) (driver : TxDriver) (tscHz curTsc : UInt64) :
    Boundary base (Bridge.drain driver tscHz curTsc s) judged := by
  obtain ⟨l, kept, books, inbox, judgedSoFar⟩ := boundary.ledger
  obtain ⟨l', advanced, sameJudged, sameInbox⟩ := books.drain boundary.room driver tscHz curTsc
  exact ⟨advanced.room, l', kept.moves advanced.moves, advanced.books, sameInbox.trans inbox,
    sameJudged.trans judgedSoFar⟩

/-- **Receiving a burst and settling it with any verdicts leads to the next boundary.** -/
theorem Boundary.burst {s : State σ} {before : List (RteMbuf × Bool)}
    (boundary : Boundary base s before) (driver : TxDriver) (port queue : UInt8)
    (judged : List (RteMbuf × Bool) × σ) {pkts : List RteMbuf}
    (all : judged.1.map Prod.fst = pkts) :
    ∃ t, settleJudged driver ((s.log (.rxBurst port queue pkts)).countRx pkts.length) judged =
        some t ∧ Boundary base t (before ++ judged.1) ∧ t.engine = judged.2 := by
  obtain ⟨l, kept, books, inbox, judgedSoFar⟩ := boundary.ledger
  have arrived : (l.arrive pkts).inbox = judged.1.map Prod.fst := by
    rw [Ledger.arrive, inbox, List.nil_append, all]
  obtain ⟨t, l', settled, advanced, judgedAll, empty⟩ :=
    (books.arrive port queue pkts).settleAll driver boundary.room arrived
  have moves : Moves l l' := advanced.moves.head (.arrive l pkts)
  refine ⟨t.withEngine judged.2, ?_, ⟨advanced.room, l', kept.moves moves,
    advanced.books.withEngine judged.2, empty, ?_⟩, rfl⟩
  · rw [settleJudged, settled]
    rfl
  · rw [judgedAll, judgements_append, ← judgedSoFar]
    rfl

/-- The packets among judged ones that the engine let pass. -/
def letPass (judged : List (RteMbuf × Bool)) : List RteMbuf :=
  (judged.filter fun j => !j.2).map Prod.fst

/-- The packets among judged ones that the engine matched. -/
def matched (judged : List (RteMbuf × Bool)) : List RteMbuf :=
  (judged.filter fun j => j.2).map Prod.fst

theorem Ledger.passed_eq_letPass {l : Ledger RteMbuf} {judged : List (RteMbuf × Bool)}
    (same : l.judged = judgements judged) : l.passed = letPass judged := by
  rw [Ledger.passed, same, judgements, List.filter_map, List.map_map]
  rfl

theorem Ledger.refused_eq_matched {l : Ledger RteMbuf} {judged : List (RteMbuf × Bool)}
    (same : l.judged = judgements judged) : l.refused = matched judged := by
  rw [Ledger.refused, same, judgements, List.filter_map, List.map_map, matched]
  simp [Function.comp_def]

theorem totalBytes_perm {front back : List RteMbuf} (perm : front.Perm back) :
    totalBytes front = totalBytes back := (perm.map RteMbuf.bytes).sum_nat

namespace Boundary

variable {s : State σ} {judged : List (RteMbuf × Bool)}

/-- Every received packet is in one place. -/
theorem custody (boundary : Boundary base s judged) :
    s.received.Perm (s.accepted ++ s.filteredPkts ++ s.droppedPkts ++ s.queued) := by
  obtain ⟨l, kept, books, inbox, judgedSoFar⟩ := boundary.ledger
  rw [books.received, books.accepted, books.filteredPkts, books.droppedPkts, books.queued]
  exact Ledger.arrived_perm kept inbox

/-- The packets the NIC has and those it will be given next are in the order of reception. -/
theorem order (boundary : Boundary base s judged) :
    (s.accepted ++ s.queued).Sublist (letPass judged) := by
  obtain ⟨l, kept, books, inbox, judgedSoFar⟩ := boundary.ledger
  rw [books.accepted, books.queued, ← Ledger.passed_eq_letPass judgedSoFar]
  exact kept.order

theorem received_eq (boundary : Boundary base s judged) : s.received = judged.map Prod.fst := by
  obtain ⟨l, kept, books, inbox, judgedSoFar⟩ := boundary.ledger
  rw [books.received, Ledger.arrived, inbox, judgedSoFar, judgements, List.map_map,
    List.append_nil]
  rfl

theorem filteredPkts_eq (boundary : Boundary base s judged) : s.filteredPkts = matched judged := by
  obtain ⟨l, kept, books, inbox, judgedSoFar⟩ := boundary.ledger
  rw [books.filteredPkts, Ledger.refused_eq_matched judgedSoFar]

theorem filtered_eq (boundary : Boundary base s judged) :
    s.stats.filtered = base.filtered + UInt64.ofNat (matched judged).length := by
  obtain ⟨l, kept, books, inbox, judgedSoFar⟩ := boundary.ledger
  rw [books.filtered, Ledger.refused_eq_matched judgedSoFar]

/-- The packet counters add up. -/
theorem packets (boundary : Boundary base s judged) :
    s.stats.rx - base.rx =
      s.stats.tx - base.tx + (s.stats.filtered - base.filtered) +
        (s.stats.dropped - base.dropped) + UInt64.ofNat s.txLength := by
  obtain ⟨l, kept, books, inbox, judgedSoFar⟩ := boundary.ledger
  have lengths := (Ledger.arrived_perm kept inbox).length_eq
  simp only [List.length_append] at lengths
  rw [books.rx, books.tx, books.filtered, books.dropped, books.length, lengths]
  simp only [UInt64.ofNat_add]
  grind

/-- The byte counters add up. -/
theorem bytes (boundary : Boundary base s judged) :
    s.stats.rxB - base.rxB - (s.stats.filteredB - base.filteredB) -
        (s.stats.droppedB - base.droppedB) =
      UInt64.ofNat (totalBytes s.accepted + totalBytes s.queued) := by
  obtain ⟨l, kept, books, inbox, judgedSoFar⟩ := boundary.ledger
  have sums := totalBytes_perm (Ledger.arrived_perm kept inbox)
  simp only [totalBytes_append, Ledger.arrived, inbox, List.append_nil] at sums
  rw [books.rxB, books.filteredB, books.droppedB, books.accepted, books.queued, sums]
  simp only [UInt64.ofNat_add]
  grind

end Boundary

end DdosFiltering.Datapath
