import DdosFiltering.Datapath.Runs

/-!
# The statistics that the master prints

`print_stats` of `main.c` reads the counters of all configurations and adds them up. The slaves of
a configuration, one after the other, all count in the same entry of `port_statistics`, and each
leaves the packets that wait in its transmit table when it dies. So between the iterations of
the slaves, the totals that are printed add up but for the packets that wait (`totals_conserve`).
In the middle of a burst they need not: its packets are received, and not all of them are counted
as sent, filtered or dropped, or wait.
-/

set_option autoImplicit false

namespace DdosFiltering.Master

open Datapath

/-- An entry of `port_statistics`. The process number is an `int`, and not negative. -/
structure PortStatistics where
  counters : BridgePortStatistics
  pid : ℕ
  pid_lt : pid < 2 ^ 31
deriving DecidableEq

/-- `Mbytes`. -/
def mbytes : UInt64 := 8 * 1024 * 1024

/-- The numbers of one block that `print_stats` prints, by packets and by MBytes. -/
structure StatsBlock where
  sent : UInt64
  sentMbytes : UInt64
  received : UInt64
  receivedMbytes : UInt64
  filtered : UInt64
  filteredMbytes : UInt64
  dropped : UInt64
  droppedMbytes : UInt64
deriving DecidableEq

/-- The block of a configuration. -/
def statsBlock (p : BridgePortStatistics) : StatsBlock where
  sent := p.tx
  sentMbytes := (p.rxB - p.filteredB - p.droppedB) / mbytes
  received := p.rx
  receivedMbytes := p.rxB / mbytes
  filtered := p.filtered
  filteredMbytes := p.filteredB / mbytes
  dropped := p.dropped
  droppedMbytes := p.droppedB / mbytes

/-- The variables `total_packets_dropped` to `total_packets_filtered_b`. -/
structure Totals where
  dropped : UInt64 := 0
  tx : UInt64 := 0
  rx : UInt64 := 0
  filtered : UInt64 := 0
  droppedB : UInt64 := 0
  txB : UInt64 := 0
  rxB : UInt64 := 0
  filteredB : UInt64 := 0
deriving DecidableEq

/-- The totals behind one more configuration. The sent bytes are computed from the totals. -/
def Totals.add (t : Totals) (p : BridgePortStatistics) : Totals where
  dropped := t.dropped + p.dropped
  tx := t.tx + p.tx
  rx := t.rx + p.rx
  filtered := t.filtered + p.filtered
  droppedB := t.droppedB + p.droppedB
  rxB := t.rxB + p.rxB
  filteredB := t.filteredB + p.filteredB
  txB := t.rxB + p.rxB - (t.filteredB + p.filteredB) - (t.droppedB + p.droppedB)

/-- The block of the totals. -/
def Totals.block (t : Totals) : StatsBlock where
  sent := t.tx
  sentMbytes := t.txB / mbytes
  received := t.rx
  receivedMbytes := t.rxB / mbytes
  filtered := t.filtered
  filteredMbytes := t.filteredB / mbytes
  dropped := t.dropped
  droppedMbytes := t.droppedB / mbytes

/-- What `print_stats` prints: a block for each configuration, under the pid of its slave and its
id, and the aggregate statistics. -/
structure StatsScreen where
  confs : List (ℕ × ℕ × StatsBlock)
  aggregate : StatsBlock
deriving DecidableEq

/-- `print_stats`. -/
def printStats (procConfigNb : ℤ) (portStatistics : ℕ → PortStatistics) : StatsScreen :=
  let confIds := List.range procConfigNb.toNat
  let totals : Totals :=
    confIds.foldl (fun t confId => t.add (portStatistics confId).counters) {}
  { confs := confIds.map fun confId =>
      ((portStatistics confId).pid, confId, statsBlock (portStatistics confId).counters)
    aggregate := totals.block }

/-! ## What the slaves leave in an entry -/

/-- The counters of a configuration after some slaves have run with it, one after the other, each
up to the end of an iteration of its loop: the packets that waited in their transmit tables
then, and the bytes of these and of the packets that were sent. A slave that is in the middle of
a burst has counted more than this. -/
inductive LeftBehind : BridgePortStatistics → ℕ → ℕ → Prop where
  | zeroed : LeftBehind {} 0 0
  | bridgeMainLoop {σ : Type} {s₀ s : State σ} {waiting bytes : ℕ} {driver : TxDriver}
      {engine : Engine σ} {tscHz : UInt64} {inputs : List Bridge.Input}
      (before : LeftBehind s₀.stats waiting bytes) (fresh : s₀.Fresh)
      (run : Bridge.bridgeMainLoop driver engine tscHz s₀ inputs = some s) :
      LeftBehind s.stats (waiting + s.txLength)
        (bytes + (totalBytes s.accepted + totalBytes s.queued))
  | bridgeLoopOptimized {σ : Type} {s₀ s : State σ} {waiting bytes : ℕ} {driver : TxDriver}
      {engine4 : Engine4 σ} {engine : Engine1 σ} {tscHz : UInt64}
      {inputs : List BridgeOptimized.Input} {status : BridgeOptimized.Status}
      (before : LeftBehind s₀.stats waiting bytes) (fresh : s₀.Fresh)
      (run : BridgeOptimized.bridgeLoopOptimized driver engine4 engine tscHz s₀ inputs =
        some (status, s)) :
      LeftBehind s.stats (waiting + s.txLength)
        (bytes + (totalBytes s.accepted + totalBytes s.queued))

/-- The counters account for all packets but those that waited, and for their bytes. -/
structure Accounts (p : BridgePortStatistics) (waiting bytes : ℕ) : Prop where
  packets : p.rx = p.tx + p.filtered + p.dropped + UInt64.ofNat waiting
  bytes : p.rxB - p.filteredB - p.droppedB = UInt64.ofNat bytes

/-- One more slave. -/
theorem Accounts.boundary {σ : Type} {p : BridgePortStatistics} {waiting bytes : ℕ}
    (accounts : Accounts p waiting bytes) {s : State σ} {judged : List (RteMbuf × Bool)}
    (boundary : Boundary p s judged) :
    Accounts s.stats (waiting + s.txLength)
      (bytes + (totalBytes s.accepted + totalBytes s.queued)) where
  packets := by
    have before := accounts.packets
    have added := boundary.packets
    rw [UInt64.ofNat_add]
    grind
  bytes := by
    have before := accounts.bytes
    have added := boundary.bytes
    rw [UInt64.ofNat_add, ← before, ← added]
    grind

/-- **The counters of a configuration account for its packets**, by induction on its slaves. -/
theorem LeftBehind.accounts {p : BridgePortStatistics} {waiting bytes : ℕ}
    (left : LeftBehind p waiting bytes) : Accounts p waiting bytes := by
  induction left with
  | zeroed => exact ⟨rfl, rfl⟩
  | bridgeMainLoop before fresh run inductionHypothesis =>
      obtain ⟨s, reached, boundary⟩ := Bridge.bridgeMainLoop_boundary (.fresh fresh) _ _ _ _
      obtain rfl := Option.some.inj (reached.symm.trans run)
      exact inductionHypothesis.boundary boundary
  | bridgeLoopOptimized before fresh run inductionHypothesis =>
      obtain ⟨status, s, reached, boundary⟩ :=
        BridgeOptimized.bridgeLoopOptimized_boundary (.fresh fresh) _ _ _ _ _
      obtain ⟨-, rfl⟩ := Prod.mk.inj (Option.some.inj (reached.symm.trans run))
      exact inductionHypothesis.boundary boundary

/-! ## The totals -/

/-- The totals account for all packets but those that wait, and for their bytes. -/
structure Totals.Accounts (t : Totals) (waiting bytes : ℕ) : Prop where
  packets : t.rx = t.tx + t.filtered + t.dropped + UInt64.ofNat waiting
  bytes : t.txB = UInt64.ofNat bytes
  computed : t.txB = t.rxB - t.filteredB - t.droppedB

/-- One more configuration. -/
theorem Totals.Accounts.add {t : Totals} {p : BridgePortStatistics}
    {waiting bytes waiting' bytes' : ℕ} (totals : t.Accounts waiting bytes)
    (accounts : Master.Accounts p waiting' bytes') :
    (t.add p).Accounts (waiting + waiting') (bytes + bytes') where
  packets := by
    have before := totals.packets
    have here := accounts.packets
    rw [UInt64.ofNat_add]
    simp only [Totals.add]
    grind
  bytes := by
    have before := totals.bytes
    have computed := totals.computed
    have here := accounts.bytes
    rw [UInt64.ofNat_add, ← before, ← here, computed]
    simp only [Totals.add]
    grind
  computed := rfl

/-- All configurations, by induction on how many they are. -/
theorem accounts_foldl {portStatistics : ℕ → PortStatistics} {waiting bytes : ℕ → ℕ} {n : ℕ}
    (all : ∀ c < n, Accounts (portStatistics c).counters (waiting c) (bytes c)) :
    Totals.Accounts
      ((List.range n).foldl (fun t confId => t.add (portStatistics confId).counters) {})
      ((List.range n).map waiting).sum ((List.range n).map bytes).sum := by
  induction n with
  | zero =>
      have none : (0 : UInt64) = 0 - 0 - 0 := by decide
      exact ⟨rfl, rfl, none⟩
  | succ n inductionHypothesis =>
      have before := inductionHypothesis fun c inside => all c (inside.trans n.lt_succ_self)
      have added := before.add (all n n.lt_succ_self)
      simpa only [List.range_succ, List.foldl_append, List.foldl_cons, List.foldl_nil,
        List.map_append, List.map_cons, List.map_nil, List.sum_append, List.sum_cons,
        List.sum_nil, Nat.add_zero] using added

/-- A printed block accounts for all packets but those that wait, and for the bytes sent. -/
structure StatsBlock.Accounts (b : StatsBlock) (waiting bytes : ℕ) : Prop where
  packets : b.received = b.sent + b.filtered + b.dropped + UInt64.ofNat waiting
  bytes : b.sentMbytes = UInt64.ofNat bytes / mbytes

/-- **What `print_stats` prints between iterations adds up**, whatever slaves have run with the
configurations: when every one of them is between two iterations of its loop, or has ended there,
in each block and in the aggregate statistics, what was received is what was sent, filtered,
dropped or left waiting, and the MBytes sent are those of the packets that were accepted or wait. -/
theorem totals_conserve {procConfigNb : ℤ} {portStatistics : ℕ → PortStatistics}
    {waiting bytes : ℕ → ℕ}
    (left : ∀ c < procConfigNb.toNat,
      LeftBehind (portStatistics c).counters (waiting c) (bytes c)) :
    (∀ pid c block, (pid, c, block) ∈ (printStats procConfigNb portStatistics).confs →
        block.Accounts (waiting c) (bytes c)) ∧
      (printStats procConfigNb portStatistics).aggregate.Accounts
        ((List.range procConfigNb.toNat).map waiting).sum
        ((List.range procConfigNb.toNat).map bytes).sum := by
  constructor
  · intro pid c block member
    obtain ⟨c', inside, same⟩ := List.mem_map.mp member
    obtain ⟨-, same⟩ := Prod.mk.inj same
    obtain ⟨rfl, rfl⟩ := Prod.mk.inj same
    have accounts := (left c' (List.mem_range.mp inside)).accounts
    exact ⟨accounts.packets, congrArg (· / mbytes) accounts.bytes⟩
  · have accounts := accounts_foldl fun c inside => (left c inside).accounts
    exact ⟨accounts.packets, congrArg (· / mbytes) accounts.bytes⟩

/-- A burst of one packet of sixty bytes. -/
def onePacket : List RteMbuf := [⟨1, 0, 60, []⟩]

theorem onePacket_length_le : onePacket.length ≤ maxPktBurst := by decide

/-- A slave that lets every packet pass, after one packet that the NIC has not taken. -/
def onePacketWaits : Option (State Unit) :=
  Bridge.bridgeMainLoop ⟨fun _ _ => 0, fun _ _ => Nat.zero_le _⟩ (fun e _ _ => (0, e)) 1000000
    (State.initial ()) [⟨0, ⟨onePacket, onePacket_length_le⟩⟩]

/-- The packet that waits is missing among those that are sent, and its bytes are not. -/
theorem totals_conserve_onePacket :
    ∃ portStatistics : ℕ → PortStatistics,
      LeftBehind (portStatistics 0).counters 1 60 ∧
        (printStats 1 portStatistics).aggregate.Accounts 1 60 := by
  obtain ⟨s, run, facts⟩ : ∃ s, onePacketWaits = some s ∧
      (s.txLength, totalBytes s.accepted + totalBytes s.queued) = (1, 60) :=
    Option.map_eq_some_iff.mp (by rfl)
  obtain ⟨length, total⟩ := Prod.mk.inj facts
  have left : LeftBehind s.stats 1 60 := by
    have after : LeftBehind s.stats (0 + s.txLength)
        (0 + (totalBytes s.accepted + totalBytes s.queued)) :=
      .bridgeMainLoop .zeroed (.initial ()) run
    rwa [length, total] at after
  have all : ∀ c < (1 : ℤ).toNat,
      LeftBehind ((fun _ => ⟨s.stats, 0, by decide⟩ : ℕ → PortStatistics) c).counters
        ((fun _ => 1 : ℕ → ℕ) c) ((fun _ => 60 : ℕ → ℕ) c) := fun _ _ => left
  exact ⟨fun _ => ⟨s.stats, 0, by decide⟩, left, (totals_conserve all).2⟩

end DdosFiltering.Master
