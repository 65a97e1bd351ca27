import DdosFiltering.MainHeader
import Mathlib.Data.Fin.VecNotation
import Mathlib.Data.Int.Notation
import Mathlib.Data.List.Basic

/-!
# Packets, statistics and the transmit table

The data the two packet loops share: the mbufs they receive, the seven counters of
`struct bridge_port_statistics`, the transmit table `struct mbuf_table` and the local
configuration `struct slave_conf_s` (`include/main.h`, `include/bridge.h`).

A slave talks to the NIC through `rte_eth_rx_burst`, `rte_eth_tx_burst` and
`rte_pktmbuf_free`. Every such call is recorded, in order, in the `trace` of the state
(`DatapathEvent`); the lists of received, accepted, dropped and filtered packets are read
off the trace. What `rte_eth_tx_burst` answers is a parameter (`TxDriver`): any number of
packets up to the number requested, at every call anew.
-/

set_option autoImplicit false

namespace DdosFiltering.Datapath

/-- `MAX_PKT_BURST`. -/
def maxPktBurst : ℕ := 64

/-- What the program reads of a `struct rte_mbuf`. Two mbufs are the same buffer when
their addresses agree. `data` is the memory from `rte_pktmbuf_mtod` to the end of the
buffer, so it may be longer than the packet, whose length is `dataLen`. -/
structure RteMbuf where
  addr : ℕ
  olFlags : UInt64
  dataLen : UInt16
  data : List UInt8
deriving DecidableEq

/-- A null pointer, which every slot of the zeroed transmit table holds. -/
def RteMbuf.null : RteMbuf := ⟨0, 0, 0, []⟩

/-- The data length of a packet, as a number. -/
def RteMbuf.bytes (m : RteMbuf) : ℕ := m.dataLen.toNat

/-- The data length of a list of packets. -/
def totalBytes (pkts : List RteMbuf) : ℕ := (pkts.map RteMbuf.bytes).sum

@[simp] theorem totalBytes_nil : totalBytes [] = 0 := rfl

@[simp] theorem totalBytes_cons (m : RteMbuf) (pkts : List RteMbuf) :
    totalBytes (m :: pkts) = m.bytes + totalBytes pkts := by
  simp [totalBytes]

@[simp] theorem totalBytes_append (front back : List RteMbuf) :
    totalBytes (front ++ back) = totalBytes front + totalBytes back := by
  simp [totalBytes]

/-- `struct bridge_port_statistics`, the entry of the running configuration. -/
structure BridgePortStatistics where
  tx : UInt64 := 0
  rx : UInt64 := 0
  filtered : UInt64 := 0
  dropped : UInt64 := 0
  rxB : UInt64 := 0
  filteredB : UInt64 := 0
  droppedB : UInt64 := 0
deriving DecidableEq

/-- `struct mbuf_table`. Slots at `length` and above may hold pointers of earlier bursts. -/
structure MbufTable where
  length : ℕ
  mbufs : Vector RteMbuf maxPktBurst
deriving DecidableEq

/-- The packets waiting in the table: `mbufs[0 .. length)`. -/
def MbufTable.queued (t : MbufTable) : List RteMbuf := t.mbufs.toList.take t.length

/-- `struct slave_conf_s`. -/
structure SlaveConf where
  confId : UInt8
  portRx : UInt8
  portTx : UInt8
  queueRx : UInt8
  queueTx : UInt8
  mbufTx : MbufTable
deriving DecidableEq

/-- The calls a slave makes to the NIC, to the mbuf pool and to its command ring. -/
inductive DatapathEvent where
  /-- `rte_eth_rx_burst` delivered these packets. -/
  | rxBurst (port queue : UInt8) (pkts : List RteMbuf)
  /-- `rte_eth_tx_burst` was called with these packets and accepted the first of them. -/
  | txBurst (port queue : UInt8) (pkts : List RteMbuf) (accepted : ℕ)
  /-- `rte_pktmbuf_free` of a packet `rte_eth_tx_burst` left behind. -/
  | freeDropped (m : RteMbuf)
  /-- `rte_pktmbuf_free` of a packet the engine matched. -/
  | freeFiltered (m : RteMbuf)
  /-- `send_cmd` of a command the slave has just read. -/
  | echo (cmd : BridgeCmd)
deriving DecidableEq

namespace DatapathEvent

/-- The packets an event received. -/
def received : DatapathEvent → List RteMbuf
  | .rxBurst _ _ pkts => pkts
  | _ => []

/-- The packets the NIC accepted in an event. -/
def accepted : DatapathEvent → List RteMbuf
  | .txBurst _ _ pkts n => pkts.take n
  | _ => []

/-- The packets freed because the NIC did not take them. -/
def dropped : DatapathEvent → List RteMbuf
  | .freeDropped m => [m]
  | _ => []

/-- The packets freed because the engine matched them. -/
def filtered : DatapathEvent → List RteMbuf
  | .freeFiltered m => [m]
  | _ => []

/-- The packets that leave the program in an event: accepted by the NIC, or freed. -/
def released (event : DatapathEvent) : List RteMbuf :=
  event.accepted ++ event.filtered ++ event.dropped

end DatapathEvent

/-- The answers of `rte_eth_tx_burst`: to the `k`-th call, made with `pkts`, it accepts
the first `accept k pkts` of them. -/
structure TxDriver where
  accept : ℕ → List RteMbuf → ℕ
  accept_le : ∀ k pkts, accept k pkts ≤ pkts.length

/-- One answer of `rte_eth_rx_burst`, which is never asked for more than
`MAX_PKT_BURST` packets. -/
structure RxBurst where
  pkts : List RteMbuf
  length_le : pkts.length ≤ maxPktBurst

/-- The state of a packet loop. `engine` is the static state of the filtering engine and
`txCalls` counts the calls of `rte_eth_tx_burst`. -/
structure State (σ : Type) where
  stats : BridgePortStatistics
  slaveConf : SlaveConf
  engine : σ
  txCalls : ℕ
  trace : List DatapathEvent
deriving DecidableEq

namespace State

variable {σ : Type}

/-- The packets received so far, in the order of reception. -/
def received (s : State σ) : List RteMbuf := s.trace.flatMap DatapathEvent.received

/-- The packets the NIC accepted so far, in the order of acceptance. -/
def accepted (s : State σ) : List RteMbuf := s.trace.flatMap DatapathEvent.accepted

/-- The packets freed after a partial transmission. -/
def droppedPkts (s : State σ) : List RteMbuf := s.trace.flatMap DatapathEvent.dropped

/-- The packets freed because the engine matched them. -/
def filteredPkts (s : State σ) : List RteMbuf := s.trace.flatMap DatapathEvent.filtered

/-- The packets waiting in the transmit table. -/
def queued (s : State σ) : List RteMbuf := s.slaveConf.mbufTx.queued

/-- `mbuf_tx.length`. -/
def txLength (s : State σ) : ℕ := s.slaveConf.mbufTx.length

/-- Record an event. -/
def log (s : State σ) (e : DatapathEvent) : State σ := { s with trace := s.trace ++ [e] }

/-- `slave_conf.mbuf_tx.length = n`. -/
def setLength (s : State σ) (n : ℕ) : State σ :=
  { s with slaveConf.mbufTx.length := n }

/-- `slave_conf.mbuf_tx.mbufs[i] = m`, for an index inside the array. -/
def storeMbuf (s : State σ) (i : ℕ) (inside : i < maxPktBurst) (m : RteMbuf) : State σ :=
  { s with slaveConf.mbufTx.mbufs := s.slaveConf.mbufTx.mbufs.set i m inside }

/-- `port_statistics[conf_id].rx_b += rte_pktmbuf_data_len(m)`. -/
def countRxBytes (s : State σ) (m : RteMbuf) : State σ :=
  { s with stats.rxB := s.stats.rxB + m.dataLen.toUInt64 }

/-- `mbufs[0 .. n)`, what a call of `rte_eth_tx_burst` for `n` packets is given. -/
def txSlots (s : State σ) (n : ℕ) : List RteMbuf := s.slaveConf.mbufTx.mbufs.toList.take n

/-- `rte_eth_tx_burst` has accepted the first `n` of `pkts`. -/
def transmitted (s : State σ) (pkts : List RteMbuf) (n : ℕ) : State σ :=
  { s with
    stats.tx := s.stats.tx + UInt64.ofNat n
    txCalls := s.txCalls + 1
    trace := s.trace ++ [.txBurst s.slaveConf.portTx s.slaveConf.queueTx pkts n] }

/-- `port_statistics[conf_id].dropped += n`. -/
def countDropped (s : State σ) (n : ℕ) : State σ :=
  { s with stats.dropped := s.stats.dropped + UInt64.ofNat n }

/-- `port_statistics[conf_id].rx += n`. -/
def countRx (s : State σ) (n : ℕ) : State σ :=
  { s with stats.rx := s.stats.rx + UInt64.ofNat n }

/-- Count a packet as filtered and free it. -/
def freeFiltered (s : State σ) (m : RteMbuf) : State σ :=
  { s with
    stats.filtered := s.stats.filtered + 1
    stats.filteredB := s.stats.filteredB + m.dataLen.toUInt64
    trace := s.trace ++ [.freeFiltered m] }

/-- Count the bytes of a packet as dropped and free it. -/
def freeDropped (s : State σ) (m : RteMbuf) : State σ :=
  { s with
    stats.droppedB := s.stats.droppedB + m.dataLen.toUInt64
    trace := s.trace ++ [.freeDropped m] }

/-- A loop that starts in a freshly forked slave, whose `slave_conf` is zeroed. -/
def initial (e : σ) : State σ where
  stats := {}
  slaveConf :=
    { confId := 0, portRx := 0, portTx := 0, queueRx := 0, queueTx := 0
      mbufTx := ⟨0, Vector.replicate maxPktBurst .null⟩ }
  engine := e
  txCalls := 0
  trace := []

/-- The start of a loop: an empty transmit table, and no call made yet. -/
structure Fresh (s : State σ) : Prop where
  length : s.txLength = 0
  trace : s.trace = []

theorem Fresh.initial (e : σ) : (initial e).Fresh := ⟨rfl, rfl⟩

end State

end DdosFiltering.Datapath
