import DdosFiltering.Datapath.Bridge

/-!
# The packet loop of `bridge_optimized.c`

`bridge_loop_optimized` and the functions it calls. A burst is processed in groups of four
packets, and the packets that are left over one by one. The AND of the four flag words
chooses how a group is handled: together, when all four packets are IPv4 or all four are
IPv6, or one by one. Handling together means one call of the grouped engine, which writes
four results.

The loop ends when it reads a STOP command. `bridge_send_burst` and `bridge_add_packet` of
this file are word for word those of `bridge.c`, on a `slave_conf` of this file.

The two engines write their results through a pointer. In the model they get the values
that are there before the call, so that an engine may leave them as they are.
-/

set_option autoImplicit false

namespace DdosFiltering.Datapath

/-- `int (*engine)(struct rte_mbuf *, int32_t *)`, with its static state made explicit. -/
abbrev Engine1 (σ : Type) := σ → RteMbuf → ℤ → ℤ × σ

/-- `int (*engine4)(struct rte_mbuf *[4], int32_t *)`. -/
abbrev Engine4 (σ : Type) := σ → (Fin 4 → RteMbuf) → (Fin 4 → ℤ) → (Fin 4 → ℤ) × σ

namespace BridgeOptimized

variable {σ : Type}

/-- `bridge_send_burst` of `bridge_optimized.c`. -/
def bridgeSendBurst (driver : TxDriver) (s : State σ) (pktsNb : ℕ) : State σ :=
  Bridge.bridgeSendBurst driver s pktsNb

/-- `bridge_add_packet` of `bridge_optimized.c`. -/
def bridgeAddPacket (driver : TxDriver) (s : State σ) (mbuf : RteMbuf) : Option (ℤ × State σ) :=
  Bridge.bridgeAddPacket driver s mbuf

/-- `PKT_RX_IPV4_HDR`. -/
def pktRxIpv4Hdr : UInt64 := (1 : UInt64) <<< (5 : UInt64)

/-- `PKT_RX_IPV6_HDR`. -/
def pktRxIpv6Hdr : UInt64 := (1 : UInt64) <<< (7 : UInt64)

/-- The statement `if (ret > 0) ... else ...` that both filters share: a packet with a
positive result is counted and freed, any other is added to the transmit table. -/
def dispose (driver : TxDriver) (s : State σ) (m : RteMbuf) (ret : ℤ) : Option (State σ) :=
  if ret > 0 then
    some (s.freeFiltered m)
  else
    (bridgeAddPacket driver s m).map Prod.snd

/-- `bridge_filter` of `bridge_optimized.c`. -/
def bridgeFilter (driver : TxDriver) (engine : Engine1 σ) (s : State σ) (m : RteMbuf) :
    Option (State σ) :=
  let (ret, engineState) := engine s.engine m 0
  dispose driver { s with engine := engineState } m ret

/-- `ipv4_bridge_filter_4pkts`, without the checks that `DO_RFC_1812_CHECKS` would add and
the build does not. -/
def ipv4BridgeFilter4pkts (driver : TxDriver) (engine4 : Engine4 σ) (s : State σ)
    (m : Fin 4 → RteMbuf) : Option (State σ) :=
  let (ret, engineState) := engine4 s.engine m (fun _ => 0)
  (List.finRange 4).foldlM (fun s i => dispose driver s (m i) (ret i))
    { s with engine := engineState }

/-- `ipv6_bridge_filter_4pkts`: the same statements as `ipv4_bridge_filter_4pkts`. -/
def ipv6BridgeFilter4pkts (driver : TxDriver) (engine4 : Engine4 σ) (s : State σ)
    (m : Fin 4 → RteMbuf) : Option (State σ) :=
  let (ret, engineState) := engine4 s.engine m (fun _ => 0)
  (List.finRange 4).foldlM (fun s i => dispose driver s (m i) (ret i))
    { s with engine := engineState }

/-- The AND of the four flag words, kept in a `uint32_t`. -/
def olFlag (m : Fin 4 → RteMbuf) : UInt32 :=
  ((m 0).olFlags &&& (m 1).olFlags &&& (m 2).olFlags &&& (m 3).olFlags).toUInt32

/-- The body of the `for` loop over the groups of four. -/
def processGroup (driver : TxDriver) (engine4 : Engine4 σ) (engine : Engine1 σ) (s : State σ)
    (m : Fin 4 → RteMbuf) : Option (State σ) :=
  let s := (((s.countRxBytes (m 0)).countRxBytes (m 1)).countRxBytes (m 2)).countRxBytes (m 3)
  if (olFlag m).toUInt64 &&& pktRxIpv4Hdr ≠ 0 then
    ipv4BridgeFilter4pkts driver engine4 s m
  else if (olFlag m).toUInt64 &&& pktRxIpv6Hdr ≠ 0 then
    ipv6BridgeFilter4pkts driver engine4 s m
  else
    (List.finRange 4).foldlM (fun s i => bridgeFilter driver engine s (m i)) s

/-- The body of the `for` loop over the packets left over. -/
def processPacket (driver : TxDriver) (engine : Engine1 σ) (s : State σ) (mbuf : RteMbuf) :
    Option (State σ) :=
  bridgeFilter driver engine (s.countRxBytes mbuf) mbuf

/-- The two `for` loops: groups of four up to `RTE_ALIGN_FLOOR(pkts_received, 4)`, then the
packets left over. -/
def processGroups (driver : TxDriver) (engine4 : Engine4 σ) (engine : Engine1 σ) :
    State σ → List RteMbuf → Option (State σ)
  | s, m0 :: m1 :: m2 :: m3 :: rest => do
      let s ← processGroup driver engine4 engine s ![m0, m1, m2, m3]
      processGroups driver engine4 engine s rest
  | s, leftOver => leftOver.foldlM (processPacket driver engine) s

/-- What `bridge_loop_optimized` does with the packets it has received. -/
def processBurst (driver : TxDriver) (engine4 : Engine4 σ) (engine : Engine1 σ) (s : State σ)
    (pkts : List RteMbuf) : Option (State σ) :=
  if pkts.length = 0 then
    some s
  else
    processGroups driver engine4 engine (s.countRx pkts.length) pkts

/-- What one iteration reads from outside: the time stamp counter, the command that
`get_cmd` returns, if any, and a burst. -/
structure Input where
  curTsc : UInt64
  cmd : Option BridgeCmd
  rx : RxBurst

/-- An iteration is followed by the next one, or the loop has returned. -/
inductive Status where
  | running
  | returned
deriving DecidableEq, Repr

/-- One iteration of `bridge_loop_optimized`. A command that was read is sent back, and
STOP makes the loop return before it drains the table or receives a burst. -/
def iteration (driver : TxDriver) (engine4 : Engine4 σ) (engine : Engine1 σ) (tscHz : UInt64)
    (s : State σ) (input : Input) : Option (Status × State σ) :=
  match input.cmd with
  | some .stop => some (.returned, s.log (.echo .stop))
  | cmd =>
      let s := cmd.elim s fun c => s.log (.echo c)
      let s := Bridge.drain driver tscHz input.curTsc s
      let s := s.log (.rxBurst s.slaveConf.portRx s.slaveConf.queueRx input.rx.pkts)
      (processBurst driver engine4 engine s input.rx.pkts).map (.running, ·)

/-- `bridge_loop_optimized`, until it returns or has read all of `inputs`. -/
def bridgeLoopOptimized (driver : TxDriver) (engine4 : Engine4 σ) (engine : Engine1 σ)
    (tscHz : UInt64) : State σ → List Input → Option (Status × State σ)
  | s, [] => some (.running, s)
  | s, input :: inputs => do
      match ← iteration driver engine4 engine tscHz s input with
      | (.returned, s) => some (.returned, s)
      | (.running, s) => bridgeLoopOptimized driver engine4 engine tscHz s inputs

end BridgeOptimized

end DdosFiltering.Datapath
