import DdosFiltering.Datapath.Packets

/-!
# The packet loop of `bridge.c`

`bridge_main_loop` and the functions it calls. An iteration drains the transmit table when
the timer test passes, receives a burst, and hands every packet to the engine: a packet
the engine lets pass goes to the transmit table, which is sent as soon as it is full, and
a packet the engine matches is counted and freed.

A store outside `mbufs[]` is not a value of the model: `bridgeAddPacket` returns `none`
there, and so does every function above it.

The engine is a parameter with a state of its own, so that it may give any verdict at any
call. It is called with the memory of the packet and its data length, as in the source.
-/

set_option autoImplicit false

namespace DdosFiltering.Datapath

/-- `int (*engine)(char *, uint32_t)`, with its static state made explicit. -/
abbrev Engine (σ : Type) := σ → List UInt8 → ℕ → ℤ × σ

/-- `US_PER_S`. -/
def usPerS : UInt64 := 1000000

/-- `BURST_TX_DRAIN_US`. -/
def burstTxDrainUs : UInt64 := 100

/-- The constant `drain_tsc` of both loops. -/
def drainTsc (tscHz : UInt64) : UInt64 := (tscHz + usPerS - 1) / usPerS * burstTxDrainUs

/-- The variable `prev_tsc` of both loops. It is set before the loop and never again. -/
def prevTsc : UInt64 := 0

namespace Bridge

variable {σ : Type}

/-- `bridge_send_burst`. The `while` loop over the packets from `return_value` on is the
fold. The source returns 0, which no caller looks at. -/
def bridgeSendBurst (driver : TxDriver) (s : State σ) (pktsNb : ℕ) : State σ :=
  let pkts := s.txSlots pktsNb
  let returnValue := driver.accept s.txCalls pkts
  let s := s.transmitted pkts returnValue
  if returnValue < pktsNb then
    (pkts.drop returnValue).foldl State.freeDropped (s.countDropped (pktsNb - returnValue))
  else
    s

/-- `bridge_add_packet`. -/
def bridgeAddPacket (driver : TxDriver) (s : State σ) (mbuf : RteMbuf) : Option (ℤ × State σ) :=
  let pktsNb := s.txLength
  if inside : pktsNb < maxPktBurst then
    let s := s.storeMbuf pktsNb inside mbuf
    let pktsNb := pktsNb + 1
    if pktsNb = maxPktBurst then
      some (0, (bridgeSendBurst driver s maxPktBurst).setLength 0)
    else
      some (0, s.setLength pktsNb)
  else
    none

/-- `bridge_filter`. -/
def bridgeFilter (driver : TxDriver) (engine : Engine σ) (s : State σ) (mbuf : RteMbuf) :
    Option (ℤ × State σ) :=
  let (verdict, engineState) := engine s.engine mbuf.data mbuf.dataLen.toNat
  let s := { s with engine := engineState }
  if verdict = 0 then
    bridgeAddPacket driver s mbuf
  else
    some (-1, s)

/-- The timer test of both loops: `diff_tsc > drain_tsc` and a table that is not empty. -/
def drain (driver : TxDriver) (tscHz curTsc : UInt64) (s : State σ) : State σ :=
  let diffTsc := curTsc - prevTsc
  if diffTsc > drainTsc tscHz then
    if s.txLength ≠ 0 then (bridgeSendBurst driver s s.txLength).setLength 0 else s
  else
    s

/-- The body of the `for` loop over the packets of a burst. -/
def processPacket (driver : TxDriver) (engine : Engine σ) (s : State σ) (mbuf : RteMbuf) :
    Option (State σ) := do
  let (ret, s) ← bridgeFilter driver engine (s.countRxBytes mbuf) mbuf
  if ret ≠ 0 then some (s.freeFiltered mbuf) else some s

/-- What `bridge_main_loop` does with the packets it has received. The counter `j` is a
`uint8_t`, and a burst has at most `MAX_PKT_BURST` packets, so it runs over all of them. -/
def processBurst (driver : TxDriver) (engine : Engine σ) (s : State σ) (pkts : List RteMbuf) :
    Option (State σ) :=
  if pkts.length = 0 then
    some s
  else
    pkts.foldlM (processPacket driver engine) (s.countRx pkts.length)

/-- What one iteration reads from outside: the time stamp counter and a burst. -/
structure Input where
  curTsc : UInt64
  rx : RxBurst

/-- One iteration of `bridge_main_loop`. -/
def iteration (driver : TxDriver) (engine : Engine σ) (tscHz : UInt64) (s : State σ)
    (input : Input) : Option (State σ) :=
  let s := drain driver tscHz input.curTsc s
  let s := s.log (.rxBurst s.slaveConf.portRx s.slaveConf.queueRx input.rx.pkts)
  processBurst driver engine s input.rx.pkts

/-- `bridge_main_loop`, after the iterations that read `inputs`. -/
def bridgeMainLoop (driver : TxDriver) (engine : Engine σ) (tscHz : UInt64) (s : State σ)
    (inputs : List Input) : Option (State σ) :=
  inputs.foldlM (iteration driver engine tscHz) s

end Bridge

end DdosFiltering.Datapath
