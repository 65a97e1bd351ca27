import DdosFiltering.Control.Ipc
import DdosFiltering.Foundation.Runs
import DdosFiltering.Libc
import Mathlib.Data.BitVec

/-!
# The master and its slaves

The life of the slave processes: `bridge_launch_one_lcore` (`bridge.c`), which gets a floating
lcore id, asks the master for a configuration and runs a packet loop; `main_loop` and
`main_set_lcore_cfg` (`main.c`), which answer the requests and recreate slaves; and
`slave_exit_cb`, `init_slave_res`, `recreate_one_slave` and `reset_lcore` (`dpdk_mp.c`).

A slave is a forked process. It sees the rings, the message pool, `mapping_id` and
`lcore_cfg`, which are shared memory; what it writes to `lcore_resource` and `proc_config`
stays in its own copy and is left out. The master's `main_set_lcore_cfg`, its
`reset_lcore` and the exit callback are one step each. The master takes a message out of a
ring (`poll`) and answers it (`answer`) in two steps, and is between the two when `pending`
is set.

A slave may crash in every phase, also between the allocation of a message buffer and its
enqueue, and between a dequeue and the release of the buffer.
-/

set_option autoImplicit false

namespace DdosFiltering.Control

/-- What the model uses of `struct proc_config_s`. -/
structure ProcConfig where
  enabled : ℤ
  used : ℤ
deriving DecidableEq

/-- What the model uses of `struct lcore_resource_s`. -/
structure LcoreResource where
  enabled : ℤ
  flags : BitVec 32
  configId : LcoreId
  /-- `ring[fd] != NULL`. -/
  ring : Fin 2 → Bool

/-- `SLAVE_RECREATE_FLAG`. -/
def slaveRecreateFlag : BitVec 32 := 1

/-- `SLAVE_DONT_RECREATE_FLAG`. -/
def slaveDontRecreateFlag : BitVec 32 := 2

/-- `main_information.float_proc`, which `main` sets before it launches the slaves. -/
def floatProc : Bool := true

/-- The lcores of the EAL. -/
structure Eal where
  lcoreIsEnabled : LcoreId → Bool
  masterLcore : LcoreId

/-- Whether an lcore runs a slave: enabled, and not the master's. -/
def Eal.isSlave (eal : Eal) (l : LcoreId) : Bool :=
  eal.lcoreIsEnabled l && l != eal.masterLcore

/-- Where the thread of an lcore and its slave process are. `f` is the floating lcore id of
the process and `conf` its `slave_conf.conf_id`. -/
inductive Phase where
  /-- No process, and none will be: no slave on this lcore, or `fork` failed. -/
  | stopped
  /-- `lcore_func` is about to fork. -/
  | launched
  /-- `flib_assign_lcore_id` is about to look at `lcore_cfg[i]`. -/
  | scanning (i : ℕ)
  /-- `flib_assign_lcore_id` has seen `lcore_cfg[i] == 0`. -/
  | claiming (i : LcoreId)
  | assigned (f : LcoreId)
  /-- `mapping_id` is written. -/
  | mapped (f : LcoreId)
  /-- `slave_request` waits for the answer. -/
  | waiting (f : LcoreId)
  /-- The process is in its packet loop. -/
  | running (f : LcoreId) (conf : UInt8)
  /-- The packet loop has returned. -/
  | leaving (f : LcoreId) (conf : UInt8)
  /-- The floating id is given back. -/
  | freed (conf : UInt8)
  /-- `mapping_id` is reset. -/
  | unmapped (conf : UInt8)
  /-- The process has exited, and the exit callback has not run yet. -/
  | dead
  /-- The exit callback has run, and `lcore_func` returns. -/
  | reaped
deriving DecidableEq

namespace Phase

/-- There is a slave process. -/
def alive : Phase → Bool
  | .stopped | .launched | .dead | .reaped => false
  | _ => true

/-- The configuration that a live process runs with. -/
def conf? : Phase → Option UInt8
  | .running _ conf | .leaving _ conf | .freed conf | .unmapped conf => some conf
  | _ => none

end Phase

/-- The state of the master, of the slaves and of the memory they share. -/
structure System where
  procConfig : LcoreId → ProcConfig
  procConfigUsedNb : ℤ
  lcoreResource : LcoreId → LcoreResource
  mappingId : LcoreId → Option LcoreId
  lcoreCfg : LcoreId → Bool
  mem : IpcMem
  /-- The lcore whose request the master has taken and not yet answered. -/
  pending : Option LcoreId
  phase : LcoreId → Phase

namespace System

/-- What `send_cmd` and `get_cmd` check. -/
def table (s : System) : IpcTable where
  enabled l := decide ((s.lcoreResource l).enabled ≠ 0)
  created r := (s.lcoreResource r.1).ring r.2

/-- `main` has launched the slaves: every entry of the configuration table is unused, every
slave lcore has its rings, and the message pool is full. -/
def initial (eal : Eal) (enabled : LcoreId → ℤ) (pool : List BufPtr)
    (content : BufPtr → BridgeMsg) : System where
  procConfig c := ⟨enabled c, 0⟩
  procConfigUsedNb := 0
  lcoreResource l :=
    ⟨if eal.isSlave l then 1 else 0, 0, 0, fun _ => eal.isSlave l⟩
  mappingId _ := none
  lcoreCfg l := eal.lcoreIsEnabled l
  mem := ⟨pool, fun _ => [], content⟩
  pending := none
  phase l := if eal.isSlave l then .launched else .stopped

def setPhase (s : System) (l : LcoreId) (p : Phase) : System :=
  { s with phase := Function.update s.phase l p }

def setUsed (s : System) (c : LcoreId) (used : ℤ) : System :=
  { s with procConfig := Function.update s.procConfig c { s.procConfig c with used } }

def setFlags (s : System) (l : LcoreId) (flags : BitVec 32) : System :=
  { s with lcoreResource := Function.update s.lcoreResource l { s.lcoreResource l with flags } }

def setConfigId (s : System) (l c : LcoreId) : System :=
  { s with
    lcoreResource := Function.update s.lcoreResource l { s.lcoreResource l with configId := c } }

/-! ## `main.c` -/

/-- The message that asks for a configuration. -/
def request : BridgeMsg := ⟨.cfg, []⟩

/-- The message that hands out the configuration `c`. -/
def reply (c : LcoreId) : BridgeMsg := ⟨.cfg, decimal c⟩

/-- The first entry of `proc_config` that is enabled and not used. -/
def findFreeProc (s : System) : Option LcoreId :=
  (List.finRange rteMaxLcore).find? fun procId =>
    !((s.procConfig procId).used == 1 || (s.procConfig procId).enabled == 0)

/-- `main_set_lcore_cfg`. Its check of `snprintf` never fails. -/
def mainSetLcoreCfg (s : System) (l : LcoreId) (k : ℕ) : ℤ × System :=
  match s.findFreeProc with
  | none => (-1, s)
  | some procId =>
      let (ret, mem) := sendCmd s.table s.mem l (reply procId) true k
      let s := { s with mem }
      if ret ≠ 0 then
        (-1, s)
      else
        let s := (s.setUsed procId 1).setConfigId l procId
        (0, { s with procConfigUsedNb := s.procConfigUsedNb + 1 })

/-! ## `dpdk_mp.c` -/

/-- `slave_exit_cb`. -/
def slaveExitCb (s : System) (l : LcoreId) : System :=
  let res := s.lcoreResource l
  if res.enabled = 0 then
    s
  else
    let s := s.setUsed res.configId 0
    if res.flags &&& slaveDontRecreateFlag = 0 then s.setFlags l slaveRecreateFlag else s

/-- `create_ms_ring`: the rings are created, or found if they exist. -/
def createMsRing (s : System) (l : LcoreId) : System :=
  { s with
    lcoreResource :=
      Function.update s.lcoreResource l { s.lcoreResource l with ring := fun _ => true } }

/-- `while (get_cmd(lcore_id, &drain, is_master) == 0);` -/
def drain (table : IpcTable) (l : LcoreId) (isMaster : Bool) : ℕ → IpcMem → IpcMem
  | 0, mem => mem
  | n + 1, mem =>
      match getCmd table mem l isMaster with
      | (.ok _, mem) => drain table l isMaster n mem
      | (.error _, mem) => mem

/-- `init_slave_res`. The slave is dead, so a ring does not get longer while it is drained. -/
def initSlaveRes (s : System) (l : LcoreId) : ℤ × System :=
  if (s.lcoreResource l).enabled = 0 then
    (-1, s)
  else
    let s := s.createMsRing l
    let mem := drain s.table l true (s.mem.ring (getRing l true)).length s.mem
    let mem := drain s.table l false (mem.ring (getRing l false)).length mem
    (0, { s with mem })

/-- `flib_remote_launch`, when the thread of the lcore waits for work. -/
def flibRemoteLaunch (eal : Eal) (s : System) (l : LcoreId) : ℤ × System :=
  if eal.lcoreIsEnabled l then (0, s.setPhase l .launched) else (-1, s)

/-- `recreate_one_slave`. -/
def recreateOneSlave (eal : Eal) (s : System) (l : LcoreId) : ℤ × System :=
  let (retval, s) := s.initSlaveRes l
  if retval ≠ 0 then (retval, s) else s.flibRemoteLaunch eal l

/-- `flib_free_lcore_id`. -/
def flibFreeLcoreId (eal : Eal) (s : System) (f : LcoreId) : System :=
  if f = 0 ∨ eal.lcoreIsEnabled f then
    s
  else
    { s with lcoreCfg := Function.update s.lcoreCfg f false }

/-- What `reset_lcore` does with the floating id `map_id` of the slave that has exited. The
entries of `mapping_id` and of `proc_config` at the floating id are the ones it writes. -/
def returnMappingId (eal : Eal) (s : System) (l : LcoreId) : System :=
  match s.mappingId l with
  | none => s
  | some mapId =>
      let s := s.flibFreeLcoreId eal mapId
      let s := { s with mappingId := Function.update s.mappingId mapId none }
      s.setUsed mapId 0

/-- `reset_lcore`. -/
def resetLcore (eal : Eal) (s : System) (l : LcoreId) : ℤ × System :=
  let s := if floatProc then s.returnMappingId eal l else s
  if (s.lcoreResource l).enabled = 1 then
    let (retval, s) := s.recreateOneSlave eal l
    if retval ≠ 0 then (-1, s) else (0, s.setFlags l 0)
  else
    (0, s.setFlags l 0)

/-- The test of `main_loop` before it calls `reset_lcore`. -/
def mustRecreate (s : System) (l : LcoreId) : Bool :=
  (s.lcoreResource l).enabled == 1 && (s.lcoreResource l).flags == slaveRecreateFlag

/-- What `main_loop` does for an lcore that must be recreated. -/
def recreate (eal : Eal) (s : System) (l : LcoreId) : System :=
  let (ret, s) := s.resetLcore eal l
  if ret ≠ 0 then s else s.setFlags l ((s.lcoreResource l).flags &&& ~~~slaveRecreateFlag)

/-! ## Steps -/

end System

/-- The steps of the lcores' threads, of the slave processes and of the master. `k` chooses
the message buffer of an allocation. -/
inductive Action where
  | fork (l : LcoreId)
  | forkFails (l : LcoreId)
  | scan (l : LcoreId)
  | claim (l : LcoreId)
  | map (l : LcoreId)
  | request (l : LcoreId) (k : ℕ)
  | receive (l : LcoreId)
  | echo (l : LcoreId) (k : ℕ)
  | leave (l : LcoreId)
  | free (l : LcoreId)
  | unmap (l : LcoreId)
  | exit (l : LcoreId)
  | crash (l : LcoreId)
  | crashAllocated (l : LcoreId) (k : ℕ)
  | crashDequeued (l : LcoreId)
  | exitCb (l : LcoreId)
  | poll (l : LcoreId)
  | answer (k : ℕ)
  | recreate (l : LcoreId)
deriving DecidableEq

/-- The conversion of `atoi` to the `uint8_t` of `slave_conf.conf_id`. -/
def confId (text : List Char) : UInt8 := UInt8.ofNat (atoi text % 256).toNat

namespace System

/-- One turn of the loop of `slave_request`. -/
def slaveReceive (s : System) (l f : LcoreId) : System :=
  match getCmd s.table s.mem l false with
  | (.ok msg, mem) =>
      let s := { s with mem }
      if msg.cmd = request.cmd then s.setPhase l (.running f (confId msg.msg)) else s
  | (.error _, mem) => { s with mem }

/-- The STOP message of `bridge_loop_optimized`: a command that is there is sent back. -/
def slaveEcho (s : System) (l f : LcoreId) (conf : UInt8) (k : ℕ) : System :=
  match getCmd s.table s.mem l false with
  | (.ok msg, mem) =>
      let s := { s with mem := (sendCmd s.table mem l msg false k).2 }
      if msg.cmd = .stop then s.setPhase l (.leaving f conf) else s
  | (.error _, mem) => { s with mem }

/-- The `get_cmd` of `main_loop`, for one lcore. Only a CFG message is looked at. -/
def masterPoll (s : System) (l : LcoreId) : System :=
  match getCmd s.table s.mem l true with
  | (.ok msg, mem) =>
      let s := { s with mem }
      if msg.cmd = .cfg then { s with pending := some l } else s
  | (.error _, mem) => { s with mem }

/-- One step. `none`: the action is not possible in this state. -/
def step (eal : Eal) (s : System) : Action → Option System
  | .fork l => if s.phase l = .launched then some (s.setPhase l (.scanning 1)) else none
  | .forkFails l => if s.phase l = .launched then some (s.setPhase l .stopped) else none
  | .scan l =>
      match s.phase l with
      | .scanning i =>
          if inside : i < rteMaxLcore then
            if s.lcoreCfg ⟨i, inside⟩ then
              some (s.setPhase l (.scanning (i + 1)))
            else
              some (s.setPhase l (.claiming ⟨i, inside⟩))
          else
            -- `flib_assign_lcore_id` has failed, and the process returns -1.
            some (s.setPhase l .dead)
      | _ => none
  | .claim l =>
      match s.phase l with
      | .claiming i =>
          if s.lcoreCfg i then
            some (s.setPhase l (.scanning 1))
          else
            some ({ s with lcoreCfg := Function.update s.lcoreCfg i true }.setPhase l (.assigned i))
      | _ => none
  | .map l =>
      match s.phase l with
      | .assigned f =>
          some
            ({ s with mappingId := Function.update s.mappingId l (some f) }.setPhase l (.mapped f))
      | _ => none
  | .request l k =>
      match s.phase l with
      | .mapped f =>
          some
            ({ s with mem := (sendCmd s.table s.mem l request false k).2 }.setPhase l (.waiting f))
      | _ => none
  | .receive l =>
      match s.phase l with
      | .waiting f => some (s.slaveReceive l f)
      | _ => none
  | .echo l k =>
      match s.phase l with
      | .running f conf => some (s.slaveEcho l f conf k)
      | _ => none
  | .leave l =>
      match s.phase l with
      | .running f conf => some (s.setPhase l (.leaving f conf))
      | _ => none
  | .free l =>
      match s.phase l with
      | .leaving f conf => some ((s.flibFreeLcoreId eal f).setPhase l (.freed conf))
      | _ => none
  | .unmap l =>
      match s.phase l with
      | .freed conf =>
          some
            ({ s with mappingId := Function.update s.mappingId l none }.setPhase l (.unmapped conf))
      | _ => none
  | .exit l =>
      match s.phase l with
      | .unmapped _ => some (s.setPhase l .dead)
      | _ => none
  | .crash l => if (s.phase l).alive then some (s.setPhase l .dead) else none
  | .crashAllocated l k =>
      if (s.phase l).alive then
        match s.mem.mempoolGet k with
        | some (_, mem) => some ({ s with mem }.setPhase l .dead)
        | none => none
      else
        none
  | .crashDequeued l =>
      if (s.phase l).alive then
        match s.mem.ringDequeue (getRing l false) with
        | some (_, mem) => some ({ s with mem }.setPhase l .dead)
        | none => none
      else
        none
  | .exitCb l => if s.phase l = .dead then some ((s.slaveExitCb l).setPhase l .reaped) else none
  | .poll l => if s.pending = none then some (s.masterPoll l) else none
  | .answer k =>
      match s.pending with
      | some l => some { (s.mainSetLcoreCfg l k).2 with pending := none }
      | none => none
  | .recreate l =>
      -- `rte_eal_wait_lcore` returns once the thread of the lcore has finished.
      if s.pending = none ∧ s.mustRecreate l = true ∧ s.phase l = .reaped then
        some (s.recreate eal l)
      else
        none

end System

/-! ## What a step can do -/

/-- The action `a` is possible in `s`, and leads to the given state. -/
inductive Happens (eal : Eal) (s : System) : Action → System → Prop where
  | fork {l : LcoreId} (launched : s.phase l = .launched) :
      Happens eal s (.fork l) (s.setPhase l (.scanning 1))
  | forkFails {l : LcoreId} (launched : s.phase l = .launched) :
      Happens eal s (.forkFails l) (s.setPhase l .stopped)
  | scanOn {l : LcoreId} {i : ℕ} (scanning : s.phase l = .scanning i) (inside : i < rteMaxLcore)
      (marked : s.lcoreCfg ⟨i, inside⟩ = true) :
      Happens eal s (.scan l) (s.setPhase l (.scanning (i + 1)))
  | scanFinds {l : LcoreId} {i : ℕ} (scanning : s.phase l = .scanning i)
      (inside : i < rteMaxLcore) (free : s.lcoreCfg ⟨i, inside⟩ = false) :
      Happens eal s (.scan l) (s.setPhase l (.claiming ⟨i, inside⟩))
  | scanFails {l : LcoreId} {i : ℕ} (scanning : s.phase l = .scanning i)
      (outside : rteMaxLcore ≤ i) : Happens eal s (.scan l) (s.setPhase l .dead)
  | claim {l f : LcoreId} (claiming : s.phase l = .claiming f) (free : s.lcoreCfg f = false) :
      Happens eal s (.claim l)
        ({ s with lcoreCfg := Function.update s.lcoreCfg f true }.setPhase l (.assigned f))
  | claimFails {l f : LcoreId} (claiming : s.phase l = .claiming f)
      (marked : s.lcoreCfg f = true) :
      Happens eal s (.claim l) (s.setPhase l (.scanning 1))
  | map {l f : LcoreId} (assigned : s.phase l = .assigned f) :
      Happens eal s (.map l)
        ({ s with mappingId := Function.update s.mappingId l (some f) }.setPhase l (.mapped f))
  | request {l f : LcoreId} (k : ℕ) (mapped : s.phase l = .mapped f) :
      Happens eal s (.request l k)
        ({ s with mem := (sendCmd s.table s.mem l System.request false k).2 }.setPhase l
          (.waiting f))
  | receive {l f : LcoreId} (waiting : s.phase l = .waiting f) :
      Happens eal s (.receive l) (s.slaveReceive l f)
  | echo {l f : LcoreId} {conf : UInt8} (k : ℕ) (running : s.phase l = .running f conf) :
      Happens eal s (.echo l k) (s.slaveEcho l f conf k)
  | leave {l f : LcoreId} {conf : UInt8} (running : s.phase l = .running f conf) :
      Happens eal s (.leave l) (s.setPhase l (.leaving f conf))
  | free {l f : LcoreId} {conf : UInt8} (leaving : s.phase l = .leaving f conf) :
      Happens eal s (.free l) ((s.flibFreeLcoreId eal f).setPhase l (.freed conf))
  | unmap {l : LcoreId} {conf : UInt8} (freed : s.phase l = .freed conf) :
      Happens eal s (.unmap l)
        ({ s with mappingId := Function.update s.mappingId l none }.setPhase l (.unmapped conf))
  | exit {l : LcoreId} {conf : UInt8} (unmapped : s.phase l = .unmapped conf) :
      Happens eal s (.exit l) (s.setPhase l .dead)
  | crash {l : LcoreId} (alive : (s.phase l).alive = true) :
      Happens eal s (.crash l) (s.setPhase l .dead)
  | crashAllocated {l : LcoreId} {k : ℕ} {b : BufPtr} {mem : IpcMem}
      (alive : (s.phase l).alive = true) (got : s.mem.mempoolGet k = some (b, mem)) :
      Happens eal s (.crashAllocated l k) ({ s with mem }.setPhase l .dead)
  | crashDequeued {l : LcoreId} {b : BufPtr} {mem : IpcMem} (alive : (s.phase l).alive = true)
      (got : s.mem.ringDequeue (getRing l false) = some (b, mem)) :
      Happens eal s (.crashDequeued l) ({ s with mem }.setPhase l .dead)
  | exitCb {l : LcoreId} (dead : s.phase l = .dead) :
      Happens eal s (.exitCb l) ((s.slaveExitCb l).setPhase l .reaped)
  | poll (l : LcoreId) (idle : s.pending = none) : Happens eal s (.poll l) (s.masterPoll l)
  | answer {l : LcoreId} (k : ℕ) (pending : s.pending = some l) :
      Happens eal s (.answer k) { (s.mainSetLcoreCfg l k).2 with pending := none }
  | recreate {l : LcoreId} (idle : s.pending = none) (must : s.mustRecreate l = true)
      (reaped : s.phase l = .reaped) : Happens eal s (.recreate l) (s.recreate eal l)

/-- **The steps of the system, one by one.** -/
theorem happens_of_step {eal : Eal} {s t : System} {a : Action}
    (taken : s.step eal a = some t) : Happens eal s a t := by
  cases a with
  | fork l =>
      simp only [System.step, Option.ite_none_right_eq_some, Option.some.injEq] at taken
      obtain ⟨launched, rfl⟩ := taken
      exact .fork launched
  | forkFails l =>
      simp only [System.step, Option.ite_none_right_eq_some, Option.some.injEq] at taken
      obtain ⟨launched, rfl⟩ := taken
      exact .forkFails launched
  | scan l =>
      simp only [System.step] at taken
      split at taken
      · rename_i i scanning
        split at taken
        · rename_i inside
          split at taken
          · rename_i marked
            obtain rfl := Option.some.inj taken
            exact .scanOn scanning inside marked
          · rename_i free
            obtain rfl := Option.some.inj taken
            exact .scanFinds scanning inside (by simpa using free)
        · rename_i outside
          obtain rfl := Option.some.inj taken
          exact .scanFails scanning (Nat.le_of_not_lt outside)
      · simp at taken
  | claim l =>
      simp only [System.step] at taken
      split at taken
      · rename_i f claiming
        split at taken
        · rename_i marked
          obtain rfl := Option.some.inj taken
          exact .claimFails claiming marked
        · rename_i free
          obtain rfl := Option.some.inj taken
          exact .claim claiming (by simpa using free)
      · simp at taken
  | map l =>
      simp only [System.step] at taken
      split at taken
      · rename_i f assigned
        obtain rfl := Option.some.inj taken
        exact .map assigned
      · simp at taken
  | request l k =>
      simp only [System.step] at taken
      split at taken
      · rename_i f mapped
        obtain rfl := Option.some.inj taken
        exact .request k mapped
      · simp at taken
  | receive l =>
      simp only [System.step] at taken
      split at taken
      · rename_i f waiting
        obtain rfl := Option.some.inj taken
        exact .receive waiting
      · simp at taken
  | echo l k =>
      simp only [System.step] at taken
      split at taken
      · rename_i f conf running
        obtain rfl := Option.some.inj taken
        exact .echo k running
      · simp at taken
  | leave l =>
      simp only [System.step] at taken
      split at taken
      · rename_i f conf running
        obtain rfl := Option.some.inj taken
        exact .leave running
      · simp at taken
  | free l =>
      simp only [System.step] at taken
      split at taken
      · rename_i f conf leaving
        obtain rfl := Option.some.inj taken
        exact .free leaving
      · simp at taken
  | unmap l =>
      simp only [System.step] at taken
      split at taken
      · rename_i conf freed
        obtain rfl := Option.some.inj taken
        exact .unmap freed
      · simp at taken
  | exit l =>
      simp only [System.step] at taken
      split at taken
      · rename_i conf unmapped
        obtain rfl := Option.some.inj taken
        exact .exit unmapped
      · simp at taken
  | crash l =>
      simp only [System.step, Option.ite_none_right_eq_some, Option.some.injEq] at taken
      obtain ⟨alive, rfl⟩ := taken
      exact .crash alive
  | crashAllocated l k =>
      simp only [System.step] at taken
      split at taken
      · rename_i alive
        split at taken
        · rename_i b mem got
          obtain rfl := Option.some.inj taken
          exact .crashAllocated alive got
        · simp at taken
      · simp at taken
  | crashDequeued l =>
      simp only [System.step] at taken
      split at taken
      · rename_i alive
        split at taken
        · rename_i b mem got
          obtain rfl := Option.some.inj taken
          exact .crashDequeued alive got
        · simp at taken
      · simp at taken
  | exitCb l =>
      simp only [System.step, Option.ite_none_right_eq_some, Option.some.injEq] at taken
      obtain ⟨dead, rfl⟩ := taken
      exact .exitCb dead
  | poll l =>
      simp only [System.step, Option.ite_none_right_eq_some, Option.some.injEq] at taken
      obtain ⟨idle, rfl⟩ := taken
      exact .poll l idle
  | answer k =>
      simp only [System.step] at taken
      split at taken
      · rename_i l pending
        obtain rfl := Option.some.inj taken
        exact .answer k pending
      · simp at taken
  | recreate l =>
      simp only [System.step, Option.ite_none_right_eq_some, Option.some.injEq] at taken
      obtain ⟨⟨idle, must, reaped⟩, rfl⟩ := taken
      exact .recreate idle must reaped

/-! ## What the functions write -/

variable (eal : Eal) (s : System) (l f : LcoreId)

theorem slaveReceive_writes : ∃ mem phase, s.slaveReceive l f = { s with mem, phase } := by
  unfold System.slaveReceive
  split
  · dsimp only
    split <;> exact ⟨_, _, rfl⟩
  · exact ⟨_, _, rfl⟩

theorem slaveEcho_writes (conf : UInt8) (k : ℕ) :
    ∃ mem phase, s.slaveEcho l f conf k = { s with mem, phase } := by
  unfold System.slaveEcho
  split
  · dsimp only
    split <;> exact ⟨_, _, rfl⟩
  · exact ⟨_, _, rfl⟩

theorem masterPoll_writes : ∃ mem pending, s.masterPoll l = { s with mem, pending } := by
  unfold System.masterPoll
  split
  · dsimp only
    split <;> exact ⟨_, _, rfl⟩
  · exact ⟨_, _, rfl⟩

theorem mainSetLcoreCfg_writes (k : ℕ) :
    ∃ procConfig procConfigUsedNb lcoreResource mem, (s.mainSetLcoreCfg l k).2 =
      { s with procConfig, procConfigUsedNb, lcoreResource, mem } := by
  unfold System.mainSetLcoreCfg
  split
  · exact ⟨_, _, _, _, rfl⟩
  · dsimp only
    split <;> exact ⟨_, _, _, _, rfl⟩

theorem slaveExitCb_writes :
    ∃ procConfig lcoreResource, s.slaveExitCb l = { s with procConfig, lcoreResource } := by
  unfold System.slaveExitCb
  dsimp only
  split
  · exact ⟨_, _, rfl⟩
  · split <;> exact ⟨_, _, rfl⟩

/-- `flib_free_lcore_id` writes at most one entry of `lcore_cfg`. -/
theorem flibFreeLcoreId_writes :
    ∃ lcoreCfg, (∀ f', f' ≠ f → lcoreCfg f' = s.lcoreCfg f') ∧
      s.flibFreeLcoreId eal f = { s with lcoreCfg } := by
  unfold System.flibFreeLcoreId
  split
  · exact ⟨s.lcoreCfg, fun _ _ => rfl, rfl⟩
  · exact ⟨_, fun _ other => Function.update_of_ne other _ _, rfl⟩

/-- Giving back a floating id touches neither the rings nor the records of the lcores. -/
theorem returnMappingId_writes :
    ∃ procConfig mappingId lcoreCfg,
      s.returnMappingId eal l = { s with procConfig, mappingId, lcoreCfg } := by
  unfold System.returnMappingId
  split
  · exact ⟨_, _, _, rfl⟩
  · rename_i mapId mapping
    obtain ⟨lcoreCfg, -, written⟩ := flibFreeLcoreId_writes eal s mapId
    rw [written]
    exact ⟨_, _, _, rfl⟩

end DdosFiltering.Control
