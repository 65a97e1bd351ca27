import DdosFiltering.Config.SlaveQueues
import DdosFiltering.Foundation.Attempts

/-!
# The start of the ports

Before it launches the slaves, `main` initialises the ports of the mask with `port_init`: it
configures the device, sets up its queues, checks the flow director if it is asked to, and starts
the device. The first call that fails ends the program. What the driver answers may depend on
all calls made before.

* The calls are the first ones of those that the tables plan, and `main` goes on exactly when it
  has made all of them (`port_calls_are_planned`).
* The queues that the slaves call the NIC on have been set up, on a port that has been started
  afterwards, exactly when the port is one of the devices and the number of the queue is below what
  has been counted for the port (`slaves_call_ready_queues`).
-/

set_option autoImplicit false

namespace DdosFiltering.Master

open Config
open Foundation

/-! ## The program -/

/-- A `port_id` for which there is an entry in `port_queue_conf`. -/
abbrev PortId := Fin rteMaxEthports

/-- The calls to the driver. -/
inductive PortCall where
  | configure (portId : PortId) (rxRings txRings : UInt16)
  | queueSetup (d : Direction) (portId : PortId) (q : UInt16)
  | filterSupported (portId : PortId)
  | filterNop (portId : PortId)
  | filterInfo (portId : PortId)
  | devStart (portId : PortId)
  | promiscuousEnable (portId : PortId)
deriving DecidableEq, Repr

/-- The modes of the flow director, `enum rte_fdir_mode`. -/
inductive FdirMode where
  | perfect
  | signature
  | other
deriving DecidableEq, Repr

/-- The driver: what a call returns behind others, and the mode in `fdir_info` and `rte_errno`
behind some calls. -/
structure PortDriver where
  answer : List PortCall → PortCall → ℤ
  mode : List PortCall → FdirMode
  rteErrno : List PortCall → ℤ

/-- `fdir_init`: what it returns, and the calls made. -/
def fdirInit (driver : PortDriver) (portId : PortId) (made : List PortCall) :
    ℤ × List PortCall :=
  let returnValue := driver.answer made (.filterSupported portId)
  let made := made ++ [.filterSupported portId]
  if returnValue < 0 then
    (-1, made)
  else
    let returnValue := driver.answer made (.filterNop portId)
    let made := made ++ [.filterNop portId] ++ [.filterInfo portId]
    if driver.mode made = .other then
      (-1, made)
    else if returnValue < 0 then
      (driver.rteErrno made, made)
    else
      (0, made)

/-- The loops of `port_init` over the queues: the last answer, and the calls made. -/
def setUpQueues (driver : PortDriver) (d : Direction) (portId : PortId) (returnValue : ℤ)
    (made : List PortCall) : List UInt16 → ℤ × List PortCall
  | [] => (returnValue, made)
  | q :: qs =>
      let returnValue := driver.answer made (.queueSetup d portId q)
      let made := made ++ [.queueSetup d portId q]
      if returnValue < 0 then
        (returnValue, made)
      else
        setUpQueues driver d portId returnValue made qs

/-- The queues from 0 on. -/
def queueIds (rings : UInt16) : List UInt16 := (List.range rings.toNat).map UInt16.ofNat

/-- How a call of `port_init` ends. -/
inductive PortInit where
  | exits
  | returns (ret : ℤ)
deriving DecidableEq, Repr

/-- `port_init`. -/
def portInit (driver : PortDriver) (fdir : Bool) (ethDevCount : UInt8)
    (portQconf : PortQueueConf) (portId : PortId) (made : List PortCall) :
    PortInit × List PortCall :=
  if ethDevCount.toNat ≤ portId then
    (.returns (-1), made)
  else
    let configure := PortCall.configure portId portQconf.queueRxNb portQconf.queueTxNb
    let returnValue := driver.answer made configure
    let made := made ++ [configure]
    if returnValue ≠ 0 then
      (.returns returnValue, made)
    else
      let rx := setUpQueues driver .rx portId returnValue made (queueIds portQconf.queueRxNb)
      if rx.1 < 0 then
        (.returns rx.1, rx.2)
      else
        let tx := setUpQueues driver .tx portId rx.1 rx.2 (queueIds portQconf.queueTxNb)
        if tx.1 < 0 then
          (.returns tx.1, tx.2)
        else
          let checked := if fdir then fdirInit driver portId tx.2 else (0, tx.2)
          if checked.1 ≠ 0 then
            (.exits, checked.2)
          else
            let returnValue := driver.answer checked.2 (.devStart portId)
            let made := checked.2 ++ [.devStart portId]
            if returnValue < 0 then
              (.returns returnValue, made)
            else
              (.returns 0, made ++ [.promiscuousEnable portId])

/-- A port has a queue in each direction at least. -/
def atLeastOne (portQconf : PortQueueConf) : PortQueueConf where
  queueTxNb := if portQconf.queueTxNb = 0 then portQconf.queueTxNb + 1 else portQconf.queueTxNb
  queueRxNb := if portQconf.queueRxNb = 0 then portQconf.queueRxNb + 1 else portQconf.queueRxNb

/-- The port is in the port mask. -/
def enabledPort (g : Globals) (portId : PortId) : Bool :=
  Globals.inMask g.portMask (UInt32.ofNat portId)

/-- The loop of `main` over the ports: the tables behind it, and the calls made. `none`: the program
exits. -/
def initPorts (driver : PortDriver) (fdir : Bool) (ethDevCount : UInt8) (g : Globals)
    (made : List PortCall) : List PortId → Option Globals × List PortCall
  | [] => (some g, made)
  | portId :: portIds =>
      if !enabledPort g portId then
        initPorts driver fdir ethDevCount g made portIds
      else
        let g := { g with
          portQueueConf := Function.update g.portQueueConf portId
            (atLeastOne (g.portQueueConf portId)) }
        let init := portInit driver fdir ethDevCount (g.portQueueConf portId) portId made
        if init.1 = .returns 0 then
          initPorts driver fdir ethDevCount g init.2 portIds
        else
          (none, init.2)

/-- The devices, up to `RTE_MAX_ETHPORTS`. -/
def devices (ethDevCount : UInt8) : List PortId :=
  (List.finRange rteMaxEthports).take ethDevCount.toNat

/-- What `main` does with the ports. -/
def startPorts (driver : PortDriver) (fdir : Bool) (ethDevCount : UInt8) (g : Globals) :
    Option Globals × List PortCall :=
  if ethDevCount < 1 then
    (none, [])
  else
    let init := initPorts driver fdir ethDevCount g [] (devices ethDevCount)
    let nbPortsAvailable := ((devices ethDevCount).filter (enabledPort g)).length
    if nbPortsAvailable = 0 then (none, init.2) else init

/-! ## The plan -/

section Plan

variable (driver : PortDriver) (fdir : Bool) (portId : PortId)

/-- Queues are set up as long as the driver returns no error. -/
def queuePlan (d : Direction) (qs : List UInt16) : List (Attempt PortCall) :=
  qs.map fun q => ⟨.queueSetup d portId q,
    fun made => decide (0 ≤ driver.answer made (.queueSetup d portId q))⟩

/-- The calls of `fdir_init`. The answer to the second one is looked at after the third. -/
def fdirPlan : List (Attempt PortCall) :=
  [⟨.filterSupported portId, fun made => decide (0 ≤ driver.answer made (.filterSupported portId))⟩,
    .certain (.filterNop portId),
    ⟨.filterInfo portId, fun made =>
      let made' := made ++ [.filterInfo portId]
      decide (driver.mode made' ≠ .other ∧
        (driver.answer made.dropLast (.filterNop portId) < 0 → driver.rteErrno made' = 0))⟩]

/-- What `port_init` attempts before it has started the device. -/
def beforeStart (portQconf : PortQueueConf) : List (Attempt PortCall) :=
  ⟨.configure portId portQconf.queueRxNb portQconf.queueTxNb, fun made =>
      decide (driver.answer made
        (.configure portId portQconf.queueRxNb portQconf.queueTxNb) = 0)⟩ ::
    (queuePlan driver portId .rx (queueIds portQconf.queueRxNb) ++
      (queuePlan driver portId .tx (queueIds portQconf.queueTxNb) ++
        if fdir then fdirPlan driver portId else []))

/-- What `port_init` attempts. -/
def portPlan (portQconf : PortQueueConf) : List (Attempt PortCall) :=
  beforeStart driver fdir portId portQconf ++
    [⟨.devStart portId, fun made => decide (0 ≤ driver.answer made (.devStart portId))⟩] ++
    [.certain (.promiscuousEnable portId)]

end Plan

section Follows

variable {driver : PortDriver} {fdir : Bool} {portId : PortId} {made : List PortCall}

/-- The loops over the queues, by induction on the queues. -/
theorem attempt_queuePlan (d : Direction) {returnValue : ℤ} (nonneg : 0 ≤ returnValue)
    (made : List PortCall) (qs : List UInt16) :
    attempt made (queuePlan driver portId d qs) =
      (decide (0 ≤ (setUpQueues driver d portId returnValue made qs).1),
        (setUpQueues driver d portId returnValue made qs).2) := by
  induction qs generalizing made returnValue with
  | nil =>
      rw [setUpQueues, decide_eq_true nonneg]
      rfl
  | cons q qs inductionHypothesis =>
      rw [queuePlan, List.map_cons, attempt_cons, setUpQueues]
      by_cases fails : driver.answer made (.queueSetup d portId q) < 0
      · rw [if_pos fails, if_neg (by simp [fails])]
        simp [fails]
      · rw [if_neg fails, if_pos (by simpa using fails)]
        exact inductionHypothesis (not_lt.mp fails) _

theorem attempt_fdirPlan (made : List PortCall) :
    attempt made (fdirPlan driver portId) =
      (decide ((fdirInit driver portId made).1 = 0), (fdirInit driver portId made).2) := by
  rw [fdirPlan, attempt_cons, fdirInit]
  by_cases unsupported : driver.answer made (.filterSupported portId) < 0
  · rw [if_pos unsupported, if_neg (by simp [unsupported])]
    rfl
  rw [if_neg unsupported, if_pos (by simpa using unsupported), attempt_cons, attempt_cons]
  simp only [Attempt.certain, if_true, List.dropLast_concat]
  generalize made ++ [PortCall.filterSupported portId] = supported
  generalize supported ++ [PortCall.filterNop portId] ++ [PortCall.filterInfo portId] = asked
  by_cases inactive : driver.mode asked = .other
  · rw [if_pos inactive, if_neg (by simp [inactive])]
    rfl
  rw [if_neg inactive]
  by_cases refused : driver.answer supported (.filterNop portId) < 0
  · by_cases noError : driver.rteErrno asked = 0
    · simp [inactive, refused, noError, attempt]
    · simp [inactive, refused, noError]
  · simp [inactive, refused, attempt]

/-- **`port_init` follows its plan.** -/
theorem attempt_portPlan {ethDevCount : UInt8} (present : portId.val < ethDevCount.toNat)
    (portQconf : PortQueueConf) (made : List PortCall) :
    attempt made (portPlan driver fdir portId portQconf) =
      (decide ((portInit driver fdir ethDevCount portQconf portId made).1 = .returns 0),
        (portInit driver fdir ethDevCount portQconf portId made).2) := by
  rw [portInit, if_neg (not_le.mpr present), portPlan, beforeStart, List.cons_append,
    List.cons_append, attempt_cons]
  simp only [List.append_assoc]
  by_cases configured : driver.answer made
      (.configure portId portQconf.queueRxNb portQconf.queueTxNb) = 0
  swap
  · rw [if_neg (by simpa using configured), if_pos configured]
    simp [configured]
  rw [if_pos (by simpa using configured), if_neg (not_not.mpr configured), attempt_append,
    attempt_queuePlan .rx configured.ge]
  generalize setUpQueues driver .rx portId _ _ (queueIds portQconf.queueRxNb) = rx
  by_cases rxFails : rx.1 < 0
  · simp [rxFails, rxFails.ne]
  rw [if_neg rxFails, if_pos (by simpa using rxFails), attempt_append,
    attempt_queuePlan .tx (not_lt.mp rxFails)]
  generalize setUpQueues driver .tx portId _ _ (queueIds portQconf.queueTxNb) = tx
  by_cases txFails : tx.1 < 0
  · simp [txFails, txFails.ne]
  have checks : attempt tx.2 (if fdir then fdirPlan driver portId else []) =
      (decide ((if fdir then fdirInit driver portId tx.2 else (0, tx.2)).1 = 0),
        (if fdir then fdirInit driver portId tx.2 else (0, tx.2)).2) := by
    cases fdir with
    | true => exact attempt_fdirPlan tx.2
    | false => rfl
  rw [if_neg txFails, if_pos (by simpa using txFails), attempt_append, checks]
  generalize (if fdir then fdirInit driver portId tx.2 else (0, tx.2)) = checked
  by_cases fdirFails : checked.1 = 0
  swap
  · simp [fdirFails]
  rw [if_neg (not_not.mpr fdirFails), if_pos (by simpa using fdirFails), List.cons_append,
    attempt_cons]
  by_cases startFails : driver.answer checked.2 (.devStart portId) < 0
  · rw [if_neg (by simp [startFails]), if_pos startFails]
    simp [startFails.ne]
  · rw [if_pos (by simpa using startFails), if_neg startFails]
    simp [attempt, Attempt.certain]

end Follows

/-! ## All ports -/

/-- The calls that `port_init` makes to start a port. -/
def portCalls (fdir : Bool) (portId : PortId) (portQconf : PortQueueConf) : List PortCall :=
  [.configure portId portQconf.queueRxNb portQconf.queueTxNb] ++
    (queueIds portQconf.queueRxNb).map (.queueSetup .rx portId) ++
    (queueIds portQconf.queueTxNb).map (.queueSetup .tx portId) ++
    (if fdir then [.filterSupported portId, .filterNop portId, .filterInfo portId] else []) ++
    [.devStart portId, .promiscuousEnable portId]

/-- The devices in the port mask. -/
def enabledPorts (ethDevCount : UInt8) (g : Globals) : List PortId :=
  (devices ethDevCount).filter (enabledPort g)

/-- The calls that start all ports. -/
def plannedPortCalls (fdir : Bool) (ethDevCount : UInt8) (g : Globals) : List PortCall :=
  (enabledPorts ethDevCount g).flatMap fun p => portCalls fdir p (atLeastOne (g.portQueueConf p))

section All

variable {driver : PortDriver} {fdir : Bool} {ethDevCount : UInt8} {g : Globals}

/-- What the loop of `main` attempts. -/
def portsPlan (driver : PortDriver) (fdir : Bool) (g : Globals) (portIds : List PortId) :
    List (Attempt PortCall) :=
  (portIds.filter (enabledPort g)).flatMap fun p =>
    portPlan driver fdir p (atLeastOne (g.portQueueConf p))

theorem plannedCalls_portPlan (p : PortId) (portQconf : PortQueueConf) :
    plannedCalls (portPlan driver fdir p portQconf) = portCalls fdir p portQconf := by
  cases fdir with
  | true => simp [plannedCalls, portPlan, beforeStart, queuePlan, fdirPlan, portCalls,
      Attempt.certain, Function.comp_def]
  | false => simp [plannedCalls, portPlan, beforeStart, queuePlan, portCalls, Attempt.certain,
      Function.comp_def]

theorem plannedCalls_portsPlan :
    plannedCalls (portsPlan driver fdir g (devices ethDevCount)) =
      plannedPortCalls fdir ethDevCount g := by
  rw [plannedCalls, portsPlan, List.map_flatMap, plannedPortCalls, enabledPorts]
  apply List.flatMap_congr
  intro p _
  exact plannedCalls_portPlan p _

/-- The plan of other ports does not change with the entry of one. -/
theorem portsPlan_update {portId : PortId} {portIds : List PortId} (absent : portId ∉ portIds)
    (portQconf : PortQueueConf) :
    portsPlan driver fdir
        { g with portQueueConf := Function.update g.portQueueConf portId portQconf } portIds =
      portsPlan driver fdir g portIds := by
  unfold portsPlan
  apply List.flatMap_congr
  intro p member
  have other : p ≠ portId := fun same => absent (same ▸ (List.mem_filter.mp member).1)
  simp only [Function.update_of_ne other]

/-- **The loop of `main` follows its plan**, by induction on the ports. -/
theorem initPorts_eq {portIds : List PortId} (distinct : portIds.Nodup)
    (present : ∀ p ∈ portIds, p.val < ethDevCount.toNat) (made : List PortCall) :
    attempt made (portsPlan driver fdir g portIds) =
      ((initPorts driver fdir ethDevCount g made portIds).1.isSome,
        (initPorts driver fdir ethDevCount g made portIds).2) := by
  induction portIds generalizing g made with
  | nil => rfl
  | cons portId portIds inductionHypothesis =>
      obtain ⟨absent, later⟩ := List.nodup_cons.mp distinct
      obtain ⟨here, others⟩ := List.forall_mem_cons.mp present
      rw [initPorts]
      cases isEnabled : enabledPort g portId with
      | false =>
          rw [portsPlan, List.filter_cons_of_neg (by simp [isEnabled]), ← portsPlan]
          exact inductionHypothesis later others made
      | true =>
          rw [portsPlan, List.filter_cons_of_pos isEnabled, List.flatMap_cons, ← portsPlan,
            attempt_append, attempt_portPlan here]
          simp only [Bool.not_true, Bool.false_eq_true, if_false, Function.update_self]
          generalize portInit driver fdir ethDevCount _ portId made = init
          by_cases returned : init.1 = .returns 0
          · rw [if_pos returned, if_pos (by simpa using returned),
              ← portsPlan_update absent (atLeastOne (g.portQueueConf portId))]
            exact inductionHypothesis later others init.2
          · rw [if_neg returned, if_neg (by simpa using returned)]
            rfl

theorem mem_devices {p : PortId} : p ∈ devices ethDevCount ↔ p.val < ethDevCount.toNat := by
  rw [devices, List.mem_take_iff_getElem]
  constructor
  · rintro ⟨i, within, rfl⟩
    rw [List.getElem_finRange]
    exact (lt_min_iff.mp within).1
  · intro present
    have inside : p.val < (List.finRange rteMaxEthports).length := by
      rw [List.length_finRange]
      exact p.isLt
    exact ⟨p.val, lt_min present inside, by rw [List.getElem_finRange]; rfl⟩

theorem nodup_devices (ethDevCount : UInt8) : (devices ethDevCount).Nodup :=
  (List.nodup_finRange _).sublist (List.take_sublist _ _)

/-- What `main` does with the ports, from its plan. -/
theorem startPorts_eq :
    startPorts driver fdir ethDevCount g =
      if enabledPorts ethDevCount g = [] then (none, [])
      else initPorts driver fdir ethDevCount g [] (devices ethDevCount) := by
  unfold startPorts
  by_cases noDevice : ethDevCount < 1
  · have zero : ethDevCount.toNat = 0 := Nat.lt_one_iff.mp (UInt8.lt_iff_toNat_lt.mp noDevice)
    have empty : enabledPorts ethDevCount g = [] := by
      rw [enabledPorts, devices, zero, List.take_zero, List.filter_nil]
    rw [if_pos noDevice, if_pos empty]
  · rw [if_neg noDevice]
    simp only [← enabledPorts.eq_1, List.length_eq_zero_iff]
    by_cases empty : enabledPorts ethDevCount g = []
    · have follows : attempt [] (portsPlan driver fdir g (devices ethDevCount)) = _ :=
        initPorts_eq (nodup_devices ethDevCount) (fun p => mem_devices.mp) []
      rw [portsPlan, ← enabledPorts, empty] at follows
      rw [if_pos empty, if_pos empty]
      exact congrArg (none, ·) (congrArg Prod.snd follows).symm
    · rw [if_neg empty, if_neg empty]

/-- The calls are the first ones of the plan. -/
theorem startPorts_calls (driver : PortDriver) (fdir : Bool) (ethDevCount : UInt8)
    (g : Globals) :
    (startPorts driver fdir ethDevCount g).2 <+: plannedPortCalls fdir ethDevCount g := by
  rw [startPorts_eq]
  split
  · exact List.nil_prefix
  · have follows : attempt [] (portsPlan driver fdir g (devices ethDevCount)) = _ :=
      initPorts_eq (nodup_devices ethDevCount) (fun p => mem_devices.mp) []
    obtain ⟨done, calls, isPrefix, -⟩ :=
      attempt_prefix [] (portsPlan driver fdir g (devices ethDevCount))
    rw [follows, List.nil_append] at calls
    rw [calls, ← plannedCalls_portsPlan]
    exact isPrefix

/-- `main` goes on when all calls have been made: the last one cannot fail. -/
theorem startPorts_isSome_iff :
    (startPorts driver fdir ethDevCount g).1.isSome ↔
      enabledPorts ethDevCount g ≠ [] ∧
        (startPorts driver fdir ethDevCount g).2 = plannedPortCalls fdir ethDevCount g := by
  rw [startPorts_eq]
  by_cases none : enabledPorts ethDevCount g = []
  · rw [if_pos none]
    exact iff_of_false Bool.false_ne_true fun some => some.1 none
  rw [if_neg none]
  obtain ⟨before, p, ports⟩ := (List.eq_nil_or_concat _).resolve_left none
  obtain ⟨front, last, split⟩ : ∃ front last, portsPlan driver fdir g (devices ethDevCount) =
      front ++ [.certain last] := by
    have plan := congrArg (List.flatMap fun p =>
      portPlan driver fdir p (atLeastOne (g.portQueueConf p))) ports
    rw [List.concat_eq_append, List.flatMap_append, List.flatMap_singleton] at plan
    exact ⟨_, _, plan.trans (List.append_assoc _ _ _).symm⟩
  have follows : attempt [] (portsPlan driver fdir g (devices ethDevCount)) = _ :=
    initPorts_eq (nodup_devices ethDevCount) (fun p => mem_devices.mp) []
  have finishes := attempt_finishes_iff [] front last
  rw [← split, plannedCalls_portsPlan, follows] at finishes
  exact finishes.trans ⟨fun all => ⟨none, all⟩, fun all => all.2⟩

/-- **The calls to the driver are those that are planned**, up to the first one that fails,
whatever the driver answers; and `main` goes on exactly when there is a port to start and all
calls have been made. -/
theorem port_calls_are_planned (driver : PortDriver) (fdir : Bool) (ethDevCount : UInt8)
    (g : Globals) :
    (startPorts driver fdir ethDevCount g).2 <+: plannedPortCalls fdir ethDevCount g ∧
      ((startPorts driver fdir ethDevCount g).1.isSome ↔
        enabledPorts ethDevCount g ≠ [] ∧
          (startPorts driver fdir ethDevCount g).2 = plannedPortCalls fdir ethDevCount g) :=
  ⟨startPorts_calls driver fdir ethDevCount g, startPorts_isSome_iff⟩

end All

/-! ## The queues of the slaves -/

/-- The queue has been set up on the port, and the port has been started afterwards. -/
def QueueReady (calls : List PortCall) (d : Direction) (port queue : UInt8) : Prop :=
  ∃ (p : PortId) (q : UInt16) (front back : List PortCall),
    calls = front ++ .devStart p :: back ∧ .queueSetup d p q ∈ front ∧
      p.val = port.toNat ∧ q.toNat = queue.toNat

theorem mem_queueIds {q rings : UInt16} : q ∈ queueIds rings ↔ q < rings := by
  rw [queueIds, List.mem_map, UInt16.lt_iff_toNat_lt]
  constructor
  · rintro ⟨n, below, rfl⟩
    rw [List.mem_range] at below
    rwa [UInt16.toNat_ofNat_of_lt' (below.trans rings.toNat_lt)]
  · intro below
    exact ⟨q.toNat, List.mem_range.mpr below, UInt16.ofNat_toNat⟩

theorem queuesSetUp_eq (d : Direction) (portQconf : PortQueueConf) :
    (d.queueNb (atLeastOne portQconf)).toNat = queuesSetUp d portQconf := by
  unfold queuesSetUp
  cases d with
  | rx =>
      by_cases zero : portQconf.queueRxNb = 0
      · simp [Direction.queueNb, atLeastOne, zero]
      · simp [Direction.queueNb, atLeastOne, zero]
  | tx =>
      by_cases zero : portQconf.queueTxNb = 0
      · simp [Direction.queueNb, atLeastOne, zero]
      · simp [Direction.queueNb, atLeastOne, zero]

/-- The calls of `port_init` before the port is started. -/
theorem portCalls_split (fdir : Bool) (p : PortId) (portQconf : PortQueueConf) :
    ∃ front, portCalls fdir p portQconf = front ++ [.devStart p, .promiscuousEnable p] ∧
      ∀ d p' q, .queueSetup d p' q ∈ front ↔ p' = p ∧ q ∈ queueIds (d.queueNb portQconf) := by
  refine ⟨_, rfl, ?_⟩
  intro d p' q
  have noSetup : PortCall.queueSetup d p' q ∉
      (if fdir then [.filterSupported p, .filterNop p, .filterInfo p] else []) := by
    cases fdir <;> simp
  cases d <;> simp [noSetup, Direction.queueNb, and_comm, eq_comm]

/-- **The queues that are ready**: those of the ports in the mask, up to what has been counted. -/
theorem ready_planned_iff {fdir : Bool} {ethDevCount : UInt8} {g : Globals} {d : Direction}
    {port queue : UInt8} :
    QueueReady (plannedPortCalls fdir ethDevCount g) d port queue ↔
      ∃ p ∈ enabledPorts ethDevCount g, p.val = port.toNat ∧
        queue.toNat < queuesSetUp d (g.portQueueConf p) := by
  have below (p : PortId) (q : UInt16) :
      q ∈ queueIds (d.queueNb (atLeastOne (g.portQueueConf p))) ↔
        q.toNat < queuesSetUp d (g.portQueueConf p) := by
    rw [mem_queueIds, UInt16.lt_iff_toNat_lt, queuesSetUp_eq]
  constructor
  · rintro ⟨p, q, front, back, calls, setUp, here, number⟩
    have planned : PortCall.queueSetup d p q ∈ plannedPortCalls fdir ethDevCount g := by
      rw [calls]
      exact List.mem_append_left _ setUp
    obtain ⟨p', inUse, called⟩ := List.mem_flatMap.mp planned
    obtain ⟨front', split, setsUp⟩ := portCalls_split fdir p' (atLeastOne (g.portQueueConf p'))
    rw [split, List.mem_append] at called
    obtain ⟨rfl, isId⟩ := (setsUp d p q).mp (called.resolve_right (by simp))
    exact ⟨p, inUse, here, number ▸ (below p q).mp isId⟩
  · rintro ⟨p, inUse, here, counted⟩
    obtain ⟨before, after, ports⟩ := List.append_of_mem inUse
    obtain ⟨front, split, setsUp⟩ := portCalls_split fdir p (atLeastOne (g.portQueueConf p))
    have number : (UInt16.ofNat queue.toNat).toNat = queue.toNat :=
      UInt16.toNat_ofNat_of_lt' (queue.toNat_lt.trans (by decide))
    have calls := congrArg (List.flatMap fun p =>
      portCalls fdir p (atLeastOne (g.portQueueConf p))) ports
    rw [List.flatMap_append, List.flatMap_cons, split, List.append_assoc,
      ← List.append_assoc] at calls
    refine ⟨p, UInt16.ofNat queue.toNat, _, _, calls, List.mem_append_right _ ?_, here, number⟩
    exact (setsUp d p _).mpr ⟨rfl, (below p _).mpr (number.trans_lt counted)⟩

section Slaves

open Control (System)
open Datapath (DatapathEvent)

variable {grow : ℕ → ℕ → ℕ} {unset : ℤ} {file : List UInt8} {g g' : Globals} {eal : Control.Eal}
  {pool : List Control.BufPtr} {content : Control.BufPtr → BridgeMsg} {s : System}
  {guard : System → Control.Action → Prop} {l f : LcoreId} {conf : UInt8}

/-- **The queues that the slaves call the NIC on are ready exactly when they exist.** In every run
of the master and its slaves behind a start of the ports that has come to its end: a call of a
slave is on a queue that has been set up on a port that was started afterwards exactly when the
port that its line names is a device and in the mask of `main`, and the queue is one of those
counted for the port. -/
theorem slaves_call_ready_queues
    (accepted : parseConfigfile grow unset g (some file) = .returns 0 g')
    (distinct : pool.Nodup)
    (run : Run (System.step eal) guard (startedWith eal g' pool content) s)
    (runs : s.phase l = .running f conf) {driver : PortDriver} {fdir : Bool}
    {ethDevCount : UInt8} {mask : UInt32}
    (started : (startPorts driver fdir ethDevCount { g' with portMask := mask }).1.isSome) :
    ∃ line ∈ unmaskedLines g.portMask unset file, line.configId = conf.toNat ∧
      ∀ trace, SlaveCalls g' conf trace → ∀ event ∈ trace, ∀ d port queue,
        nicQueue event = some (d, port, queue) →
          (QueueReady (startPorts driver fdir ethDevCount { g' with portMask := mask }).2
              d port queue ↔
            ∃ p : PortId, p.val = (d.port line).toNat ∧ p.val < ethDevCount.toNat ∧
              Globals.inMask mask (d.port line) ∧
              (d.queue line).toNat % 2 ^ 8 < queuesSetUp d (g'.portQueueConf p)) := by
  have sound : Control.Sound (fun c => (g'.procConfig c).enabled) s :=
    run.invariant _ (.initial eal _ distinct content) fun sound _ taken => sound.step taken
  obtain ⟨line, member, configId, safe, c, same, entry, -⟩ := line_of_running accepted sound runs
  refine ⟨line, member, configId, ?_⟩
  intro trace called event inTrace d port queue calls
  obtain ⟨rfl, rfl⟩ := called.nicQueue same inTrace calls
  have planned := (startPorts_isSome_iff.mp started).2
  have enabled_iff {p : PortId} (here : p.val = (d.port line).toNat) :
      enabledPort { g' with portMask := mask } p = Globals.inMask mask (d.port line) := by
    rw [enabledPort, here, UInt32.ofNat_toNat]
  rw [planned, ready_planned_iff, entry, portOf_entry (safe.port d), queueOf_entry]
  constructor
  · rintro ⟨p, inUse, here, counted⟩
    obtain ⟨device, isEnabled⟩ := List.mem_filter.mp inUse
    exact ⟨p, here, mem_devices.mp device, enabled_iff here ▸ isEnabled, counted⟩
  · rintro ⟨p, here, present, inMask, counted⟩
    refine ⟨p, List.mem_filter.mpr ⟨mem_devices.mpr present, ?_⟩, here, counted⟩
    rw [enabled_iff here]
    exact inMask

/-- A driver that returns 0. -/
def obliging : PortDriver := ⟨fun _ _ => 0, fun _ => .other, fun _ => 0⟩

/-- The second line of `twoQueues` receives from port 1, and there is one device only. -/
theorem slaves_call_ready_queues_oneDevice :
    ∃ s : System, s.phase 2 = .running 4 1 ∧
      ∃ line ∈ unmaskedLines 3 0 twoQueues, line.configId = (1 : UInt8).toNat ∧
        ∀ trace, SlaveCalls twoQueuesTables 1 trace → ∀ event ∈ trace, ∀ d port queue,
          nicQueue event = some (d, port, queue) →
            (QueueReady (startPorts obliging false 1 { twoQueuesTables with portMask := 3 }).2
                d port queue ↔
              ∃ p : PortId, p.val = (d.port line).toNat ∧ p.val < (1 : UInt8).toNat ∧
                Globals.inMask 3 (d.port line) ∧
                (d.queue line).toNat % 2 ^ 8 <
                  queuesSetUp d (twoQueuesTables.portQueueConf p)) := by
  obtain ⟨s, executed, phases⟩ := twoQueues_run
  obtain ⟨-, phase₂⟩ := Prod.mk.inj phases
  have run : Run (System.step Control.threeLcores) anyAction
      (startedWith Control.threeLcores twoQueuesTables [1, 2, 3] fun _ => ⟨.start, []⟩) s :=
    .of_exec (fun _ _ _ => trivial) executed
  have started : (startPorts obliging false 1
      { twoQueuesTables with portMask := 3 }).1.isSome := by rfl
  exact ⟨s, phase₂,
    slaves_call_ready_queues twoQueues_accepted (by decide) run phase₂ started⟩

end Slaves

end DdosFiltering.Master
