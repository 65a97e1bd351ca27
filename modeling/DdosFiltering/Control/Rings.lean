import DdosFiltering.Control.Ipc
import DdosFiltering.Foundation.Handles
import DdosFiltering.Libc
import Mathlib.Algebra.Order.BigOperators.Group.List
import Mathlib.Algebra.Order.Group.Nat

/-!
# The rings behind the pointers

`main` creates two rings for each lcore with `create_ms_ring`, under names that end in the number
of the lcore, and keeps pointers to them in `lcore_resource`. A ring that is registered under the
name already is attached instead. `send_cmd` and `get_cmd` go through these pointers. A slave
calls them with the floating id that it has, and so `remapping_slave_resource` copies the
entry of its lcore to the one of the id, in the memory of the slave.

Different names have different rings, so what is sent through one pointer does not show up
behind another one: whatever rings there were before, the master and the slaves get what they would
get with one queue for each lcore and direction (`named_rings_are_queues`).
-/

set_option autoImplicit false

namespace DdosFiltering.Control

open Foundation

/-! ## The rings of the library -/

/-- The address of a `struct rte_ring`. -/
abbrev RingPtr := ℕ

/-- The rings that the library has registered, by their names. -/
abbrev RegisteredRings := List (List Char × RingPtr)

/-- `rte_ring_create`, for a name that is not registered. A ring that it returns is a new one. -/
structure RingLibrary where
  create : RegisteredRings → List Char → Option RingPtr
  fresh : ∀ registered name p, create registered name = some p →
    p ∉ registered.map Prod.snd

/-- `create_ring`: the pointer that it returns, and the rings that are registered then. -/
def createRing (lib : RingLibrary) (registered : RegisteredRings) (ringName : List Char) :
    Option RingPtr × RegisteredRings :=
  match registered.lookup ringName with
  | some p => (some p, registered)
  | none =>
      match lib.create registered ringName with
      | some p => (some p, registered ++ [(ringName, p)])
      | none => (none, registered)

/-! ## The rings of the lcores -/

/-- `SLAVE_RING_MAX_NAME_LEN`. -/
def slaveRingMaxNameLen : ℕ := 32

/-- `RING_MASTER_NAME` and `RING_SLAVE_NAME`. -/
def ringNames (fd : Fin 2) : List Char :=
  if fd = 0 then "bridge_m2s_".toList else "bridge_s2m_".toList

/-- `lcore_resource[].ring_name[]`, through its buffer. -/
def ringName (r : Ring) : List Char :=
  (ringNames r.2 ++ decimal r.1).take (slaveRingMaxNameLen - 1)

/-- The rings that are registered, and the pointers in `lcore_resource`. -/
structure RingTable where
  registered : RegisteredRings
  ring : Ring → Option RingPtr

/-- One of the two steps of `create_ms_ring`: the ring is created or attached, and its pointer
stored. -/
def RingTable.attach (lib : RingLibrary) (s : RingTable) (r : Ring) : Option RingPtr × RingTable :=
  let created := createRing lib s.registered (ringName r)
  (created.1, ⟨created.2, Function.update s.ring r created.1⟩)

/-- `create_ms_ring`. -/
def createMsRing (lib : RingLibrary) (s : RingTable) (lcoreId : LcoreId) : ℤ × RingTable :=
  let toSlave := s.attach lib (lcoreId, 0)
  if toSlave.1 = none then
    (-1, toSlave.2)
  else
    let toMaster := toSlave.2.attach lib (lcoreId, 1)
    if toMaster.1 = none then (-1, toMaster.2) else (0, toMaster.2)

/-- The loop of `main` over the lcores. `none`: the program exits. -/
def createAllRings (lib : RingLibrary) (enabled : LcoreId → Bool) (s : RingTable) :
    List LcoreId → Option RingTable
  | [] => some s
  | i :: is =>
      if enabled i then
        let created := createMsRing lib s i
        if created.1 ≠ 0 then none else createAllRings lib enabled created.2 is
      else
        createAllRings lib enabled s is

/-- `remapping_slave_resource`, on the pointers. -/
def remappingSlaveResource (ring : Ring → Option RingPtr) (oldId newId : LcoreId) (r : Ring) :
    Option RingPtr :=
  if r.1 = newId then ring (oldId, r.2) else ring r

/-! ## Calls through the pointers -/

/-- The message pool, what is in the rings of the library, and the buffers. All rings have the size
that `create_ms_ring` asks for. -/
structure RingMem where
  free : List BufPtr
  slots : RingPtr → List BufPtr
  content : BufPtr → BridgeMsg

namespace RingMem

/-- `rte_mempool_get`, as in `IpcMem`. -/
def mempoolGet (mem : RingMem) (k : ℕ) : Option (BufPtr × RingMem) :=
  match mem.free[k % mem.free.length]? with
  | some b => some (b, { mem with free := mem.free.erase b })
  | none => none

/-- `rte_mempool_put`. -/
def mempoolPut (mem : RingMem) (b : BufPtr) : RingMem := { mem with free := b :: mem.free }

/-- `*(struct bridge_msg_s *) b = msg`. -/
def write (mem : RingMem) (b : BufPtr) (msg : BridgeMsg) : RingMem :=
  { mem with content := Function.update mem.content b msg }

/-- `rte_ring_enqueue`. -/
def ringEnqueue (mem : RingMem) (p : RingPtr) (b : BufPtr) : Option RingMem :=
  if (mem.slots p).length < ringCapacity then
    some { mem with slots := Function.update mem.slots p (mem.slots p ++ [b]) }
  else
    none

/-- `rte_ring_dequeue`. -/
def ringDequeue (mem : RingMem) (p : RingPtr) : Option (BufPtr × RingMem) :=
  match mem.slots p with
  | b :: rest => some (b, { mem with slots := Function.update mem.slots p rest })
  | [] => none

/-- The memory as it is seen through the pointers, with one queue for each of them. -/
def through (ring : Ring → Option RingPtr) (mem : RingMem) : IpcMem where
  free := mem.free
  ring := viewed ring [] mem.slots
  content := mem.content

end RingMem

/-- `send_cmd`, through the pointers of a table. -/
def sendThrough (enabled : LcoreId → Bool) (ring : Ring → Option RingPtr) (mem : RingMem)
    (slaveId : LcoreId) (msg2send : BridgeMsg) (isMaster : Bool) (k : ℕ) : ℤ × RingMem :=
  if isMaster && !enabled slaveId then
    (-1, mem)
  else
    match ring (sendRing slaveId isMaster) with
    | none => (-1, mem)
    | some p =>
        match mem.mempoolGet k with
        | none => (-1, mem)
        | some (b, mem) =>
            let mem := mem.write b msg2send
            match mem.ringEnqueue p b with
            | some mem => (0, mem)
            | none => (-1, mem.mempoolPut b)

/-- `get_cmd`, through the pointers of a table. -/
def getThrough (enabled : LcoreId → Bool) (ring : Ring → Option RingPtr) (mem : RingMem)
    (slaveId : LcoreId) (isMaster : Bool) : Except ℤ BridgeMsg × RingMem :=
  if isMaster && !enabled slaveId then
    (.error (-1), mem)
  else
    match ring (getRing slaveId isMaster) with
    | none => (.error (-1), mem)
    | some p =>
        match mem.ringDequeue p with
        | none => (.error enoent, mem)
        | some (b, mem) => (.ok (mem.content b), mem.mempoolPut b)

/-- A call of the master, or of the slave of an lcore that has a floating id. Where the master
drains a ring of a slave, it calls as the slave under the id of its lcore. -/
inductive RingCall where
  | masterSend (slaveId : LcoreId) (msg : BridgeMsg) (k : ℕ)
  | masterGet (slaveId : LcoreId)
  | slaveSend (lcoreId flcoreId : LcoreId) (msg : BridgeMsg) (k : ℕ)
  | slaveGet (lcoreId flcoreId : LcoreId)
deriving DecidableEq

/-- What a call returns. -/
inductive RingReturn where
  | sent (ret : ℤ)
  | got (result : Except ℤ BridgeMsg)

/-- A call through the pointers. -/
def RingCall.through (enabled : LcoreId → Bool) (ring : Ring → Option RingPtr) (mem : RingMem) :
    RingCall → RingReturn × RingMem
  | .masterSend l msg k => (sendThrough enabled ring mem l msg true k).map .sent id
  | .masterGet l => (getThrough enabled ring mem l true).map .got id
  | .slaveSend l f msg k =>
      (sendThrough enabled (remappingSlaveResource ring l f) mem f msg false k).map .sent id
  | .slaveGet l f => (getThrough enabled (remappingSlaveResource ring l f) mem f false).map .got id

/-- The same call on one queue for each lcore and direction. -/
def RingCall.keyed (table : IpcTable) (mem : IpcMem) : RingCall → RingReturn × IpcMem
  | .masterSend l msg k => (sendCmd table mem l msg true k).map .sent id
  | .masterGet l => (getCmd table mem l true).map .got id
  | .slaveSend l _ msg k => (sendCmd table mem l msg false k).map .sent id
  | .slaveGet l _ => (getCmd table mem l false).map .got id

/-- What some calls return one after the other, and the memory they leave. -/
def runCalls {Mem : Type} (call : Mem → RingCall → RingReturn × Mem) (mem : Mem) :
    List RingCall → List RingReturn × Mem
  | [] => ([], mem)
  | c :: cs =>
      let (ret, mem) := call mem c
      let (rets, mem) := runCalls call mem cs
      (ret :: rets, mem)

/-! ## Names -/

theorem ringName_eq (r : Ring) : ringName r = ringNames r.2 ++ decimal r.1 := by
  have number : (decimal r.1).length ≤ 3 :=
    length_decimal_le (by decide) (r.1.isLt.trans (by decide))
  have name : (ringNames r.2).length = 11 := by
    unfold ringNames
    split <;> rfl
  have room : slaveRingMaxNameLen - 1 = 31 := rfl
  apply List.take_of_length_le
  rw [List.length_append]
  omega

/-- **No two rings have one name.** -/
theorem ringName_injective : Function.Injective ringName := by
  rintro ⟨l, fd⟩ ⟨l', fd'⟩ same
  rw [ringName_eq, ringName_eq] at same
  have names : ∀ fd fd' : Fin 2, (ringNames fd).length = (ringNames fd').length ∧
      (ringNames fd = ringNames fd' → fd = fd') := by decide
  obtain ⟨sameLength, injective⟩ := names fd fd'
  obtain ⟨prefixes, numbers⟩ := List.append_inj same sameLength
  exact Prod.ext (Fin.ext (decimal_injective numbers)) (injective prefixes)

/-! ## The table -/

/-- Each pointer is to the ring that is registered under its name. -/
structure RingTable.Named (s : RingTable) : Prop where
  distinct : (s.registered.map Prod.snd).Nodup
  named : ∀ r p, s.ring r = some p → s.registered.lookup (ringName r) = some p

theorem RingTable.Named.separate {s : RingTable} (ok : s.Named) : Separate s.ring := by
  intro r r' p here there
  exact ringName_injective (eq_of_lookup ok.distinct (ok.named r p here) (ok.named r' p there))

section Create

variable {lib : RingLibrary} {s : RingTable}

/-- What `create_ring` does: the ring is found or new, and all other rings stay. -/
theorem createRing_spec (lib : RingLibrary) (distinct : (s.registered.map Prod.snd).Nodup)
    (name : List Char) :
    ((createRing lib s.registered name).2.map Prod.snd).Nodup ∧
      (∀ name' p, s.registered.lookup name' = some p →
        (createRing lib s.registered name).2.lookup name' = some p) ∧
      ∀ p, (createRing lib s.registered name).1 = some p →
        (createRing lib s.registered name).2.lookup name = some p := by
  rw [createRing]
  cases found : s.registered.lookup name with
  | some p =>
      refine ⟨distinct, fun _ _ there => there, ?_⟩
      rintro q same
      rw [← same]
      exact found
  | none =>
      cases created : lib.create s.registered name with
      | none => exact ⟨distinct, fun _ _ there => there, nofun⟩
      | some p =>
          refine ⟨?_, fun _ _ there => lookup_append_of_some there [(name, p)], ?_⟩
          · have new := lib.fresh _ _ _ created
            rw [List.map_append, List.nodup_append_comm]
            exact List.nodup_cons.mpr ⟨new, distinct⟩
          · rintro q same
            rw [← same]
            exact lookup_concat_of_none found p

theorem RingTable.Named.attach (ok : s.Named) (lib : RingLibrary) (r : Ring) :
    (s.attach lib r).2.Named := by
  obtain ⟨distinct, stays, found⟩ := createRing_spec lib ok.distinct (ringName r)
  refine ⟨distinct, ?_⟩
  intro r' p here
  by_cases same : r' = r
  · subst same
    exact found p (by simpa [RingTable.attach] using here)
  · apply stays
    apply ok.named
    simpa [RingTable.attach, same] using here

/-- The pointer of the ring is what `create_ring` has returned, and the others stay. -/
theorem attach_ring (lib : RingLibrary) (s : RingTable) (r r' : Ring) :
    (s.attach lib r).2.ring r' = if r' = r then (s.attach lib r).1 else s.ring r' :=
  Function.update_apply s.ring r (s.attach lib r).1 r'

/-- What `create_ms_ring` does to the table. -/
theorem createMsRing_spec (ok : s.Named) (lib : RingLibrary) (i : LcoreId) :
    (createMsRing lib s i).2.Named ∧
      ((createMsRing lib s i).1 = 0 → ∀ r, ((createMsRing lib s i).2.ring r).isSome =
        (decide (r.1 = i) || (s.ring r).isSome)) := by
  have first := ok.attach lib (i, 0)
  have second := first.attach lib (i, 1)
  have failed : (-1 : ℤ) ≠ 0 := by decide
  rw [createMsRing]
  dsimp only
  by_cases noSlave : (s.attach lib (i, 0)).1 = none
  · rw [if_pos noSlave]
    exact ⟨first, fun zero => absurd zero failed⟩
  rw [if_neg noSlave]
  by_cases noMaster : ((s.attach lib (i, 0)).2.attach lib (i, 1)).1 = none
  · rw [if_pos noMaster]
    exact ⟨second, fun zero => absurd zero failed⟩
  rw [if_neg noMaster]
  refine ⟨second, fun _ r => ?_⟩
  rw [attach_ring, attach_ring]
  by_cases toMaster : r = (i, 1)
  · rw [if_pos toMaster, Option.isSome_iff_ne_none.mpr noMaster, toMaster]
    simp
  rw [if_neg toMaster]
  by_cases toSlave : r = (i, 0)
  · rw [if_pos toSlave, Option.isSome_iff_ne_none.mpr noSlave, toSlave]
    simp
  rw [if_neg toSlave]
  have other : r.1 ≠ i := by
    intro here
    obtain ⟨l, fd⟩ := r
    subst here
    match fd with
    | 0 => exact toSlave rfl
    | 1 => exact toMaster rfl
  rw [decide_eq_false other, Bool.false_or]

/-- A ring that has its pointer is found again. -/
theorem RingTable.Named.attach_again (ok : s.Named) (lib : RingLibrary) {r : Ring} {p : RingPtr}
    (here : s.ring r = some p) : s.attach lib r = (some p, s) := by
  have found : createRing lib s.registered (ringName r) = (some p, s.registered) := by
    rw [createRing, ok.named r p here]
  rw [RingTable.attach, found, ← here, Function.update_eq_self]

/-- `create_ms_ring` attaches the rings that are there, and creates none. -/
theorem createMsRing_again (ok : s.Named) (lib : RingLibrary) {i : LcoreId}
    (here : ∀ fd, (s.ring (i, fd)).isSome) : createMsRing lib s i = (0, s) := by
  obtain ⟨toSlave, slaveHere⟩ := Option.isSome_iff_exists.mp (here 0)
  obtain ⟨toMaster, masterHere⟩ := Option.isSome_iff_exists.mp (here 1)
  rw [createMsRing, ok.attach_again lib slaveHere]
  dsimp only
  rw [if_neg nofun, ok.attach_again lib masterHere]
  exact if_neg nofun

/-- **The loop of `main` creates the rings of the lcores that are enabled**, by induction on the
lcores. -/
theorem createAllRings_spec {enabled : LcoreId → Bool} {is : List LcoreId} {t : RingTable}
    (ok : s.Named) (created : createAllRings lib enabled s is = some t) :
    t.Named ∧ ∀ r, (t.ring r).isSome =
      (decide (r.1 ∈ is.filter enabled) || (s.ring r).isSome) := by
  induction is generalizing s with
  | nil =>
      obtain rfl := Option.some.inj created
      exact ⟨ok, fun r => rfl⟩
  | cons i is inductionHypothesis =>
      rw [createAllRings] at created
      cases isEnabled : enabled i with
      | false =>
          rw [isEnabled, if_neg Bool.false_ne_true] at created
          rw [List.filter_cons_of_neg (by simp [isEnabled])]
          exact inductionHypothesis ok created
      | true =>
          rw [isEnabled, if_pos rfl] at created
          rw [List.filter_cons_of_pos isEnabled]
          obtain ⟨named, rings⟩ := createMsRing_spec ok lib i
          dsimp only at created
          split at created
          · cases created
          · rename_i returned
            obtain ⟨named', rings'⟩ := inductionHypothesis named created
            refine ⟨named', fun r => ?_⟩
            rw [rings', rings (not_not.mp returned), ← Bool.or_assoc, ← Bool.decide_or]
            congr 1
            rw [decide_eq_decide, List.mem_cons, or_comm]

end Create

/-! ## The calls -/

section Calls

variable {enabled : LcoreId → Bool} {ring : Ring → Option RingPtr} {mem : RingMem}

/-- What `send_cmd` and `get_cmd` see of a table of pointers. -/
def ipcTable (enabled : LcoreId → Bool) (ring : Ring → Option RingPtr) : IpcTable where
  enabled := enabled
  created r := (ring r).isSome

theorem mempoolGet_through (mem : RingMem) (k : ℕ) :
    (mem.through ring).mempoolGet k =
      (mem.mempoolGet k).map (Prod.map id (RingMem.through ring)) := by
  have sees : (mem.through ring).free = mem.free := rfl
  rw [IpcMem.mempoolGet, RingMem.mempoolGet, sees]
  cases mem.free[k % mem.free.length]? <;> rfl

theorem ringEnqueue_through (separate : Separate ring) {r : Ring} {p : RingPtr}
    (here : ring r = some p) (mem : RingMem) (b : BufPtr) :
    (mem.through ring).ringEnqueue r b = (mem.ringEnqueue p b).map (RingMem.through ring) := by
  have sees : (mem.through ring).ring r = mem.slots p := viewed_of_some here [] mem.slots
  rw [IpcMem.ringEnqueue, RingMem.ringEnqueue, sees]
  split
  · have written := viewed_update separate here [] mem.slots (mem.slots p ++ [b])
    exact congrArg (fun ring => some (IpcMem.mk mem.free ring mem.content)) written.symm
  · rfl

theorem ringDequeue_through (separate : Separate ring) {r : Ring} {p : RingPtr}
    (here : ring r = some p) (mem : RingMem) :
    (mem.through ring).ringDequeue r =
      (mem.ringDequeue p).map (Prod.map id (RingMem.through ring)) := by
  have sees : (mem.through ring).ring r = mem.slots p := viewed_of_some here [] mem.slots
  rw [IpcMem.ringDequeue, RingMem.ringDequeue, sees]
  cases mem.slots p with
  | nil => rfl
  | cons b rest =>
      have written := viewed_update separate here [] mem.slots rest
      exact congrArg (fun ring => some (b, IpcMem.mk mem.free ring mem.content)) written.symm

/-- **A call of `send_cmd` through separate pointers is one on the queues.** -/
theorem sendThrough_refines (separate : Separate ring) (mem : RingMem) (slaveId : LcoreId)
    (msg : BridgeMsg) (isMaster : Bool) (k : ℕ) :
    sendCmd (ipcTable enabled ring) (mem.through ring) slaveId msg isMaster k =
      (sendThrough enabled ring mem slaveId msg isMaster k).map id (RingMem.through ring) := by
  have sees : (ipcTable enabled ring).enabled slaveId = enabled slaveId := rfl
  rw [sendCmd, sendThrough, sees]
  by_cases disabled : (isMaster && !enabled slaveId) = true
  · rw [if_pos disabled, if_pos disabled]
    rfl
  rw [if_neg disabled, if_neg disabled]
  cases here : ring (sendRing slaveId isMaster) with
  | none =>
      rw [if_pos (by simp [ipcTable, here])]
      rfl
  | some p =>
      rw [if_neg (by simp [ipcTable, here]), mempoolGet_through]
      cases mem.mempoolGet k with
      | none => rfl
      | some got =>
          obtain ⟨b, mem⟩ := got
          have written : (mem.through ring).write b msg = (mem.write b msg).through ring := rfl
          simp only [Option.map_some, Prod.map_apply, id_eq, written,
            ringEnqueue_through separate here]
          cases (mem.write b msg).ringEnqueue p b <;> rfl

/-- **A call of `get_cmd` through separate pointers is one on the queues.** -/
theorem getThrough_refines (separate : Separate ring) (mem : RingMem) (slaveId : LcoreId)
    (isMaster : Bool) :
    getCmd (ipcTable enabled ring) (mem.through ring) slaveId isMaster =
      (getThrough enabled ring mem slaveId isMaster).map id (RingMem.through ring) := by
  have sees : (ipcTable enabled ring).enabled slaveId = enabled slaveId := rfl
  rw [getCmd, getThrough, sees]
  by_cases disabled : (isMaster && !enabled slaveId) = true
  · rw [if_pos disabled, if_pos disabled]
    rfl
  rw [if_neg disabled, if_neg disabled]
  cases here : ring (getRing slaveId isMaster) with
  | none =>
      rw [if_pos (by simp [ipcTable, here])]
      rfl
  | some p =>
      rw [if_neg (by simp [ipcTable, here]), ringDequeue_through separate here]
      dsimp only
      cases mem.ringDequeue p <;> rfl

/-- The slave of an lcore reaches the rings of its lcore under the id that it has. -/
theorem sendThrough_remapping (mem : RingMem) (l f : LcoreId) (msg : BridgeMsg) (k : ℕ) :
    sendThrough enabled (remappingSlaveResource ring l f) mem f msg false k =
      sendThrough enabled ring mem l msg false k := by
  have same : remappingSlaveResource ring l f (sendRing f false) = ring (sendRing l false) :=
    if_pos rfl
  rw [sendThrough, sendThrough, same]
  rfl

theorem getThrough_remapping (mem : RingMem) (l f : LcoreId) :
    getThrough enabled (remappingSlaveResource ring l f) mem f false =
      getThrough enabled ring mem l false := by
  have same : remappingSlaveResource ring l f (getRing f false) = ring (getRing l false) :=
    if_pos rfl
  rw [getThrough, getThrough, same]
  rfl

/-- One call. -/
theorem RingCall.through_refines (separate : Separate ring) (mem : RingMem) (c : RingCall) :
    c.keyed (ipcTable enabled ring) (mem.through ring) =
      (c.through enabled ring mem).map id (RingMem.through ring) := by
  cases c with
  | masterSend l msg k =>
      rw [RingCall.keyed, RingCall.through, sendThrough_refines separate]
      rfl
  | masterGet l =>
      rw [RingCall.keyed, RingCall.through, getThrough_refines separate]
      rfl
  | slaveSend l f msg k =>
      rw [RingCall.keyed, RingCall.through, sendThrough_refines separate, sendThrough_remapping]
      rfl
  | slaveGet l f =>
      rw [RingCall.keyed, RingCall.through, getThrough_refines separate, getThrough_remapping]
      rfl

/-- Some calls, by induction on them. -/
theorem runCalls_refines (separate : Separate ring) (mem : RingMem) (calls : List RingCall) :
    runCalls (fun mem c => c.keyed (ipcTable enabled ring) mem) (mem.through ring) calls =
      (runCalls (fun mem c => c.through enabled ring mem) mem calls).map id
        (RingMem.through ring) := by
  induction calls generalizing mem with
  | nil => rfl
  | cons c calls inductionHypothesis =>
      rw [runCalls, runCalls, c.through_refines separate]
      simp only [Prod.map_fst, Prod.map_snd, id_eq, inductionHypothesis]
      rfl

end Calls

/-- **The named rings are one queue for each lcore and direction.** Whatever rings are registered
before, and whichever the library creates: when the loop of `main` comes to its end, exactly the
lcores that are enabled have rings, a slave that is launched again gets the rings it had, and all
calls of the master and its slaves, in any order and whatever floating ids the slaves have, return
what they return on separate queues. -/
theorem named_rings_are_queues (lib : RingLibrary) (enabled : LcoreId → Bool)
    {registered : RegisteredRings} (distinct : (registered.map Prod.snd).Nodup) {t : RingTable}
    (created : createAllRings lib enabled ⟨registered, fun _ => none⟩
      (List.finRange rteMaxLcore) = some t) :
    ipcTable enabled t.ring = ⟨enabled, fun r => enabled r.1⟩ ∧
      (∀ i, enabled i → createMsRing lib t i = (0, t)) ∧
      ∀ (mem : RingMem) (calls : List RingCall),
        runCalls (fun mem c => c.keyed ⟨enabled, fun r => enabled r.1⟩ mem) (mem.through t.ring)
            calls =
          (runCalls (fun mem c => c.through enabled t.ring mem) mem calls).map id
            (RingMem.through t.ring) := by
  have start : RingTable.Named ⟨registered, fun _ => none⟩ := ⟨distinct, nofun⟩
  obtain ⟨named, rings⟩ := createAllRings_spec start created
  have rings : ∀ r, (t.ring r).isSome = enabled r.1 := by
    intro r
    rw [rings]
    simp
  have table : ipcTable enabled t.ring = ⟨enabled, fun r => enabled r.1⟩ :=
    congrArg (IpcTable.mk enabled) (funext rings)
  refine ⟨table, fun i isEnabled => ?_, fun mem calls => ?_⟩
  · exact createMsRing_again named lib fun fd => (rings (i, fd)).trans isEnabled
  rw [← table]
  exact runCalls_refines named.separate mem calls

/-- A library that creates each ring above all others. -/
def ringsUpwards : RingLibrary where
  create registered _ := some ((registered.map Prod.snd).sum + 1)
  fresh := by
    rintro registered name p same member
    obtain rfl := Option.some.inj same
    exact absurd (List.le_sum_of_mem member) (Nat.not_succ_le_self _)

/-- The lcores 1 and 2 run slaves. -/
def oneAndTwo (i : LcoreId) : Bool := i = 1 || i = 2

/-- Two slaves, and a ring of another program at an address of its own. -/
theorem named_rings_are_queues_twoSlaves :
    ∃ t : RingTable, ipcTable oneAndTwo t.ring = ⟨oneAndTwo, fun r => oneAndTwo r.1⟩ ∧
      (∀ i, oneAndTwo i → createMsRing ringsUpwards t i = (0, t)) ∧
      ∀ (mem : RingMem) (calls : List RingCall),
        runCalls (fun mem c => c.keyed ⟨oneAndTwo, fun r => oneAndTwo r.1⟩ mem)
            (mem.through t.ring) calls =
          (runCalls (fun mem c => c.through oneAndTwo t.ring mem) mem calls).map id
            (RingMem.through t.ring) := by
  have distinct : (List.map Prod.snd [("log_history".toList, 5)]).Nodup := by decide
  have all : (createAllRings ringsUpwards oneAndTwo ⟨[("log_history".toList, 5)], fun _ => none⟩
      (List.finRange rteMaxLcore)).isSome := by
    decide +kernel
  obtain ⟨t, created⟩ := Option.isSome_iff_exists.mp all
  exact ⟨t, named_rings_are_queues ringsUpwards oneAndTwo distinct created⟩

end DdosFiltering.Control
