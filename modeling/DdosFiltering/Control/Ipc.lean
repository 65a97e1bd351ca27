import DdosFiltering.Foundation.Tokens
import DdosFiltering.MainHeader
import Mathlib.Data.Fintype.Prod
import Mathlib.Data.Int.Notation
import Mathlib.Data.List.ProdSigma

/-!
# The message rings between the master and its slaves

`send_cmd` and `get_cmd` of `ipc.c`. A message travels in a buffer of `message_pool`: it is
copied into a free buffer, the ring carries the pointer, and the receiver copies the
message out and puts the buffer back.

`rte_ring` is a bounded FIFO and `rte_mempool` a set of buffers. Which free buffer
`rte_mempool_get` returns is chosen by an argument of the model. The caches that the pool has
for the lcores are left out: with them, an allocation may fail while other lcores have free
buffers in their caches.

When no buffer is in two places (`IpcMem.Exclusive`), the rings behave as queues of messages:
`send_cmd` appends to one queue or changes none (`sendCmd_spec`), and `get_cmd` takes the
first message of one queue (`getCmd_spec`).
-/

set_option autoImplicit false

namespace DdosFiltering.Control

open Foundation
open scoped List

/-- `lcore_resource[lcore].ring[fd]`. The master sends on `fd` 0, the slave on `fd` 1. -/
abbrev Ring := LcoreId × Fin 2

/-- All rings. -/
def Ring.all : List Ring := (List.finRange rteMaxLcore).product (List.finRange 2)

theorem Ring.nodup_all : Ring.all.Nodup :=
  (List.nodup_finRange _).product (List.nodup_finRange _)

theorem Ring.mem_all (r : Ring) : r ∈ Ring.all :=
  List.mem_product.mpr ⟨List.mem_finRange _, List.mem_finRange _⟩

/-- The ring on which a party sends: `fd = !is_master`. -/
def sendRing (slaveId : LcoreId) (isMaster : Bool) : Ring := (slaveId, if isMaster then 0 else 1)

/-- The ring on which a party receives: `fd = !!is_master`. -/
def getRing (slaveId : LcoreId) (isMaster : Bool) : Ring := (slaveId, if isMaster then 1 else 0)

/-- `IPC_NB_MSGBUF`. -/
def ipcNbMsgbuf : ℕ := 64

/-- A ring created with `count` slots holds one pointer less. -/
def ringCapacity : ℕ := ipcNbMsgbuf - 1

/-- `-ENOENT`, what `rte_ring_dequeue` returns on an empty ring. -/
def enoent : ℤ := -2

/-- What `send_cmd` and `get_cmd` check in `lcore_resource[]`. -/
structure IpcTable where
  enabled : LcoreId → Bool
  /-- The pointer to the ring is not NULL. -/
  created : Ring → Bool

/-- The address of a buffer of `message_pool`. -/
abbrev BufPtr := ℕ

/-- The message pool, the rings and the buffers. -/
structure IpcMem where
  free : List BufPtr
  ring : Ring → List BufPtr
  content : BufPtr → BridgeMsg

namespace IpcMem

/-- `rte_mempool_get` on a set of buffers, without caches. The buffer returned is the free one at
position `k`, modulo the number of free buffers. -/
def mempoolGet (mem : IpcMem) (k : ℕ) : Option (BufPtr × IpcMem) :=
  match mem.free[k % mem.free.length]? with
  | some b => some (b, { mem with free := mem.free.erase b })
  | none => none

/-- `rte_mempool_put`. -/
def mempoolPut (mem : IpcMem) (b : BufPtr) : IpcMem := { mem with free := b :: mem.free }

/-- `*(struct bridge_msg_s *) b = msg`. -/
def write (mem : IpcMem) (b : BufPtr) (msg : BridgeMsg) : IpcMem :=
  { mem with content := Function.update mem.content b msg }

/-- `rte_ring_enqueue`, `none` when the ring is full. -/
def ringEnqueue (mem : IpcMem) (r : Ring) (b : BufPtr) : Option (IpcMem) :=
  if (mem.ring r).length < ringCapacity then
    some { mem with ring := Function.update mem.ring r (mem.ring r ++ [b]) }
  else
    none

/-- `rte_ring_dequeue`, `none` when the ring is empty. -/
def ringDequeue (mem : IpcMem) (r : Ring) : Option (BufPtr × IpcMem) :=
  match mem.ring r with
  | b :: rest => some (b, { mem with ring := Function.update mem.ring r rest })
  | [] => none

end IpcMem

/-- `send_cmd`, with its return value. -/
def sendCmd (table : IpcTable) (mem : IpcMem) (slaveId : LcoreId) (msg2send : BridgeMsg)
    (isMaster : Bool) (k : ℕ) : ℤ × IpcMem :=
  if isMaster && !table.enabled slaveId then
    (-1, mem)
  else if !table.created (sendRing slaveId isMaster) then
    (-1, mem)
  else
    match mem.mempoolGet k with
    | none => (-1, mem)
    | some (b, mem) =>
        let mem := mem.write b msg2send
        match mem.ringEnqueue (sendRing slaveId isMaster) b with
        | some mem => (0, mem)
        | none => (-1, mem.mempoolPut b)

/-- `get_cmd`. It returns 0 and the message, or an error and leaves `*msg2rcv` alone. -/
def getCmd (table : IpcTable) (mem : IpcMem) (slaveId : LcoreId) (isMaster : Bool) :
    Except ℤ BridgeMsg × IpcMem :=
  if isMaster && !table.enabled slaveId then
    (.error (-1), mem)
  else if !table.created (getRing slaveId isMaster) then
    (.error (-1), mem)
  else
    match mem.ringDequeue (getRing slaveId isMaster) with
    | none => (.error enoent, mem)
    | some (b, mem) => (.ok (mem.content b), mem.mempoolPut b)

/-! ## Buffers in one place each -/

namespace IpcMem

/-- The buffers that a ring holds a pointer to. -/
def queued (mem : IpcMem) : List BufPtr := tokens Ring.all mem.ring

/-- The messages in a ring, the oldest first. -/
def queue (mem : IpcMem) (r : Ring) : List BridgeMsg := (mem.ring r).map mem.content

/-- The buffers that are free or queued, and nothing is in two places. -/
def Exclusive (mem : IpcMem) : Prop := (mem.free ++ mem.queued).Nodup

theorem mem_queued {mem : IpcMem} {r : Ring} {b : BufPtr} (inRing : b ∈ mem.ring r) :
    b ∈ mem.queued := List.mem_flatMap.mpr ⟨r, Ring.mem_all r, inRing⟩

/-- `rte_mempool_get` takes one buffer out of the pool. -/
theorem mempoolGet_eq_some {mem mem' : IpcMem} {k : ℕ} {b : BufPtr}
    (got : mem.mempoolGet k = some (b, mem')) :
    mem.free ~ b :: mem'.free ∧ mem' = { mem with free := mem'.free } := by
  unfold mempoolGet at got
  cases picked : mem.free[k % mem.free.length]? with
  | none => simp [picked] at got
  | some c =>
      simp only [picked, Option.some.injEq, Prod.mk.injEq] at got
      obtain ⟨rfl, rfl⟩ := got
      exact ⟨List.perm_cons_erase (List.mem_of_getElem? picked), rfl⟩

/-- Without caches, `rte_mempool_get` fails only on an empty pool. -/
theorem mempoolGet_eq_none {mem : IpcMem} {k : ℕ} : mem.mempoolGet k = none ↔ mem.free = [] := by
  unfold mempoolGet
  cases free : mem.free with
  | nil => simp
  | cons c rest =>
      have inside : k % (c :: rest).length < (c :: rest).length := Nat.mod_lt _ (by simp)
      simp only [List.getElem?_eq_getElem inside]
      simp

theorem ringEnqueue_eq_some {mem mem' : IpcMem} {r : Ring} {b : BufPtr}
    (enqueued : mem.ringEnqueue r b = some mem') :
    mem' = { mem with ring := Function.update mem.ring r (mem.ring r ++ [b]) } := by
  unfold ringEnqueue at enqueued
  split at enqueued
  · exact (Option.some.inj enqueued).symm
  · exact absurd enqueued (by simp)

theorem length_lt_of_ringEnqueue {mem mem' : IpcMem} {r : Ring} {b : BufPtr}
    (enqueued : mem.ringEnqueue r b = some mem') : (mem.ring r).length < ringCapacity := by
  unfold ringEnqueue at enqueued
  split at enqueued
  · assumption
  · exact absurd enqueued (by simp)

theorem ringDequeue_eq_some {mem mem' : IpcMem} {r : Ring} {b : BufPtr}
    (dequeued : mem.ringDequeue r = some (b, mem')) :
    ∃ rest, mem.ring r = b :: rest ∧
      mem' = { mem with ring := Function.update mem.ring r rest } := by
  unfold ringDequeue at dequeued
  cases holds : mem.ring r with
  | nil => simp [holds] at dequeued
  | cons c rest =>
      simp only [holds, Option.some.injEq, Prod.mk.injEq] at dequeued
      obtain ⟨rfl, rfl⟩ := dequeued
      exact ⟨rest, rfl, rfl⟩

/-- `rte_ring_dequeue` fails only on an empty ring. -/
theorem ringDequeue_eq_none {mem : IpcMem} {r : Ring} :
    mem.ringDequeue r = none ↔ mem.ring r = [] := by
  unfold ringDequeue
  cases mem.ring r <;> simp

/-- An enqueue adds one buffer to those queued. -/
theorem queued_enqueue (mem : IpcMem) (r : Ring) (b : BufPtr) :
    IpcMem.queued { mem with ring := Function.update mem.ring r (mem.ring r ++ [b]) } ~
      b :: mem.queued :=
  tokens_put Ring.nodup_all (Ring.mem_all r) (List.perm_append_singleton b _)

/-- A dequeue removes one buffer from those queued. -/
theorem queued_dequeue {mem : IpcMem} {r : Ring} {b : BufPtr} {rest : List BufPtr}
    (holds : mem.ring r = b :: rest) :
    mem.queued ~ b :: IpcMem.queued { mem with ring := Function.update mem.ring r rest } :=
  tokens_take Ring.nodup_all (Ring.mem_all r) _ (holds ▸ .refl _)

/-- Writing into a buffer that no ring holds changes no queue. -/
theorem queue_write {mem : IpcMem} {b : BufPtr} (notQueued : b ∉ mem.queued) (msg : BridgeMsg)
    (r : Ring) : (mem.write b msg).queue r = mem.queue r := by
  apply List.map_congr_left
  intro c inRing
  have other : c ≠ b := fun same => notQueued (same ▸ mem_queued inRing)
  exact Function.update_of_ne other _ _

/-- What an enqueue does to the queues of messages. -/
theorem queue_enqueue (mem : IpcMem) (r : Ring) (b : BufPtr) :
    IpcMem.queue { mem with ring := Function.update mem.ring r (mem.ring r ++ [b]) } =
      Function.update mem.queue r (mem.queue r ++ [mem.content b]) := by
  funext q
  by_cases here : q = r
  · subst here
    simp [queue]
  · simp [queue, Function.update_of_ne here]

/-- What a dequeue does to the queues of messages. -/
theorem queue_dequeue {mem : IpcMem} {r : Ring} {b : BufPtr} {rest : List BufPtr}
    (holds : mem.ring r = b :: rest) :
    mem.queue r = mem.content b :: rest.map mem.content ∧
      IpcMem.queue { mem with ring := Function.update mem.ring r rest } =
        Function.update mem.queue r (rest.map mem.content) := by
  refine ⟨by simp [queue, holds], funext fun q => ?_⟩
  by_cases here : q = r
  · subst here
    simp [queue]
  · simp [queue, Function.update_of_ne here]

/-- Exclusive custody depends only on the buffers that are free or queued. -/
theorem Exclusive.perm {mem mem' : IpcMem} (exclusive : mem.Exclusive)
    (same : mem'.free ++ mem'.queued ~ mem.free ++ mem.queued) : mem'.Exclusive :=
  same.nodup_iff.mpr exclusive

end IpcMem

/-- **`send_cmd` appends the message to one queue, or changes no queue**, and the same buffers
are free or queued afterwards. -/
theorem sendCmd_spec (table : IpcTable) {mem : IpcMem} (exclusive : mem.Exclusive)
    (slaveId : LcoreId) (msg : BridgeMsg) (isMaster : Bool) (k : ℕ) :
    ∃ ret mem', sendCmd table mem slaveId msg isMaster k = (ret, mem') ∧
      mem'.free ++ mem'.queued ~ mem.free ++ mem.queued ∧
      (ret = 0 ∧ mem'.queue = Function.update mem.queue (sendRing slaveId isMaster)
          (mem.queue (sendRing slaveId isMaster) ++ [msg]) ∨
        ret = -1 ∧ mem'.queue = mem.queue ∧ mem'.ring = mem.ring ∧ mem'.free ~ mem.free) := by
  unfold sendCmd
  by_cases disabled : (isMaster && !table.enabled slaveId) = true
  · rw [if_pos disabled]
    exact ⟨_, _, rfl, .refl _, .inr ⟨rfl, rfl, rfl, .refl _⟩⟩
  by_cases missing : (!table.created (sendRing slaveId isMaster)) = true
  · rw [if_neg disabled, if_pos missing]
    exact ⟨_, _, rfl, .refl _, .inr ⟨rfl, rfl, rfl, .refl _⟩⟩
  rw [if_neg disabled, if_neg missing]
  cases allocated : mem.mempoolGet k with
  | none => exact ⟨_, _, rfl, .refl _, .inr ⟨rfl, rfl, rfl, .refl _⟩⟩
  | some r =>
      obtain ⟨b, mem₁⟩ := r
      obtain ⟨taken, same⟩ := IpcMem.mempoolGet_eq_some allocated
      have notQueued : b ∉ mem.queued := fun queued =>
        (List.nodup_append.mp exclusive).2.2 b (taken.mem_iff.mpr List.mem_cons_self) b queued rfl
      have sameQueue : (mem₁.write b msg).queue = mem.queue := by
        funext q
        rw [same]
        exact IpcMem.queue_write notQueued msg q
      have sameRing : (mem₁.write b msg).ring = mem.ring := by rw [same]; rfl
      have sameQueued : (mem₁.write b msg).queued = mem.queued :=
        congrArg (tokens Ring.all) sameRing
      simp only
      cases enqueued : (mem₁.write b msg).ringEnqueue (sendRing slaveId isMaster) b with
      | none =>
          refine ⟨_, _, rfl, ?_, .inr ⟨rfl, sameQueue, sameRing, taken.symm⟩⟩
          have unchanged : ((mem₁.write b msg).mempoolPut b).queued = mem.queued := sameQueued
          rw [unchanged]
          exact taken.symm.append_right _
      | some mem₂ =>
          have written : (mem₁.write b msg).content b = msg := Function.update_self ..
          obtain rfl := IpcMem.ringEnqueue_eq_some enqueued
          refine ⟨_, _, rfl, ?_, .inl ⟨rfl, ?_⟩⟩
          · have added := IpcMem.queued_enqueue (mem₁.write b msg) (sendRing slaveId isMaster) b
            rw [sameQueued] at added
            calc mem₁.free ++ _
              _ ~ mem₁.free ++ b :: mem.queued := added.append_left _
              _ ~ b :: mem₁.free ++ mem.queued := List.perm_middle
              _ ~ mem.free ++ mem.queued := taken.symm.append_right _
          · rw [IpcMem.queue_enqueue, sameQueue, written]

/-- **`get_cmd` takes the first message of one queue, or changes nothing.** -/
theorem getCmd_spec (table : IpcTable) (mem : IpcMem) (slaveId : LcoreId) (isMaster : Bool) :
    (∃ msg rest mem', getCmd table mem slaveId isMaster = (.ok msg, mem') ∧
        mem.queue (getRing slaveId isMaster) = msg :: rest ∧
        mem'.free ++ mem'.queued ~ mem.free ++ mem.queued ∧
        mem'.queue = Function.update mem.queue (getRing slaveId isMaster) rest) ∨
      ∃ e, getCmd table mem slaveId isMaster = (.error e, mem) := by
  unfold getCmd
  by_cases disabled : (isMaster && !table.enabled slaveId) = true
  · rw [if_pos disabled]
    exact .inr ⟨_, rfl⟩
  by_cases missing : (!table.created (getRing slaveId isMaster)) = true
  · rw [if_neg disabled, if_pos missing]
    exact .inr ⟨_, rfl⟩
  rw [if_neg disabled, if_neg missing]
  cases dequeued : mem.ringDequeue (getRing slaveId isMaster) with
  | none => exact .inr ⟨_, rfl⟩
  | some r =>
      obtain ⟨b, mem₁⟩ := r
      obtain ⟨rest, holds, rfl⟩ := IpcMem.ringDequeue_eq_some dequeued
      obtain ⟨first, others⟩ := IpcMem.queue_dequeue holds
      refine .inl ⟨_, _, _, rfl, first, ?_, others⟩
      have removed := IpcMem.queued_dequeue holds
      calc b :: mem.free ++ _
        _ ~ mem.free ++ b :: _ := List.perm_middle.symm
        _ ~ mem.free ++ mem.queued := removed.symm.append_left _

end DdosFiltering.Control
