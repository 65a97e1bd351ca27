import DdosFiltering.Control.Assignments
import DdosFiltering.Foundation.Leaks
import Mathlib.Algebra.Order.BigOperators.Group.Finset
import Mathlib.Algebra.BigOperators.Fin

/-!
# What becomes of the message buffers

Every message travels in a buffer of `message_pool`, and a slave that dies in the middle of
`send_cmd` or `get_cmd` takes the buffer of that call with it: nothing gives it back, the
recreation of the slave included. This is the only way to lose a buffer (`buffers_accounted`), and
at most one buffer for each slave is under way. So while the pool has a buffer for each slave
besides those that are lost, nobody is refused a buffer: every request comes into its ring,
and every answer for which a configuration is free (`sends_succeed`). This takes the pool as a
set of buffers, where an allocation fails only if none is free.
-/

set_option autoImplicit false

namespace DdosFiltering.Control

open Foundation
open scoped List BigOperators

variable {eal : Eal} {enabled : LcoreId → ℤ} {s t : System} {a : Action} {l : LcoreId}

/-! ## Buffers that are lost -/

/-- The slave dies in the middle of a call that holds a buffer. -/
def Action.losesBuffer : Action → Bool
  | .crashAllocated _ _ | .crashDequeued _ => true
  | _ => false

/-- The buffers in the pool or in a ring. -/
def IpcMem.known (mem : IpcMem) : List BufPtr := mem.free ++ mem.queued

/-- A drain moves buffers from its ring to the pool. -/
theorem drain_known (table : IpcTable) (l : LcoreId) (isMaster : Bool) (n : ℕ) (mem : IpcMem) :
    (System.drain table l isMaster n mem).known ~ mem.known := by
  induction n generalizing mem with
  | zero => exact .refl _
  | succ n inductionHypothesis =>
      rw [System.drain]
      obtain ⟨msg, rest, mem', got, -, kept, -⟩ | ⟨e, got⟩ := getCmd_spec table mem l isMaster
      · simp only [got]
        exact (inductionHypothesis mem').trans kept
      · simp only [got]
        exact .refl _

theorem initSlaveRes_known (s : System) (l : LcoreId) :
    (s.initSlaveRes l).2.mem.known ~ s.mem.known := by
  unfold System.initSlaveRes
  split
  · exact .refl _
  · exact (drain_known _ _ _ _ _).trans (drain_known _ _ _ _ _)

theorem recreateOneSlave_known (eal : Eal) (s : System) (l : LcoreId) :
    (s.recreateOneSlave eal l).2.mem.known ~ s.mem.known := by
  have drained := initSlaveRes_known s l
  unfold System.recreateOneSlave
  generalize s.initSlaveRes l = r at drained ⊢
  obtain ⟨retval, u⟩ := r
  dsimp only at drained ⊢
  split
  · exact drained
  · unfold System.flibRemoteLaunch
    split
    · exact drained
    · exact drained

/-- A recreation puts back what it finds in the rings. -/
theorem recreate_known (eal : Eal) (s : System) (l : LcoreId) :
    (s.recreate eal l).mem.known ~ s.mem.known := by
  have sameMem : (s.returnMappingId eal l).mem = s.mem := by
    obtain ⟨procConfig, mappingId, lcoreCfg, written⟩ := returnMappingId_writes eal s l
    rw [written]
  have reset : (s.resetLcore eal l).2.mem.known ~ s.mem.known := by
    rw [← sameMem]
    unfold System.resetLcore
    simp only [floatProc, if_true]
    have recreated := recreateOneSlave_known eal (s.returnMappingId eal l) l
    split
    · generalize (s.returnMappingId eal l).recreateOneSlave eal l = r at recreated ⊢
      obtain ⟨retval, u⟩ := r
      dsimp only at recreated ⊢
      split
      · exact recreated
      · exact recreated
    · exact .refl _
  unfold System.recreate
  generalize s.resetLcore eal l = r at reset ⊢
  obtain ⟨ret, u⟩ := r
  dsimp only at reset ⊢
  split
  · exact reset
  · exact reset

/-- A call of `send_cmd` or `get_cmd` that returns keeps its buffer. -/
theorem slaveEcho_known (exclusive : s.mem.Exclusive) (l f : LcoreId) (conf : UInt8) (k : ℕ) :
    (s.slaveEcho l f conf k).mem.known ~ s.mem.known := by
  unfold System.slaveEcho
  obtain ⟨msg, rest, mem, got, -, kept, -⟩ | ⟨e, got⟩ := getCmd_spec s.table s.mem l false
  · obtain ⟨ret, mem', sent, keptAgain, -⟩ :=
      sendCmd_spec s.table (exclusive.perm kept) l msg false k
    simp only [got, sent]
    split
    · exact keptAgain.trans kept
    · exact keptAgain.trans kept
  · simp only [got]
    exact .refl _

theorem slaveReceive_known (s : System) (l f : LcoreId) :
    (s.slaveReceive l f).mem.known ~ s.mem.known := by
  unfold System.slaveReceive
  obtain ⟨msg, rest, mem, got, -, kept, -⟩ | ⟨e, got⟩ := getCmd_spec s.table s.mem l false
  · simp only [got]
    split
    · exact kept
    · exact kept
  · simp only [got]
    exact .refl _

theorem masterPoll_known (s : System) (l : LcoreId) :
    (s.masterPoll l).mem.known ~ s.mem.known := by
  unfold System.masterPoll
  obtain ⟨msg, rest, mem, got, -, kept, -⟩ | ⟨e, got⟩ := getCmd_spec s.table s.mem l true
  · simp only [got]
    split
    · exact kept
    · exact kept
  · simp only [got]
    exact .refl _

theorem mainSetLcoreCfg_known (exclusive : s.mem.Exclusive) (l : LcoreId) (k : ℕ) :
    (s.mainSetLcoreCfg l k).2.mem.known ~ s.mem.known := by
  unfold System.mainSetLcoreCfg
  cases s.findFreeProc with
  | none => exact .refl _
  | some c =>
      obtain ⟨ret, mem, sent, kept, -⟩ :=
        sendCmd_spec s.table exclusive l (System.reply c) true k
      simp only [sent]
      split
      · exact kept
      · exact kept

/-- **A step keeps every buffer, or loses the one of a call that its slave dies in.** -/
theorem step_lost (exclusive : s.mem.Exclusive) (taken : s.step eal a = some t) :
    Lost a.losesBuffer s.mem.known t.mem.known := by
  cases happens_of_step taken with
  | @request l f k mapped =>
      obtain ⟨ret, mem, sent, kept, -⟩ := sendCmd_spec s.table exclusive l System.request false k
      rw [sent]
      exact .none kept
  | @receive l f waiting => exact .none (slaveReceive_known s l f)
  | @echo l f conf k running => exact .none (slaveEcho_known exclusive l f conf k)
  | poll l idle => exact .none (masterPoll_known s l)
  | @answer l k pending => exact .none (mainSetLcoreCfg_known exclusive l k)
  | @recreate l => exact .none (recreate_known eal s l)
  | @crashAllocated l k b mem alive got =>
      obtain ⟨drawn, same⟩ := IpcMem.mempoolGet_eq_some got
      have sameQueued : mem.queued = s.mem.queued := by rw [same]; rfl
      refine .one (b := b) ?_
      change s.mem.free ++ s.mem.queued ~ b :: (mem.free ++ mem.queued)
      rw [sameQueued]
      exact drawn.append_right _
  | @crashDequeued l b mem alive got =>
      obtain ⟨rest, holds, same⟩ := IpcMem.ringDequeue_eq_some got
      have removed := IpcMem.queued_dequeue holds
      rw [← same] at removed
      have sameFree : mem.free = s.mem.free := by rw [same]
      refine .one (b := b) ?_
      change s.mem.free ++ s.mem.queued ~ b :: (mem.free ++ mem.queued)
      rw [sameFree]
      exact (removed.append_left _).trans List.perm_middle
  | @free l f =>
      obtain ⟨lcoreCfg, -, written⟩ := flibFreeLcoreId_writes eal s f
      rw [written]
      exact .none (.refl _)
  | @exitCb l =>
      obtain ⟨procConfig, lcoreResource, written⟩ := slaveExitCb_writes s l
      rw [written]
      exact .none (.refl _)
  | fork | forkFails | scanOn | scanFinds | scanFails | claim | claimFails | map | leave | unmap
  | exit | crash => exact .none (.refl _)

/-! ## Buffers that are under way -/

/-- How many lcores run a slave. -/
def Eal.slaveNb (eal : Eal) : ℕ := (Finset.univ.filter fun l => eal.isSlave l = true).card

/-- How many messages are in the two rings of a slave. -/
def View.underWay (v : View) : ℕ := v.toSlave.length + v.toMaster.length

theorem length_queued (s : System) : s.mem.queued.length = ∑ l, (s.view l).underWay := by
  have perLcore : s.mem.queued =
      (List.finRange rteMaxLcore).flatMap fun l => s.mem.ring (l, 0) ++ s.mem.ring (l, 1) := by
    have two : List.finRange 2 = [0, 1] := rfl
    unfold IpcMem.queued tokens Ring.all
    rw [two, List.product, List.flatMap_assoc]
    simp
  rw [perLcore, List.length_flatMap, Fin.sum_univ_def]
  congr 1
  apply List.map_congr_left
  intro l _
  simp [View.underWay, System.view, IpcMem.queue]

theorem Talk.underWay_le {v : View} (talk : Talk enabled v) : v.underWay ≤ 1 := by
  unfold View.underWay
  cases talk with
  | quiet quiet => simp [quiet.toSlave, quiet.toMaster]
  | requested toSlave toMaster => simp [toSlave, toMaster]
  | taken toSlave toMaster => simp [toSlave, toMaster]
  | replied toSlave toMaster => simp [toSlave, toMaster]

/-- An lcore without a slave has no message under way. -/
theorem Reached.underWay_le (reached : Reached eal enabled s) (l : LcoreId) :
    (s.view l).underWay ≤ if eal.isSlave l = true then 1 else 0 := by
  by_cases slave : eal.isSlave l = true
  · rw [if_pos slave]
    exact (reached.sound.agreed l).talk.underWay_le
  · rw [if_neg slave]
    have stopped : s.phase l = .stopped := by
      by_contra present
      exact slave (reached.registered.present l present)
    have quiet := (reached.sound.agreed l).quiet_of_phase stopped rfl
    simp [View.underWay, quiet.toSlave, quiet.toMaster]

/-- At most one buffer for each slave is under way. -/
theorem Reached.queued_le (reached : Reached eal enabled s) :
    s.mem.queued.length ≤ eal.slaveNb := by
  rw [length_queued, Eal.slaveNb, Finset.card_filter]
  exact Finset.sum_le_sum fun l _ => reached.underWay_le l

/-- One buffer less is under way while a slave has no message in its rings. -/
theorem Reached.queued_lt (reached : Reached eal enabled s) (slave : eal.isSlave l = true)
    (idle : (s.view l).underWay = 0) : s.mem.queued.length < eal.slaveNb := by
  rw [length_queued, Eal.slaveNb, Finset.card_filter]
  refine Finset.sum_lt_sum (fun l _ => reached.underWay_le l) ⟨l, Finset.mem_univ l, ?_⟩
  rw [idle, if_pos slave]
  exact Nat.one_pos

/-! ## Runs -/

theorem Reached.of_exec (eal : Eal) (enabled : LcoreId → ℤ) {pool : List BufPtr}
    (distinct : pool.Nodup) (content : BufPtr → BridgeMsg) {actions : List Action}
    (executed : exec (System.step eal) (System.initial eal enabled pool content) actions =
      some s) : Reached eal enabled s :=
  .of_run eal enabled distinct content (Run.of_exec (fun _ _ _ => trivial) executed)

/-- The buffers of the pool, after a run from the start. -/
theorem run_lost (eal : Eal) (enabled : LcoreId → ℤ) {pool : List BufPtr} (distinct : pool.Nodup)
    (content : BufPtr → BridgeMsg) {actions : List Action}
    (executed : exec (System.step eal) (System.initial eal enabled pool content) actions =
      some s) :
    ∃ lost, pool ~ lost ++ s.mem.known ∧ lost.length = actions.countP Action.losesBuffer := by
  have atStart : (System.initial eal enabled pool content).mem.known = pool := by
    have noneQueued : (System.initial eal enabled pool content).mem.queued = [] :=
      List.flatMap_eq_nil_iff.mpr fun _ _ => rfl
    rw [IpcMem.known, noneQueued, List.append_nil]
    rfl
  rw [← atStart]
  exact exec_lost (System.step eal) (Sound enabled)
    (fun sound taken => ⟨sound.step taken, step_lost sound.exclusive taken⟩)
    (.initial eal enabled distinct content) executed

/-- **Every message buffer is accounted for.** In every run of the master and its slaves, a buffer
of the pool is free, queued in one ring, or lost; as many buffers are lost as slaves have died
in the middle of a call that held one; and at most one buffer for each slave is queued. -/
theorem buffers_accounted (eal : Eal) (enabled : LcoreId → ℤ) {pool : List BufPtr}
    (distinct : pool.Nodup) (content : BufPtr → BridgeMsg) {actions : List Action}
    (executed : exec (System.step eal) (System.initial eal enabled pool content) actions =
      some s) :
    ∃ lost, pool ~ lost ++ (s.mem.free ++ s.mem.queued) ∧
      lost.length = actions.countP Action.losesBuffer ∧ s.mem.queued.length ≤ eal.slaveNb := by
  obtain ⟨lost, split, count⟩ := run_lost eal enabled distinct content executed
  exact ⟨lost, split, count, (Reached.of_exec eal enabled distinct content executed).queued_le⟩

/-- The first slave crashes in the middle of its request, and its lcore is recreated. -/
theorem buffers_accounted_oneCrash :
    ∃ s : System, s.phase 1 = .launched ∧
      ∃ lost, [1, 2, 3] ~ lost ++ (s.mem.free ++ s.mem.queued) ∧ lost.length = 1 ∧
        s.mem.queued.length ≤ threeLcores.slaveNb := by
  obtain ⟨s, executed, phase⟩ : ∃ s, exec (System.step threeLcores) twoSlaves
      [.fork 1, .crashAllocated 1 0, .exitCb 1, .recreate 1] = some s ∧ s.phase 1 = .launched :=
    Option.map_eq_some_iff.mp (by rfl)
  exact ⟨s, phase, buffers_accounted threeLcores _ (by decide) _ executed⟩

/-- A buffer is free for a slave that has no message in its rings. -/
theorem Reached.buffer_left (reached : Reached eal enabled s) {pool lost : List BufPtr}
    (split : pool ~ lost ++ (s.mem.free ++ s.mem.queued))
    (enough : lost.length + eal.slaveNb ≤ pool.length) (slave : eal.isSlave l = true)
    (idle : (s.view l).underWay = 0) : s.mem.free ≠ [] := by
  intro empty
  have few := reached.queued_lt slave idle
  have total := split.length_eq
  rw [empty, List.nil_append, List.length_append] at total
  omega

theorem room_of_empty {mem : IpcMem} {r : Ring} (empty : mem.queue r = []) :
    (mem.ring r).length < ringCapacity := by
  rw [List.map_eq_nil_iff.mp empty]
  decide

/-- The request of a slave comes into its ring. -/
theorem Reached.request_sent (reached : Reached eal enabled s) {pool lost : List BufPtr}
    (split : pool ~ lost ++ (s.mem.free ++ s.mem.queued))
    (enough : lost.length + eal.slaveNb ≤ pool.length) {k : ℕ}
    (taken : s.step eal (.request l k) = some t) : t.mem.queue (l, 1) = [System.request] := by
  cases happens_of_step taken with
  | @request l f k mapped =>
      have quiet := (reached.sound.agreed l).quiet_of_phase mapped rfl
      have slave := reached.registered.present l (by rw [mapped]; simp)
      have toMaster : s.mem.queue (l, 1) = [] := quiet.toMaster
      have buffer := reached.buffer_left split enough slave
        (by simp [View.underWay, quiet.toSlave, quiet.toMaster])
      have allowed : s.table.enabled l = true := by
        simp [System.table, reached.registered.enabled l, slave]
      have created : s.table.created (sendRing l false) = true := by
        simp [System.table, sendRing, reached.registered.ring l, slave]
      have zero := sendCmd_returns_zero allowed created
        (room_of_empty toMaster) buffer System.request k
      obtain ⟨ret, mem, sent, -, ⟨rfl, queue⟩ | ⟨rfl, -⟩⟩ :=
        sendCmd_spec s.table reached.sound.exclusive l System.request false k
      · simp only [sent]
        change mem.queue (l, 1) = _
        rw [queue]
        change Function.update s.mem.queue (l, 1) (s.mem.queue (l, 1) ++ _) (l, 1) = _
        rw [Function.update_self, toMaster, List.nil_append]
      · rw [sent] at zero
        exact absurd zero (by simp)

/-- The answer for which a configuration is free comes into the ring of the slave. -/
theorem Reached.answer_sent (reached : Reached eal enabled s) {pool lost : List BufPtr}
    (split : pool ~ lost ++ (s.mem.free ++ s.mem.queued))
    (enough : lost.length + eal.slaveNb ≤ pool.length) {k : ℕ} (pending : s.pending = some l)
    {c : LcoreId} (found : s.findFreeProc = some c) (taken : s.step eal (.answer k) = some t) :
    t.mem.queue (l, 0) = [System.reply c] ∧ (t.lcoreResource l).configId = c := by
  have slave := reached.slave_of_pending pending
  obtain ⟨toSlave, toMaster⟩ :=
    (reached.sound.agreed l).talk.taken_of_pending (System.view_pending pending)
  have idle : (s.view l).underWay = 0 := by simp [View.underWay, toSlave, toMaster]
  have buffer := reached.buffer_left split enough slave idle
  have empty : s.mem.queue (l, 0) = [] := toSlave
  have allowed : s.table.enabled l = true := by
    simp [System.table, reached.registered.enabled l, slave]
  have created : s.table.created (sendRing l true) = true := by
    simp [System.table, sendRing, reached.registered.ring l, slave]
  have zero := sendCmd_returns_zero allowed created (room_of_empty empty) buffer
    (System.reply c) k
  simp only [System.step, pending, Option.some.injEq] at taken
  rw [← taken]
  unfold System.mainSetLcoreCfg
  obtain ⟨ret, mem, sent, -, ⟨rfl, queue⟩ | ⟨rfl, -⟩⟩ :=
    sendCmd_spec s.table reached.sound.exclusive l (System.reply c) true k
  · simp only [found, sent]
    refine ⟨?_, ?_⟩
    · change mem.queue (l, 0) = _
      rw [queue]
      change Function.update s.mem.queue (l, 0) (s.mem.queue (l, 0) ++ _) (l, 0) = _
      rw [Function.update_self, empty, List.nil_append]
    · simp [System.setConfigId, System.setUsed]
  · rw [sent] at zero
    exact absurd zero (by simp)

/-- **No message is refused while the pool has buffers for all slaves**, where the pool is a set of
buffers, without caches. In every run in which as many slaves as the pool has buffers beyond one
for each slave have died in the middle of a call, or fewer: the request of a slave comes into its
ring, and when the master answers a request for which a configuration is free, the reply with
this configuration comes into the ring of the slave. -/
theorem sends_succeed (eal : Eal) (enabled : LcoreId → ℤ) {pool : List BufPtr}
    (distinct : pool.Nodup) (content : BufPtr → BridgeMsg) {actions : List Action}
    (executed : exec (System.step eal) (System.initial eal enabled pool content) actions =
      some s) (enough : actions.countP Action.losesBuffer + eal.slaveNb ≤ pool.length) :
    (∀ l k t, s.step eal (.request l k) = some t → t.mem.queue (l, 1) = [System.request]) ∧
      ∀ l k c t, s.pending = some l → s.findFreeProc = some c →
        s.step eal (.answer k) = some t →
          t.mem.queue (l, 0) = [System.reply c] ∧ (t.lcoreResource l).configId = c := by
  obtain ⟨lost, split, count⟩ := run_lost eal enabled distinct content executed
  have reached := Reached.of_exec eal enabled distinct content executed
  rw [← count] at enough
  constructor
  · intro l k t taken
    exact reached.request_sent split enough taken
  · intro l k c t pending found taken
    exact reached.answer_sent split enough pending found taken

/-- The pool of `twoSlaves` has three buffers, one more than there are slaves. The second slave
crashes in the middle of its request; the request of the first one is not refused. -/
theorem sends_succeed_oneCrash :
    ∃ s t : System, s.step threeLcores (.request 1 0) = some t ∧
      t.mem.queue (1, 1) = [System.request] := by
  obtain ⟨s, executed, phase⟩ : ∃ s, exec (System.step threeLcores) twoSlaves
      [.fork 2, .crashAllocated 2 0, .fork 1, .scan 1, .scan 1, .scan 1, .claim 1, .map 1] =
        some s ∧ s.phase 1 = .mapped 3 :=
    Option.map_eq_some_iff.mp (by rfl)
  have slaves : threeLcores.slaveNb = 2 := by decide
  obtain ⟨requested, -⟩ := sends_succeed threeLcores _ (by decide) _ executed
    (by rw [slaves]; decide)
  have taken : s.step threeLcores (.request 1 0) = some
      ({ s with mem := (sendCmd s.table s.mem 1 System.request false 0).2 }.setPhase 1
        (.waiting 3)) := by
    simp [System.step, phase]
  exact ⟨s, _, taken, requested 1 0 _ taken⟩

end DdosFiltering.Control
