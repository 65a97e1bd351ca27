import DdosFiltering.Control.Buffers
import DdosFiltering.Control.Recreation
import DdosFiltering.Foundation.Serving

/-!
# The turns of the master

`main_loop` (`main.c`) goes round: it polls the lcores in order and answers a request before it
polls the next lcore, and then it goes through the lcores again, with `mutex_lock` held, and
recreates the slaves that have exited. The steps of the slaves fall anywhere between its turns. The
loop is a run of the system (`MainLoop.exec_system`), in which the master chooses the order of
its steps, and it is never stuck in `rte_eal_wait_lcore` (`main_loop_refines`). One round has at
most three turns for each lcore, so after as many turns of the master a request has been
handled (`requests_are_handled`) and a slave that has exited is relaunched
(`exited_slaves_are_relaunched`), whatever the slaves do meanwhile. A request that is handled is
answered if a configuration is free, and dropped if none is. The timers of the loop are in
`Master.Reports`.
-/

set_option autoImplicit false

namespace DdosFiltering.Control

open Foundation

/-- Where the master is in `main_loop`. -/
inductive LoopPc where
  /-- At the `get_cmd` of the first loop. -/
  | polling (l : LcoreId)
  /-- At the call of `main_set_lcore_cfg`. -/
  | answering (l : LcoreId)
  /-- At the test of the second loop, with `mutex_lock` held. -/
  | scanning (l : LcoreId)
deriving DecidableEq

/-- The system, and where the master is. -/
structure MainLoop where
  system : System
  pc : LoopPc

/-- A turn of the master, with the choice of the message buffer, or a step of a slave. -/
inductive Turn where
  | master (k : ℕ)
  | slave (a : Action)
deriving DecidableEq

/-- The steps of the master. -/
def Action.ofMaster : Action → Bool
  | .poll _ | .answer _ | .recreate _ => true
  | _ => false

/-- The exit callback takes `mutex_lock`, also for a moment: every lcore with a process is
registered. -/
def Action.takesLock : Action → Bool
  | .exitCb _ => true
  | _ => false

namespace LoopPc

/-- `lcore_id++`, and the head of the loop. -/
def afterPolling (l : LcoreId) : LoopPc :=
  if inside : l.val + 1 < rteMaxLcore then .polling ⟨l.val + 1, inside⟩ else .scanning 0

def afterScanning (l : LcoreId) : LoopPc :=
  if inside : l.val + 1 < rteMaxLcore then .scanning ⟨l.val + 1, inside⟩ else .polling 0

/-- The master holds `mutex_lock`. -/
def holdsLock : LoopPc → Bool
  | .scanning _ => true
  | _ => false

/-- The lcore whose request the master has taken. -/
def pending? : LoopPc → Option LcoreId
  | .answering l => some l
  | _ => none

end LoopPc

namespace MainLoop

/-- One turn of the master. `none`: it waits in `rte_eal_wait_lcore`. -/
def masterTurn (eal : Eal) (s : MainLoop) (k : ℕ) : Option MainLoop :=
  match s.pc with
  | .polling l =>
      let system := s.system.masterPoll l
      some ⟨system, if system.pending = some l then .answering l else .afterPolling l⟩
  | .answering l =>
      some ⟨{ (s.system.mainSetLcoreCfg l k).2 with pending := none }, .afterPolling l⟩
  | .scanning l =>
      if s.system.mustRecreate l then
        if s.system.phase l = .reaped then
          some ⟨s.system.recreate eal l, .afterScanning l⟩
        else
          none
      else
        some { s with pc := .afterScanning l }

/-- One step. -/
def step (eal : Eal) (s : MainLoop) : Turn → Option MainLoop
  | .master k => s.masterTurn eal k
  | .slave a =>
      if a.ofMaster || (a.takesLock && s.pc.holdsLock) then
        none
      else
        (s.system.step eal a).map fun system => { s with system }

/-- The master enters `main_loop` when it has launched the slaves. -/
def initial (eal : Eal) (enabled : LcoreId → ℤ) (pool : List BufPtr)
    (content : BufPtr → BridgeMsg) : MainLoop :=
  ⟨.initial eal enabled pool content, .polling 0⟩

end MainLoop

namespace Turn

def ofMaster : Turn → Bool
  | .master _ => true
  | .slave _ => false

/-- A slave dies in the middle of a call that holds a buffer. -/
def losesBuffer : Turn → Bool
  | .master _ => false
  | .slave a => a.losesBuffer

end Turn

/-! ## What a step keeps -/

variable {eal : Eal} {enabled : LcoreId → ℤ} {s t : System} {a : Action} {l : LcoreId}

/-- Only the master writes `pending`. -/
theorem step_pending (slaves : a.ofMaster = false) (taken : s.step eal a = some t) :
    t.pending = s.pending := by
  cases happens_of_step taken with
  | poll | answer | recreate => exact absurd slaves (by simp [Action.ofMaster])
  | @receive l f =>
      obtain ⟨mem, phase, written⟩ := slaveReceive_writes s l f
      rw [written]
  | @echo l f conf k =>
      obtain ⟨mem, phase, written⟩ := slaveEcho_writes s l f conf k
      rw [written]
  | @free l f =>
      obtain ⟨lcoreCfg, -, written⟩ := flibFreeLcoreId_writes eal s f
      rw [written]
      rfl
  | @exitCb l =>
      obtain ⟨procConfig, lcoreResource, written⟩ := slaveExitCb_writes s l
      rw [written]
      rfl
  | fork | forkFails | scanOn | scanFinds | scanFails | claim | claimFails | map | request | leave
  | unmap | exit | crash | crashAllocated | crashDequeued => rfl

/-- The recreation of an lcore that the EAL has enabled clears its flags. -/
theorem recreate_flags (s : System) (registered : (s.lcoreResource l).enabled = 1)
    (isEnabled : eal.lcoreIsEnabled l = true) : ((s.recreate eal l).lcoreResource l).flags = 0 := by
  have registered' : ((s.returnMappingId eal l).lcoreResource l).enabled = 1 := by
    obtain ⟨procConfig, mappingId, lcoreCfg, written⟩ := returnMappingId_writes eal s l
    rw [written, registered]
  unfold System.recreate System.resetLcore System.recreateOneSlave System.initSlaveRes
    System.flibRemoteLaunch
  simp only [floatProc, if_true]
  generalize s.returnMappingId eal l = u at registered'
  simp [registered', isEnabled, System.setPhase, System.setFlags, System.createMsRing]

theorem slaveExitCb_other (s : System) {l l' : LcoreId} (other : l' ≠ l) :
    (s.slaveExitCb l).lcoreResource l' = s.lcoreResource l' := by
  unfold System.slaveExitCb
  dsimp only
  split
  · rfl
  · split
    · exact Function.update_of_ne other _ _
    · rfl

/-- The flags ask for the recreation of exactly the slaves whose threads have finished. -/
def Flagged (s : System) : Prop :=
  ∀ l, (s.lcoreResource l).flags = slaveRecreateFlag ↔ s.phase l = .reaped

/-- **The flags of an lcore ask for its recreation exactly from the exit callback on until the
relaunch.** -/
theorem Flagged.step (flagged : Flagged s) (reached : Reached eal enabled s)
    (taken : s.step eal a = some t) : Flagged t := by
  intro l
  cases restarts : a.restarts with
  | false =>
      obtain ⟨c, record⟩ := step_record restarts taken l
      rw [record]
      rcases step_phase restarts taken l with same | ⟨lasting, running⟩
      · rw [same]
        exact flagged l
      · have before : s.phase l ≠ .reaped := by
          intro reaped
          rw [reaped] at lasting
          exact absurd lasting (by simp [Phase.ended])
        exact iff_of_false (fun flags => before ((flagged l).mp flags)) running
  | true =>
      cases happens_of_step taken with
      | @exitCb l₀ dead =>
          by_cases here : l = l₀
          · subst here
            have slave := reached.registered.present l (by simp [dead])
            exact iff_of_true (slaveExitCb_flags reached.registered slave)
              (Function.update_self ..)
          · have samePhase : (s.slaveExitCb l₀).phase = s.phase := by
              obtain ⟨procConfig, lcoreResource, written⟩ := slaveExitCb_writes s l₀
              rw [written]
            change ((s.slaveExitCb l₀).lcoreResource l).flags = _ ↔
              Function.update (s.slaveExitCb l₀).phase l₀ .reaped l = _
            rw [slaveExitCb_other s here, Function.update_of_ne here, samePhase]
            exact flagged l
      | @recreate l₀ idle must reaped =>
          obtain ⟨p, launched, -, -, phase, -⟩ :=
            recreate_spec eal reached.sound.exclusive must reaped
          have registered : (s.lcoreResource l₀).enabled = 1 := by
            simp only [System.mustRecreate, Bool.and_eq_true, beq_iff_eq] at must
            exact must.1
          by_cases here : l = l₀
          · subst here
            have slave := reached.registered.isSlave (by rw [registered]; decide)
            simp only [Eal.isSlave, Bool.and_eq_true] at slave
            rw [recreate_flags s registered slave.1, recreate_launches s registered slave.1]
            exact iff_of_false (by decide) (by simp)
          · obtain ⟨cleared, -, records⟩ := recreate_record eal s registered
            rw [records, Function.update_of_ne here, phase, Function.update_of_ne here]
            exact flagged l
      | _ => exact absurd restarts (by simp [Action.restarts])

/-- Nothing but its recreation ends the wait of a slave that must be recreated. -/
theorem Flagged.mustRecreate (flagged : Flagged s) (must : s.mustRecreate l = true)
    (taken : s.step eal a = some t) : a = .recreate l ∨ t.mustRecreate l = true := by
  have flags : (s.lcoreResource l).flags = slaveRecreateFlag := by
    simp only [System.mustRecreate, Bool.and_eq_true, beq_iff_eq] at must
    exact must.2
  have stays {c : LcoreId} (record : t.lcoreResource l = { s.lcoreResource l with configId := c }) :
      t.mustRecreate l = true := by
    unfold System.mustRecreate at must ⊢
    rw [record]
    exact must
  cases restarts : a.restarts with
  | false =>
      obtain ⟨c, record⟩ := step_record restarts taken l
      exact .inr (stays record)
  | true =>
      cases happens_of_step taken with
      | @exitCb l₀ dead =>
          have other : l ≠ l₀ := by
            rintro rfl
            exact absurd (dead.symm.trans ((flagged l).mp flags)) (by simp)
          exact .inr (stays (slaveExitCb_other s other))
      | @recreate l₀ idle must₀ =>
          by_cases here : l₀ = l
          · exact .inl (congrArg _ here)
          · have registered : (s.lcoreResource l₀).enabled = 1 := by
              simp only [System.mustRecreate, Bool.and_eq_true, beq_iff_eq] at must₀
              exact must₀.1
            obtain ⟨cleared, -, records⟩ := recreate_record eal s registered
            refine .inr (stays (c := (s.lcoreResource l).configId) ?_)
            rw [records, Function.update_of_ne (Ne.symm here)]
      | _ => exact absurd restarts (by simp [Action.restarts])

/-- A slave takes nothing out of its ring to the master. -/
theorem step_toMaster (exclusive : s.mem.Exclusive) (slaves : a.ofMaster = false)
    (taken : s.step eal a = some t) (l : LcoreId) :
    ∃ more, t.mem.queue (l, 1) = s.mem.queue (l, 1) ++ more := by
  -- A `send_cmd` of a slave appends to its ring, or does nothing.
  have sends {mem : IpcMem} (exclusive' : mem.Exclusive) (l' : LcoreId) (msg : BridgeMsg)
      (k : ℕ) : ∃ more,
        (sendCmd s.table mem l' msg false k).2.queue (l, 1) = mem.queue (l, 1) ++ more := by
    obtain ⟨msgs, sent, -, queue⟩ := slaveSend_queue s.table exclusive' l' msg k
    rw [queue]
    by_cases here : l = l'
    · subst here
      rw [Function.update_self]
      rcases sent with rfl | rfl
      · exact ⟨[], (List.append_nil _).symm⟩
      · exact ⟨[msg], rfl⟩
    · have different : ((l, 1) : Ring) ≠ (l', 1) := fun same => here (congrArg Prod.fst same)
      exact ⟨[], by rw [Function.update_of_ne different, List.append_nil]⟩
  -- A `get_cmd` of a slave takes from the other ring.
  have gets {mem : IpcMem} {l' : LcoreId} {rest : List BridgeMsg}
      (queue : mem.queue = Function.update s.mem.queue (getRing l' false) rest) :
      mem.queue (l, 1) = s.mem.queue (l, 1) := by
    have different : ((l, 1) : Ring) ≠ getRing l' false := by simp [getRing]
    rw [queue, Function.update_of_ne different]
  have same {u : System} (mem : u.mem.queue (l, 1) = s.mem.queue (l, 1)) :
      ∃ more, u.mem.queue (l, 1) = s.mem.queue (l, 1) ++ more :=
    ⟨[], by rw [mem, List.append_nil]⟩
  cases happens_of_step taken with
  | poll | answer | recreate => exact absurd slaves (by simp [Action.ofMaster])
  | @request l' f k => exact sends exclusive l' System.request k
  | @receive l' f =>
      unfold System.slaveReceive
      obtain ⟨msg, rest, mem, got, -, -, queue⟩ | ⟨e, got⟩ := getCmd_spec s.table s.mem l' false
      · simp only [got]
        split
        · exact same (gets queue)
        · exact same (gets queue)
      · simp only [got]
        exact same rfl
  | @echo l' f conf k =>
      unfold System.slaveEcho
      obtain ⟨msg, rest, mem, got, -, kept, queue⟩ | ⟨e, got⟩ := getCmd_spec s.table s.mem l' false
      · have appended := sends (exclusive.perm kept) l' msg k
        rw [gets queue] at appended
        simp only [got]
        split
        · exact appended
        · exact appended
      · simp only [got]
        exact same rfl
  | @crashAllocated l' k b mem alive got =>
      obtain ⟨-, written⟩ := IpcMem.mempoolGet_eq_some got
      have queue : mem.queue = s.mem.queue := by rw [written]; rfl
      exact same (congrFun queue (l, 1))
  | @crashDequeued l' b mem alive got =>
      obtain ⟨rest, holds, rfl⟩ := IpcMem.ringDequeue_eq_some got
      obtain ⟨-, others⟩ := IpcMem.queue_dequeue holds
      exact same (gets others)
  | @free l' f =>
      obtain ⟨lcoreCfg, -, written⟩ := flibFreeLcoreId_writes eal s f
      rw [written]
      exact same rfl
  | @exitCb l' =>
      obtain ⟨procConfig, lcoreResource, written⟩ := slaveExitCb_writes s l'
      rw [written]
      exact same rfl
  | fork | forkFails | scanOn | scanFinds | scanFails | claim | claimFails | map | leave | unmap
  | exit | crash => exact same rfl

/-! ## The loop is a run of the system -/

namespace MainLoop

/-- The turn is possible in `s`, and leads to the given state. -/
inductive Goes (eal : Eal) (s : MainLoop) : Turn → MainLoop → Prop where
  | slave {a : Action} {system : System} (slaves : a.ofMaster = false)
      (taken : s.system.step eal a = some system) : Goes eal s (.slave a) { s with system }
  | takes {l : LcoreId} (k : ℕ) (polling : s.pc = .polling l)
      (took : (s.system.masterPoll l).pending = some l) :
      Goes eal s (.master k) ⟨s.system.masterPoll l, .answering l⟩
  | polls {l : LcoreId} (k : ℕ) (polling : s.pc = .polling l)
      (tookNone : (s.system.masterPoll l).pending ≠ some l) :
      Goes eal s (.master k) ⟨s.system.masterPoll l, .afterPolling l⟩
  | answers {l : LcoreId} (k : ℕ) (answering : s.pc = .answering l) :
      Goes eal s (.master k)
        ⟨{ (s.system.mainSetLcoreCfg l k).2 with pending := none }, .afterPolling l⟩
  | recreates {l : LcoreId} (k : ℕ) (scanning : s.pc = .scanning l)
      (must : s.system.mustRecreate l = true) (reaped : s.system.phase l = .reaped) :
      Goes eal s (.master k) ⟨s.system.recreate eal l, .afterScanning l⟩
  | skips {l : LcoreId} (k : ℕ) (scanning : s.pc = .scanning l)
      (runs : s.system.mustRecreate l = false) :
      Goes eal s (.master k) { s with pc := .afterScanning l }

variable {s t : MainLoop} {turn : Turn}

theorem goes_of_step (taken : s.step eal turn = some t) : Goes eal s turn t := by
  cases turn with
  | slave a =>
      simp only [step] at taken
      split at taken
      · exact absurd taken (by simp)
      · rename_i possible
        obtain ⟨system, action, rfl⟩ := Option.map_eq_some_iff.mp taken
        simp only [Bool.or_eq_true, not_or, Bool.not_eq_true] at possible
        exact .slave possible.1 action
  | master k =>
      simp only [step, masterTurn] at taken
      split at taken
      · rename_i l polling
        obtain rfl := Option.some.inj taken
        split
        · rename_i took
          exact .takes k polling took
        · rename_i tookNone
          exact .polls k polling tookNone
      · rename_i l answering
        obtain rfl := Option.some.inj taken
        exact .answers k answering
      · rename_i l scanning
        split at taken
        · rename_i must
          split at taken
          · rename_i reaped
            obtain rfl := Option.some.inj taken
            exact .recreates k scanning must reaped
          · exact absurd taken (by simp)
        · rename_i runs
          obtain rfl := Option.some.inj taken
          exact .skips k scanning (by simpa using runs)

/-- What holds in every state of `main_loop`. -/
structure Going (eal : Eal) (enabled : LcoreId → ℤ) (s : MainLoop) : Prop where
  reached : Reached eal enabled s.system
  pending : s.system.pending = s.pc.pending?
  flagged : Flagged s.system

theorem Going.initial (eal : Eal) (enabled : LcoreId → ℤ) {pool : List BufPtr}
    (distinct : pool.Nodup) (content : BufPtr → BridgeMsg) :
    Going eal enabled (.initial eal enabled pool content) where
  reached :=
    have start : Run (System.step eal) anyAction (.initial eal enabled pool content) _ := .refl
    .of_run eal enabled distinct content start
  pending := rfl
  flagged l := by
    have running : (System.initial eal enabled pool content).phase l ≠ .reaped := by
      simp only [System.initial]
      split <;> simp
    have noFlags : ((System.initial eal enabled pool content).lcoreResource l).flags = 0 := rfl
    refine iff_of_false ?_ running
    rw [MainLoop.initial, noFlags]
    decide

theorem pending?_afterPolling (l : LcoreId) : (LoopPc.afterPolling l).pending? = none := by
  unfold LoopPc.afterPolling
  split <;> rfl

theorem pending?_afterScanning (l : LcoreId) : (LoopPc.afterScanning l).pending? = none := by
  unfold LoopPc.afterScanning
  split <;> rfl

/-- A poll leaves the master with the request of this lcore, or with none. -/
theorem masterPoll_pending (s : System) {l : LcoreId} (idle : s.pending = none) :
    (s.masterPoll l).pending = some l ∨ (s.masterPoll l).pending = none := by
  unfold System.masterPoll
  split
  · dsimp only
    split
    · exact .inl rfl
    · exact .inr idle
  · exact .inr idle

/-- The actions of the system that a turn stands for. -/
def actions (s : MainLoop) : Turn → List Action
  | .slave a => [a]
  | .master k =>
      match s.pc with
      | .polling l => [.poll l]
      | .answering _ => [.answer k]
      | .scanning l => if s.system.mustRecreate l then [.recreate l] else []

/-- **Every turn is one step of the system, or none.** -/
theorem Going.step (going : Going eal enabled s) (taken : s.step eal turn = some t) :
    Going eal enabled t ∧ exec (System.step eal) s.system (s.actions turn) = some t.system := by
  have single {a : Action} {system : System} (action : s.system.step eal a = some system) :
      exec (System.step eal) s.system [a] = some system := exec_cons_of_step action []
  have moves {a : Action} {system : System} {pc : LoopPc}
      (action : s.system.step eal a = some system) (pending : system.pending = pc.pending?) :
      Going eal enabled ⟨system, pc⟩ :=
    ⟨going.reached.step action, pending, going.flagged.step going.reached action⟩
  cases goes_of_step taken with
  | slave slaves action =>
      exact ⟨moves action ((step_pending slaves action).trans going.pending), single action⟩
  | @takes l k polling took =>
      have idle : s.system.pending = none := by rw [going.pending, polling]; rfl
      have action : s.system.step eal (.poll l) = some (s.system.masterPoll l) := if_pos idle
      rw [actions, polling]
      exact ⟨moves action took, single action⟩
  | @polls l k polling tookNone =>
      have idle : s.system.pending = none := by rw [going.pending, polling]; rfl
      have action : s.system.step eal (.poll l) = some (s.system.masterPoll l) := if_pos idle
      have stillIdle := (masterPoll_pending s.system idle).resolve_left tookNone
      rw [actions, polling]
      exact ⟨moves action (stillIdle.trans (pending?_afterPolling l).symm), single action⟩
  | @answers l k answering =>
      have pending : s.system.pending = some l := by rw [going.pending, answering]; rfl
      have action : s.system.step eal (.answer k) =
          some { (s.system.mainSetLcoreCfg l k).2 with pending := none } := by
        simp [System.step, pending]
      rw [actions, answering]
      exact ⟨moves action (pending?_afterPolling l).symm, single action⟩
  | @recreates l k scanning must reaped =>
      have idle : s.system.pending = none := by rw [going.pending, scanning]; rfl
      have action : s.system.step eal (.recreate l) = some (s.system.recreate eal l) :=
        if_pos ⟨idle, must, reaped⟩
      obtain ⟨p, -, -, -, -, pending, -⟩ :=
        recreate_spec eal going.reached.sound.exclusive must reaped
      rw [actions, scanning]
      simp only [must, if_true]
      exact ⟨moves action ((pending.trans idle).trans (pending?_afterScanning l).symm),
        single action⟩
  | @skips l k scanning runs =>
      have idle : s.system.pending = none := by rw [going.pending, scanning]; rfl
      rw [actions, scanning]
      simp only [runs, Bool.false_eq_true, if_false]
      exact ⟨⟨going.reached, idle.trans (pending?_afterScanning l).symm, going.flagged⟩, rfl⟩

theorem countP_actions (s : MainLoop) (turn : Turn) :
    (s.actions turn).countP Action.losesBuffer = [turn].countP Turn.losesBuffer := by
  cases turn with
  | slave a => rfl
  | master k =>
      cases pc : s.pc with
      | polling l => simp [actions, pc, Action.losesBuffer, Turn.losesBuffer]
      | answering l => simp [actions, pc, Action.losesBuffer, Turn.losesBuffer]
      | scanning l =>
          simp only [actions, pc]
          split
          · rfl
          · rfl

/-- **The loop is a run of the system.** -/
theorem exec_system {turns : List Turn} (going : Going eal enabled s)
    (executed : exec (MainLoop.step eal) s turns = some t) :
    Going eal enabled t ∧ ∃ actions, exec (System.step eal) s.system actions = some t.system ∧
      actions.countP Action.losesBuffer = turns.countP Turn.losesBuffer := by
  induction turns generalizing s with
  | nil =>
      obtain rfl := Option.some.inj executed
      exact ⟨going, [], rfl, rfl⟩
  | cons turn turns inductionHypothesis =>
      obtain ⟨u, taken, rest⟩ := exec_cons executed
      obtain ⟨next, here⟩ := going.step taken
      obtain ⟨last, later, run, count⟩ := inductionHypothesis next rest
      refine ⟨last, s.actions turn ++ later, ?_, ?_⟩
      · unfold exec at here run ⊢
        rw [List.foldlM_append, here]
        exact run
      · rw [List.countP_append, countP_actions, count, ← List.countP_append]
        rfl

/-- The master is never stuck. -/
theorem Going.turn_possible (going : Going eal enabled s) (k : ℕ) :
    ∃ t, s.step eal (.master k) = some t := by
  simp only [MainLoop.step, masterTurn]
  split
  · exact ⟨_, rfl⟩
  · exact ⟨_, rfl⟩
  · rename_i l scanning
    split
    · rename_i must
      have flags : (s.system.lcoreResource l).flags = slaveRecreateFlag := by
        simp only [System.mustRecreate, Bool.and_eq_true, beq_iff_eq] at must
        exact must.2
      rw [if_pos ((going.flagged l).mp flags)]
      exact ⟨_, rfl⟩
    · exact ⟨_, rfl⟩

/-! ## One round -/

/-- The turns of one round: three for each lcore. -/
def roundLength : ℕ := 3 * rteMaxLcore

end MainLoop

namespace LoopPc

/-- The place of the master in the round. -/
def place : LoopPc → ℕ
  | .polling l => 2 * l.val
  | .answering l => 2 * l.val + 1
  | .scanning l => 2 * rteMaxLcore + l.val

theorem place_lt (pc : LoopPc) : pc.place < MainLoop.roundLength := by
  unfold MainLoop.roundLength
  cases pc with
  | polling l | answering l | scanning l =>
      have inside := l.isLt
      simp only [place]
      omega

theorem place_afterPolling (l : LcoreId) : (afterPolling l).place = 2 * l.val + 2 := by
  have inside := l.isLt
  unfold afterPolling
  split
  · simp only [place]
    omega
  · have last : l.val + 1 = rteMaxLcore := by omega
    simp only [place, ← last]
    rfl

theorem place_afterScanning (l : LcoreId) :
    l.val + 1 < rteMaxLcore ∧ (afterScanning l).place = 2 * rteMaxLcore + l.val + 1 ∨
      l.val + 1 = rteMaxLcore ∧ (afterScanning l).place = 0 := by
  have inside := l.isLt
  unfold afterScanning
  split
  · rename_i onward
    exact .inl ⟨onward, rfl⟩
  · exact .inr ⟨by omega, rfl⟩

theorem place_injective : Function.Injective place := by
  intro pc pc' same
  cases pc with
  | polling l | answering l | scanning l =>
      have inside := l.isLt
      cases pc' with
      | polling l' | answering l' | scanning l' =>
          have inside' := l'.isLt
          simp only [place] at same
          first
            | exact absurd same (by omega)
            | exact congrArg _ (Fin.ext (by omega))

end LoopPc

namespace MainLoop

variable {s t : MainLoop} {turn : Turn}

/-- The turns until the master is at a place. -/
def turnsTo (s : MainLoop) (target : LoopPc) : ℕ := ahead roundLength s.pc.place target.place

/-- **A turn of the master brings it nearer to every place but the one where it is**, and but the
answer to a request that it does not find. -/
theorem turnsTo_lt {k : ℕ} (taken : s.step eal (.master k) = some t) {target : LoopPc}
    (elsewhere : s.pc ≠ target)
    (found : ∀ l, target = .answering l → s.pc = .polling l → t.pc = .answering l)
    (noPoll : ∀ l, target ≠ .polling l) : t.turnsTo target < s.turnsTo target := by
  have different : s.pc.place ≠ target.place := fun same =>
    elsewhere (LoopPc.place_injective same)
  have inside := target.place_lt
  have stays := t.pc.place_lt
  -- The turn goes from place `p` to place `q`, and does not jump over the target.
  have concludes {p q : ℕ} (before : s.pc.place = p) (after : t.pc.place = q)
      (advances : Advances roundLength p q)
      (answer : ∀ l, target = .answering l → p < 2 * l.val + 1 → q ≤ 2 * l.val + 1 ∧ q ≠ 0)
      (test : ∀ l : LcoreId, p < 2 * rteMaxLcore + l.val → q ≤ 2 * rteMaxLcore + l.val ∧ q ≠ 0) :
      t.turnsTo target < s.turnsTo target := by
    subst before after
    refine ahead_lt_ahead advances different ?_
    cases target with
    | polling l => exact absurd rfl (noPoll l)
    | answering l => exact answer l rfl
    | scanning l => exact test l
  cases goes_of_step taken with
  | @takes l k polling =>
      have insideL := l.isLt
      refine concludes (congrArg LoopPc.place polling) rfl (.inl ⟨?_, stays⟩) ?_ ?_
      · simp only [LoopPc.place]
        omega
      · intro l' _ before
        simp only [LoopPc.place] at before ⊢
        omega
      · intro l' before
        simp only [LoopPc.place] at before ⊢
        omega
  | @polls l k polling =>
      have insideL := l.isLt
      have next := LoopPc.place_afterPolling l
      refine concludes (congrArg LoopPc.place polling) next (.inl ⟨?_, next ▸ stays⟩) ?_ ?_
      · simp only [LoopPc.place]
        omega
      · intro l' isTarget before
        have other : l ≠ l' := by
          rintro rfl
          have answering : LoopPc.afterPolling l = .answering l := found l isTarget polling
          have place : (LoopPc.afterPolling l).place = 2 * l.val + 1 := by rw [answering]; rfl
          omega
        have otherVal : l.val ≠ l'.val := fun same => other (Fin.ext same)
        simp only [LoopPc.place] at before
        omega
      · intro l' before
        omega
  | @answers l k answering =>
      have insideL := l.isLt
      have next := LoopPc.place_afterPolling l
      refine concludes (congrArg LoopPc.place answering) next (.inl ⟨?_, next ▸ stays⟩) ?_ ?_
      · simp only [LoopPc.place]
        omega
      · intro l' _ before
        simp only [LoopPc.place] at before
        omega
      · intro l' before
        omega
  | @recreates l k scanning | @skips l k scanning =>
      have insideL := l.isLt
      rcases LoopPc.place_afterScanning l with ⟨onward, next⟩ | ⟨last, next⟩
      · refine concludes (congrArg LoopPc.place scanning) next (.inl ⟨?_, next ▸ stays⟩) ?_ ?_
        · simp only [LoopPc.place]
          omega
        · intro l' _ before
          have insideL' := l'.isLt
          simp only [LoopPc.place] at before
          omega
        · intro l' before
          simp only [LoopPc.place] at before
          omega
      · refine concludes (congrArg LoopPc.place scanning) next (.inr ⟨?_, rfl⟩) ?_ ?_
        · simp only [LoopPc.place, roundLength]
          omega
        · intro l' _ before
          have insideL' := l'.isLt
          simp only [LoopPc.place] at before
          omega
        · intro l' before
          have insideL' := l'.isLt
          simp only [LoopPc.place] at before
          omega

/-! ## Requests -/

/-- The poll of a lcore takes a request that is there. -/
theorem masterPoll_takes {s : System} (reached : Reached eal enabled s)
    (asked : s.mem.queue (l, 1) ≠ []) : (s.masterPoll l).pending = some l := by
  have slave : eal.isSlave l = true := by
    apply reached.registered.present l
    intro stopped
    exact asked ((reached.sound.agreed l).quiet_of_phase stopped rfl).toMaster
  have isEnabled : s.table.enabled l = true := by
    simp [System.table, reached.registered.enabled l, slave]
  have created : s.table.created (getRing l true) = true := by
    simp [System.table, getRing, reached.registered.ring l, slave]
  unfold System.masterPoll
  obtain ⟨msg, rest, mem, got, first, -⟩ | ⟨e, got⟩ := getCmd_spec s.table s.mem l true
  · obtain ⟨rfl, -⟩ := (reached.sound.agreed l).talk.requested_of_toMaster first
    simp [got, System.request]
  · exact absurd (queue_eq_nil_of_getCmd isEnabled created got) asked

/-- The master has the request of `l`, or it is in its ring. -/
def Asked (l : LcoreId) (s : MainLoop) : Prop :=
  s.pc = .answering l ∨ s.system.mem.queue (l, 1) ≠ []

/-- A turn that relaunches the lcore of a slave that has exited. -/
def RelaunchesSlave (l : LcoreId) (u : MainLoop) (_ : Turn) (v : MainLoop) : Prop :=
  u.pc = .scanning l ∧ u.system.phase l = .reaped ∧ v.system.phase l = .launched

theorem Going.relaunchesSlave (going : Going eal enabled s) (k : ℕ) (scanning : s.pc = .scanning l)
    (must : s.system.mustRecreate l = true) (reaped : s.system.phase l = .reaped) :
    RelaunchesSlave l s (.master k) ⟨s.system.recreate eal l, .afterScanning l⟩ := by
  have registered : (s.system.lcoreResource l).enabled = 1 := by
    simp only [System.mustRecreate, Bool.and_eq_true, beq_iff_eq] at must
    exact must.1
  have slave := going.reached.registered.isSlave (by rw [registered]; decide)
  simp only [Eal.isSlave, Bool.and_eq_true] at slave
  exact ⟨scanning, reaped, recreate_launches s.system registered slave.1⟩

/-- The master calls `main_set_lcore_cfg` for `l`, or relaunches it. -/
inductive Serves (l : LcoreId) (u : MainLoop) : Turn → MainLoop → Prop where
  | answers (k : ℕ) (answering : u.pc = .answering l) :
      Serves l u (.master k)
        ⟨{ (u.system.mainSetLcoreCfg l k).2 with pending := none }, .afterPolling l⟩
  | relaunches {turn : Turn} {v : MainLoop} (relaunches : RelaunchesSlave l u turn v) :
      Serves l u turn v

/-- **A request is served, or stays while the master comes nearer.** -/
theorem Going.asked_progress (going : Going eal enabled s) (asked : Asked l s)
    (taken : s.step eal turn = some t) :
    Serves l s turn t ∨
      Asked l t ∧ t.turnsTo (.answering l) + (if turn.ofMaster then 1 else 0) ≤
        s.turnsTo (.answering l) := by
  have exclusive := going.reached.sound.exclusive
  have stays {system : System} (queue : system.mem.queue (l, 1) = s.system.mem.queue (l, 1))
      (elsewhere : s.pc ≠ .answering l) {pc : LoopPc} : Asked l ⟨system, pc⟩ :=
    .inr (queue ▸ asked.resolve_left elsewhere)
  have nearer {k : ℕ} {u : MainLoop} (taken : s.step eal (.master k) = some u)
      (elsewhere : s.pc ≠ .answering l) (found : s.pc = .polling l → u.pc = .answering l) :
      u.turnsTo (.answering l) + 1 ≤ s.turnsTo (.answering l) := by
    refine turnsTo_lt taken elsewhere ?_ (by simp)
    rintro l' same
    obtain rfl := LoopPc.answering.inj same
    exact found
  cases goes_of_step taken with
  | slave slaves action =>
      refine .inr ⟨?_, Nat.le_refl _⟩
      rcases asked with answering | waiting
      · exact .inl answering
      · obtain ⟨more, queue⟩ := step_toMaster exclusive slaves action l
        refine .inr ?_
        rw [queue]
        simp [waiting]
  | @takes l₀ k polling =>
      have elsewhere : s.pc ≠ .answering l := by simp [polling]
      have idle : s.system.pending = none := by rw [going.pending, polling]; rfl
      by_cases here : l₀ = l
      · subst here
        exact .inr ⟨.inl rfl, nearer taken elsewhere fun _ => rfl⟩
      · have view := (changed_poll exclusive l₀ idle).others l (Ne.symm here)
        refine .inr ⟨stays (congrArg View.toMaster view) elsewhere, nearer taken elsewhere ?_⟩
        intro pollingL
        exact absurd (LoopPc.polling.inj (polling.symm.trans pollingL)) here
  | @polls l₀ k polling tookNone =>
      have elsewhere : s.pc ≠ .answering l := by simp [polling]
      have idle : s.system.pending = none := by rw [going.pending, polling]; rfl
      have here : l₀ ≠ l := by
        rintro rfl
        exact tookNone (masterPoll_takes going.reached (asked.resolve_left elsewhere))
      have view := (changed_poll exclusive l₀ idle).others l here.symm
      refine .inr ⟨stays (congrArg View.toMaster view) elsewhere, nearer taken elsewhere ?_⟩
      intro pollingL
      exact absurd (LoopPc.polling.inj (polling.symm.trans pollingL)) here
  | @answers l₀ k answering =>
      by_cases here : l₀ = l
      · subst here
        exact .inl (.answers k answering)
      · have elsewhere : s.pc ≠ .answering l := by simp [answering, here]
        have pending : s.system.pending = some l₀ := by rw [going.pending, answering]; rfl
        have view := (changed_answer exclusive k pending).others l (Ne.symm here)
        exact .inr ⟨stays (congrArg View.toMaster view) elsewhere,
          nearer taken elsewhere (by simp [answering])⟩
  | @recreates l₀ k scanning must reaped =>
      by_cases here : l₀ = l
      · subst here
        exact .inl (.relaunches (going.relaunchesSlave k scanning must reaped))
      · have elsewhere : s.pc ≠ .answering l := by simp [scanning]
        have idle : s.system.pending = none := by rw [going.pending, scanning]; rfl
        have changed : Changed s.system (s.system.recreate eal l₀) (.recreate l₀) l₀ :=
          changed_recreate exclusive idle must reaped
        have view := changed.others l (Ne.symm here)
        exact .inr ⟨stays (congrArg View.toMaster view) elsewhere,
          nearer taken elsewhere (by simp [scanning])⟩
  | @skips l₀ k scanning =>
      have elsewhere : s.pc ≠ .answering l := by simp [scanning]
      exact .inr ⟨stays rfl elsewhere, nearer taken elsewhere (by simp [scanning])⟩

/-! ## Recreations -/

/-- **A slave that must be recreated is relaunched, or stays while the master comes nearer.** -/
theorem Going.mustRecreate_progress (going : Going eal enabled s)
    (must : s.system.mustRecreate l = true) (taken : s.step eal turn = some t) :
    RelaunchesSlave l s turn t ∨
      t.system.mustRecreate l = true ∧
        t.turnsTo (.scanning l) + (if turn.ofMaster then 1 else 0) ≤ s.turnsTo (.scanning l) := by
  have nearer {k : ℕ} {u : MainLoop} (taken : s.step eal (.master k) = some u)
      (elsewhere : s.pc ≠ .scanning l) :
      u.turnsTo (.scanning l) + 1 ≤ s.turnsTo (.scanning l) :=
    turnsTo_lt taken elsewhere (by simp) (by simp)
  have stays {a : Action} (action : s.system.step eal a = some t.system)
      (other : a ≠ .recreate l) : t.system.mustRecreate l = true :=
    (going.flagged.mustRecreate must action).resolve_left other
  obtain ⟨-, here⟩ := going.step taken
  cases goes_of_step taken with
  | slave slaves action =>
      refine .inr ⟨stays action ?_, Nat.le_refl _⟩
      rintro rfl
      exact absurd slaves (by simp [Action.ofMaster])
  | @takes l₀ k polling =>
      have idle : s.system.pending = none := by rw [going.pending, polling]; rfl
      exact .inr ⟨stays (a := .poll l₀) (if_pos idle) (by simp), nearer taken (by simp [polling])⟩
  | @polls l₀ k polling =>
      have idle : s.system.pending = none := by rw [going.pending, polling]; rfl
      exact .inr ⟨stays (a := .poll l₀) (if_pos idle) (by simp), nearer taken (by simp [polling])⟩
  | @answers l₀ k answering =>
      have pending : s.system.pending = some l₀ := by rw [going.pending, answering]; rfl
      refine .inr ⟨stays (a := .answer k) ?_ (by simp), nearer taken (by simp [answering])⟩
      simp [System.step, pending]
  | @recreates l₀ k scanning must₀ reaped =>
      by_cases same : l₀ = l
      · subst same
        exact .inl (going.relaunchesSlave k scanning must reaped)
      · have idle : s.system.pending = none := by rw [going.pending, scanning]; rfl
        refine .inr ⟨stays (a := .recreate l₀) (if_pos ⟨idle, must₀, reaped⟩) (by simp [same]), ?_⟩
        exact nearer taken (by simp [scanning, same])
  | @skips l₀ k scanning runs =>
      have other : l₀ ≠ l := by
        rintro rfl
        exact absurd (must.symm.trans runs) (by decide)
      exact .inr ⟨must, nearer taken (by simp [scanning, other])⟩

/-! ## Whole runs -/

/-- **`main_loop` is a run of the system, and never stuck.** In every run of the loop and the
slaves, the system is in a state that it reaches with the steps of `System.step`, and the
master can take its next turn: a slave that it is to recreate has exited, its thread has finished,
and `rte_eal_wait_lcore` returns. -/
theorem main_loop_refines (eal : Eal) (enabled : LcoreId → ℤ) {pool : List BufPtr}
    (distinct : pool.Nodup) (content : BufPtr → BridgeMsg) {turns : List Turn} {s : MainLoop}
    (executed : exec (MainLoop.step eal) (.initial eal enabled pool content) turns = some s) :
    (∃ actions, exec (System.step eal) (.initial eal enabled pool content) actions =
        some s.system ∧ actions.countP Action.losesBuffer = turns.countP Turn.losesBuffer) ∧
      ∀ k, ∃ t, s.step eal (.master k) = some t := by
  obtain ⟨going, run⟩ := exec_system (.initial eal enabled distinct content) executed
  exact ⟨run, fun k => going.turn_possible k⟩

/-- `main_loop` with `threeLcores` and the configurations of `twoSlaves`. -/
def twoSlavesLoop : MainLoop :=
  .initial threeLcores (fun c => if c.val < 2 then 1 else 0) [1, 2, 3] fun _ => ⟨.start, []⟩

/-- The first slave sends its request before the master polls for the first time. -/
def firstAsks : List Turn := (asks 1 3).map .slave

/-- The master takes the request. -/
theorem main_loop_refines_firstSlave :
    ∃ s t : MainLoop, s.pc = .answering 1 ∧ s.step threeLcores (.master 0) = some t := by
  obtain ⟨s, executed, answering⟩ : ∃ s, exec (MainLoop.step threeLcores) twoSlavesLoop
      (firstAsks ++ [.master 0, .master 0]) = some s ∧ s.pc = .answering 1 :=
    Option.map_eq_some_iff.mp (by rfl)
  obtain ⟨-, possible⟩ := main_loop_refines threeLcores _ (by decide) _ executed
  obtain ⟨t, taken⟩ := possible 0
  exact ⟨s, t, answering, taken⟩

variable {pool : List BufPtr} {content : BufPtr → BridgeMsg}

/-- A turn that handles a request: the master has taken it and a configuration is free, which it
sends and notes; or it has taken it and none is free, and it sends nothing; or it relaunches the
lcore of the slave, which has exited. -/
inductive HandlesRequest (l : LcoreId) (u : MainLoop) : Turn → MainLoop → Prop where
  | answers (k : ℕ) (c : LcoreId) (v : MainLoop) (answering : u.pc = .answering l)
      (free : u.system.findFreeProc = some c)
      (sent : v.system.mem.queue (l, 0) = [System.reply c])
      (noted : (v.system.lcoreResource l).configId = c) (after : v.pc = .afterPolling l) :
      HandlesRequest l u (.master k) v
  | drops (k : ℕ) (v : MainLoop) (answering : u.pc = .answering l)
      (noneFree : u.system.findFreeProc = none) (silent : v.system.mem = u.system.mem)
      (taken : v.system.mem.queue (l, 1) = []) (after : v.pc = .afterPolling l) :
      HandlesRequest l u (.master k) v
  | relaunches (turn : Turn) (v : MainLoop) (relaunches : RelaunchesSlave l u turn v) :
      HandlesRequest l u turn v

/-- What the master does for `l`, while the pool has buffers. -/
theorem Going.handlesRequest (going : Going eal enabled s) {lost : List BufPtr}
    (split : pool.Perm (lost ++ (s.system.mem.free ++ s.system.mem.queued)))
    (enough : lost.length + eal.slaveNb ≤ pool.length) (serves : Serves l s turn t) :
    HandlesRequest l s turn t := by
  cases serves with
  | answers k answering =>
      have pending : s.system.pending = some l := by rw [going.pending, answering]; rfl
      cases found : s.system.findFreeProc with
      | some c =>
          have taken : s.system.step eal (.answer k) =
              some { (s.system.mainSetLcoreCfg l k).2 with pending := none } := by
            simp [System.step, pending]
          obtain ⟨sent, noted⟩ := going.reached.answer_sent split enough pending found taken
          exact .answers k c _ answering found sent noted rfl
      | none =>
          obtain ⟨-, toMaster⟩ := (going.reached.sound.agreed l).talk.taken_of_pending
            (System.view_pending pending)
          have silent : (s.system.mainSetLcoreCfg l k).2.mem = s.system.mem := by
            simp only [System.mainSetLcoreCfg, found]
          refine .drops k _ answering found silent ?_ rfl
          exact (congrArg (fun mem => mem.queue (l, 1)) silent).trans toMaster
  | relaunches relaunches => exact .relaunches _ _ relaunches

/-- **Every request is handled within one round of the master.** In every run of `main_loop` and the
slaves, when the request of a slave is in its ring and the master takes 384 turns, among the
steps of the slaves in whatever order, the master handles the request in one of them: it sends
the first configuration that is free, or nothing if none is. Otherwise the slave has exited, and the
master relaunches its lcore. No slave may have died in the middle of a call too often: the pool,
which is a set of buffers here, must have one for each slave. -/
theorem requests_are_handled (eal : Eal) (enabled : LcoreId → ℤ) {pool : List BufPtr}
    (distinct : pool.Nodup) (content : BufPtr → BridgeMsg) {before after : List Turn}
    {s t : MainLoop}
    (started : exec (MainLoop.step eal) (.initial eal enabled pool content) before = some s)
    (asked : s.system.mem.queue (l, 1) ≠ [])
    (executed : exec (MainLoop.step eal) s after = some t)
    (round : roundLength ≤ after.countP Turn.ofMaster)
    (enough : (before ++ after).countP Turn.losesBuffer + eal.slaveNb ≤ pool.length) :
    ServedIn (MainLoop.step eal) (HandlesRequest l) s after t := by
  obtain ⟨going, -⟩ := exec_system (.initial eal enabled distinct content) started
  obtain ⟨front, turn, back, u, v, rfl, first, taken, serves, rest⟩ :=
    exec_serves (MainLoop.step eal) (fun u => Going eal enabled u ∧ Asked l u) (Serves l)
      Turn.ofMaster (fun u => u.turnsTo (.answering l))
      (fun waits taken => (waits.1.asked_progress waits.2 taken).imp id fun later =>
        ⟨⟨(waits.1.step taken).1, later.1⟩, later.2⟩)
      ⟨going, .inr asked⟩ executed
      ((ahead_lt (LoopPc.place_lt (.answering l))).trans_le round)
  refine ⟨front, turn, back, u, v, rfl, first, taken, ?_, rest⟩
  have reached : exec (MainLoop.step eal) (.initial eal enabled pool content) (before ++ front) =
      some u := by
    unfold exec at started first ⊢
    rw [List.foldlM_append, started]
    exact first
  obtain ⟨goingU, actions, run, count⟩ :=
    exec_system (.initial eal enabled distinct content) reached
  obtain ⟨lost, split, losses⟩ := run_lost eal enabled distinct content run
  refine goingU.handlesRequest split ?_ serves
  have few : (before ++ front).countP Turn.losesBuffer ≤
      (before ++ (front ++ turn :: back)).countP Turn.losesBuffer := by
    simp only [List.countP_append]
    omega
  omega

/-- The master can take as many turns as it likes. -/
theorem Going.turns_possible (going : Going eal enabled s) (n : ℕ) :
    ∃ t, exec (MainLoop.step eal) s (List.replicate n (.master 0)) = some t := by
  induction n generalizing s with
  | zero => exact ⟨s, rfl⟩
  | succ n inductionHypothesis =>
      obtain ⟨u, taken⟩ := going.turn_possible 0
      obtain ⟨t, rest⟩ := inductionHypothesis (going.step taken).1
      exact ⟨t, (exec_cons_of_step taken _).trans rest⟩

theorem countP_replicate_master (n : ℕ) :
    (List.replicate n (Turn.master 0)).countP Turn.ofMaster = n := by
  simp [List.countP_replicate, Turn.ofMaster]

/-- The request of the first slave. The second one dies in the middle of its request before. -/
theorem requests_are_handled_firstSlave :
    ∃ s t : MainLoop, s.system.mem.queue (1, 1) = [System.request] ∧
      ServedIn (MainLoop.step threeLcores) (HandlesRequest 1) s
        (List.replicate roundLength (.master 0)) t := by
  obtain ⟨s, started, asked⟩ : ∃ s, exec (MainLoop.step threeLcores) twoSlavesLoop
      (.slave (.fork 2) :: .slave (.crashAllocated 2 0) :: firstAsks) = some s ∧
        s.system.mem.queue (1, 1) = [System.request] :=
    Option.map_eq_some_iff.mp (by rfl)
  obtain ⟨going, -⟩ := exec_system
    (.initial threeLcores (fun c => if c.val < 2 then 1 else 0) (by decide) _) started
  obtain ⟨t, executed⟩ := going.turns_possible roundLength
  refine ⟨s, t, asked, ?_⟩
  refine requests_are_handled threeLcores _ (by decide) _ started (by simp [asked]) executed
    (countP_replicate_master roundLength).ge ?_
  have slaves : threeLcores.slaveNb = 2 := by decide
  have noLoss : (List.replicate roundLength (Turn.master 0)).countP Turn.losesBuffer = 0 := by
    simp [List.countP_replicate, Turn.losesBuffer]
  rw [slaves, List.countP_append, noLoss]
  decide

/-- **Every slave that has exited is relaunched within one round of the master.** In every run of
`main_loop` and the slaves, when the exit callback of a slave has run and the master takes
384 turns, among the steps of the slaves in whatever order, it relaunches the lcore in one of
them. -/
theorem exited_slaves_are_relaunched (eal : Eal) (enabled : LcoreId → ℤ) {pool : List BufPtr}
    (distinct : pool.Nodup) (content : BufPtr → BridgeMsg) {before after : List Turn}
    {s t : MainLoop}
    (started : exec (MainLoop.step eal) (.initial eal enabled pool content) before = some s)
    (exited : s.system.phase l = .reaped)
    (executed : exec (MainLoop.step eal) s after = some t)
    (round : roundLength ≤ after.countP Turn.ofMaster) :
    ServedIn (MainLoop.step eal) (RelaunchesSlave l) s after t := by
  obtain ⟨going, -⟩ := exec_system (.initial eal enabled distinct content) started
  have slave : eal.isSlave l = true := going.reached.registered.present l (by simp [exited])
  have must : s.system.mustRecreate l = true := by
    simp [System.mustRecreate, (going.flagged l).mpr exited, going.reached.registered.enabled l,
      slave]
  exact exec_serves (MainLoop.step eal)
    (fun u => Going eal enabled u ∧ u.system.mustRecreate l = true) (RelaunchesSlave l)
    Turn.ofMaster (fun u => u.turnsTo (.scanning l))
    (fun waits taken => (waits.1.mustRecreate_progress waits.2 taken).imp id fun later =>
      ⟨⟨(waits.1.step taken).1, later.1⟩, later.2⟩)
    ⟨going, must⟩ executed ((ahead_lt (LoopPc.place_lt (.scanning l))).trans_le round)

/-- The first slave crashes before it has its floating id. -/
theorem exited_slaves_are_relaunched_firstSlave :
    ∃ s t : MainLoop, s.system.phase 1 = .reaped ∧
      ServedIn (MainLoop.step threeLcores) (RelaunchesSlave 1) s
        (List.replicate roundLength (.master 0)) t := by
  obtain ⟨s, started, exited⟩ : ∃ s, exec (MainLoop.step threeLcores) twoSlavesLoop
      [.slave (.fork 1), .slave (.crash 1), .slave (.exitCb 1)] = some s ∧
        s.system.phase 1 = .reaped :=
    Option.map_eq_some_iff.mp (by rfl)
  obtain ⟨going, -⟩ := exec_system
    (.initial threeLcores (fun c => if c.val < 2 then 1 else 0) (by decide) _) started
  obtain ⟨t, executed⟩ := going.turns_possible roundLength
  exact ⟨s, t, exited, exited_slaves_are_relaunched threeLcores _ (by decide) _ started exited
    executed (countP_replicate_master roundLength).ge⟩

end MainLoop

end DdosFiltering.Control
