import DdosFiltering.Control.Registry

/-!
# The threads of the master process

The exit callbacks and the scan of `main_loop` statement by statement. Each lcore has a thread
in the master process, which forks the slave, waits for its end, calls `slave_exit_cb` and
returns (`lcore_func`, `flib.c`). `main_loop` looks for slaves to recreate while it holds
`mutex_lock`, and `reset_lcore` waits for the thread of the lcore. The callback holds the same
lock while it writes the flags.

The state of the processes and of the shared memory is a `System`. Its steps are taken over, but
for the exit callback and the recreation, which are single statements here: any other step may
come between two of them. Without such a step they do what the steps of `System` do
(`callback_uninterrupted`, `recreate_uninterrupted`).
-/

set_option autoImplicit false

namespace DdosFiltering.Control

open Foundation

/-- Where the thread of an lcore is after the return of `waitpid`. -/
inductive CallbackPc where
  /-- Not in `slave_exit_cb`, and not on the way back from it. -/
  | outside
  /-- At the test of `enabled`. `proc_cfg` points to the entry `c`. -/
  | entered (c : LcoreId)
  /-- At `rte_spinlock_lock`. -/
  | locking (c : LcoreId)
  /-- At `proc_cfg->used = 0`. -/
  | unusing (c : LcoreId)
  /-- At the test of `SLAVE_DONT_RECREATE_FLAG`. -/
  | testing
  /-- At `flags = SLAVE_RECREATE_FLAG`. -/
  | flagging
  /-- At `rte_spinlock_unlock`. -/
  | unlocking
  /-- The callback has completed, and `lcore_func` returns. -/
  | returning
deriving DecidableEq

/-- Where the master is in `main_loop`. -/
inductive MainPc where
  /-- It reads and answers messages. -/
  | polling
  /-- At the test of the lcore `i`, in the loop under the lock. -/
  | scanning (i : ℕ)
  /-- `reset_lcore` reads `mapping_id[l]`. -/
  | resetting (l : LcoreId)
  /-- At `flib_free_lcore_id(f)`. -/
  | freeing (l f : LcoreId)
  /-- At `mapping_id[f] = INVALID_MAPPING_ID`. -/
  | clearing (l f : LcoreId)
  /-- At `proc_config[f].used = 0`. -/
  | unusing (l f : LcoreId)
  /-- At the test of `enabled`. -/
  | testing (l : LcoreId)
  /-- `init_slave_res` creates the rings. -/
  | creating (l : LcoreId)
  /-- `init_slave_res` drains a ring. -/
  | draining (l : LcoreId) (isMaster : Bool)
  /-- In `rte_eal_wait_lcore`. -/
  | waiting (l : LcoreId)
  /-- At `rte_eal_remote_launch`. -/
  | launching (l : LcoreId)
  /-- At `flags = 0`, the end of `reset_lcore`. -/
  | zeroing (l : LcoreId)
  /-- At `flags &= ~SLAVE_RECREATE_FLAG`. -/
  | masking (l : LcoreId)
  /-- At `rte_spinlock_unlock`. -/
  | unlocking
deriving DecidableEq

/-- Who can hold `mutex_lock`. -/
inductive Party where
  | main
  | lcore (l : LcoreId)
deriving DecidableEq

/-- The threads of the master process, and what they share with the slaves. -/
structure Threads where
  system : System
  callback : LcoreId → CallbackPc
  main : MainPc
  mutexLock : Option Party

/-- The steps of `main_loop` outside the lock. -/
def Action.polls : Action → Bool
  | .poll _ | .answer _ => true
  | _ => false

/-- The next statement of the callback of `l`, or of the master in its scan, or a step of a
slave process, of `lcore_func` up to the fork, or of the master while it polls. `launches` says
whether `rte_eal_remote_launch` returns 0. -/
inductive Statement where
  | action (a : Action)
  | callback (l : LcoreId)
  | main (launches : Bool)
deriving DecidableEq

namespace Threads

def initial (eal : Eal) (enabled : LcoreId → ℤ) (pool : List BufPtr)
    (content : BufPtr → BridgeMsg) : Threads where
  system := .initial eal enabled pool content
  callback _ := .outside
  main := .polling
  mutexLock := none

def setCallback (s : Threads) (l : LcoreId) (pc : CallbackPc) : Threads :=
  { s with callback := Function.update s.callback l pc }

/-- The thread of the lcore has returned from `lcore_func`, or has not been launched. -/
def Finished (s : Threads) (l : LcoreId) : Prop :=
  s.callback l = .outside ∧ (s.system.phase l = .reaped ∨ s.system.phase l = .stopped)

instance (s : Threads) (l : LcoreId) : Decidable (s.Finished l) := by
  unfold Finished
  infer_instance

/-- The thread of `l`, from the return of `waitpid` to the end of `lcore_func`. -/
def callbackStep (s : Threads) (l : LcoreId) : Option Threads :=
  let res := s.system.lcoreResource l
  match s.callback l with
  | .outside =>
      if s.system.phase l = .dead then some (s.setCallback l (.entered res.configId)) else none
  | .entered c =>
      if res.enabled = 0 then
        some { s.setCallback l .returning with system := s.system.setPhase l .reaped }
      else
        some (s.setCallback l (.locking c))
  | .locking c =>
      if s.mutexLock = none then
        some { s.setCallback l (.unusing c) with mutexLock := some (.lcore l) }
      else
        none
  | .unusing c => some { s.setCallback l .testing with system := s.system.setUsed c 0 }
  | .testing =>
      if res.flags &&& slaveDontRecreateFlag = 0 then
        some (s.setCallback l .flagging)
      else
        some (s.setCallback l .unlocking)
  | .flagging =>
      some { s.setCallback l .unlocking with system := s.system.setFlags l slaveRecreateFlag }
  | .unlocking =>
      some { s.setCallback l .returning with
        system := s.system.setPhase l .reaped
        mutexLock := none }
  | .returning => some (s.setCallback l .outside)

/-- The scan of `main_loop`, with `reset_lcore` and what it calls. -/
def mainStep (eal : Eal) (s : Threads) (launches : Bool) : Option Threads :=
  match s.main with
  | .polling =>
      if s.mutexLock = none ∧ s.system.pending = none then
        some { s with main := .scanning 0, mutexLock := some .main }
      else
        none
  | .scanning i =>
      if inside : i < rteMaxLcore then
        if s.system.mustRecreate ⟨i, inside⟩ then
          some { s with main := .resetting ⟨i, inside⟩ }
        else
          some { s with main := .scanning (i + 1) }
      else
        some { s with main := .unlocking }
  | .resetting l =>
      match floatProc, s.system.mappingId l with
      | true, some mapId => some { s with main := .freeing l mapId }
      | _, _ => some { s with main := .testing l }
  | .freeing l mapId =>
      some { s with system := s.system.flibFreeLcoreId eal mapId, main := .clearing l mapId }
  | .clearing l mapId =>
      some { s with
        system := { s.system with mappingId := Function.update s.system.mappingId mapId none }
        main := .unusing l mapId }
  | .unusing l mapId => some { s with system := s.system.setUsed mapId 0, main := .testing l }
  | .testing l =>
      if (s.system.lcoreResource l).enabled = 1 then
        some { s with main := .creating l }
      else
        some { s with main := .zeroing l }
  | .creating l =>
      if (s.system.lcoreResource l).enabled = 0 then
        some { s with main := .scanning (l + 1) }
      else
        some { s with system := s.system.createMsRing l, main := .draining l true }
  | .draining l isMaster =>
      match getCmd s.system.table s.system.mem l isMaster with
      | (.ok _, mem) => some { s with system := { s.system with mem } }
      | (.error _, mem) =>
          let s := { s with system := { s.system with mem } }
          if isMaster then
            some { s with main := .draining l false }
          else if eal.lcoreIsEnabled l then
            some { s with main := .waiting l }
          else
            -- `flib_remote_launch` has failed, and so has `reset_lcore`.
            some { s with main := .scanning (l + 1) }
  | .waiting l => if s.Finished l then some { s with main := .launching l } else none
  | .launching l =>
      if launches then
        some { s with system := s.system.setPhase l .launched, main := .zeroing l }
      else
        some { s with main := .scanning (l + 1) }
  | .zeroing l => some { s with system := s.system.setFlags l 0, main := .masking l }
  | .masking l =>
      let flags := (s.system.lcoreResource l).flags
      some { s with
        system := s.system.setFlags l (flags &&& ~~~slaveRecreateFlag)
        main := .scanning (l + 1) }
  | .unlocking => some { s with main := .polling, mutexLock := none }

/-- One step. `none`: it is not possible in this state. -/
def step (eal : Eal) (s : Threads) : Statement → Option Threads
  | .action a =>
      if a.restarts || (a.polls && s.main != .polling) then
        none
      else
        (s.system.step eal a).map fun system => { s with system }
  | .callback l => s.callbackStep l
  | .main launches => s.mainStep eal launches

variable {eal : Eal} {s : Threads} {l : LcoreId}

/-- What a step of a slave, or of the master while it polls, is. -/
theorem step_action {t : Threads} {a : Action} (taken : s.step eal (.action a) = some t) :
    a.restarts = false ∧ ∃ system, s.system.step eal a = some system ∧ t = { s with system } := by
  simp only [step] at taken
  split at taken
  · exact absurd taken (by simp)
  · rename_i possible
    obtain ⟨system, step, rfl⟩ := Option.map_eq_some_iff.mp taken
    refine ⟨?_, system, step, rfl⟩
    cases restarts : a.restarts with
    | false => rfl
    | true => exact absurd (by simp [restarts]) possible

/-! ## Statements without interruption -/

/-- **Without interruption, the statements of the callback do what the step `exitCb` does.** -/
theorem callback_uninterrupted (outside : s.callback l = .outside) (free : s.mutexLock = none)
    (dead : s.system.phase l = .dead) :
    Run (step eal) (fun _ a => a = .callback l) s
      { s with system := (s.system.slaveExitCb l).setPhase l .reaped } := by
  have sameCallback : Function.update s.callback l .outside = s.callback := by
    rw [← outside, Function.update_eq_self]
  have concludes (n : ℕ) (executed : exec (step eal) s (List.replicate n (.callback l)) =
      some { s with system := (s.system.slaveExitCb l).setPhase l .reaped }) :
      Run (step eal) (fun _ a => a = .callback l) s
        { s with system := (s.system.slaveExitCb l).setPhase l .reaped } :=
    .of_exec (by simp) executed
  by_cases unregistered : (s.system.lcoreResource l).enabled = 0
  · refine concludes 3 ?_
    simp [exec, step, callbackStep, setCallback, outside, dead, unregistered, sameCallback,
      System.slaveExitCb]
  by_cases allowed : (s.system.lcoreResource l).flags &&& slaveDontRecreateFlag = 0#32
  · refine concludes 8 ?_
    simp [exec, step, callbackStep, setCallback, outside, dead, unregistered, sameCallback,
      System.slaveExitCb, allowed, free, System.setUsed]
  · refine concludes 7 ?_
    simp [exec, step, callbackStep, setCallback, outside, dead, unregistered, sameCallback,
      System.slaveExitCb, allowed, free, System.setUsed]

/-- Where the master goes on when the drain of a ring has ended. -/
def afterDrain (eal : Eal) (l : LcoreId) (isMaster : Bool) : MainPc :=
  if isMaster then .draining l false
  else if eal.lcoreIsEnabled l then .waiting l else .scanning (l + 1)

theorem drain_takes (s : Threads) {isMaster : Bool} {msg : BridgeMsg} {mem : IpcMem}
    (draining : s.main = .draining l isMaster)
    (got : getCmd s.system.table s.system.mem l isMaster = (.ok msg, mem)) :
    s.step eal (.main true) = some { s with system := { s.system with mem } } := by
  simp only [step, mainStep, draining, got]

theorem drain_ends (s : Threads) {isMaster : Bool} {e : ℤ} {mem : IpcMem}
    (draining : s.main = .draining l isMaster)
    (got : getCmd s.system.table s.system.mem l isMaster = (.error e, mem)) :
    s.step eal (.main true) =
      some { s with system := { s.system with mem }, main := afterDrain eal l isMaster } := by
  simp only [step, mainStep, draining, got, afterDrain]
  split
  · rfl
  · split <;> rfl

/-- The drain of a ring, statement by statement. By induction on the length of the ring. -/
theorem drain_uninterrupted (s : Threads) {isMaster : Bool}
    (draining : s.main = .draining l isMaster) (isEnabled : s.system.table.enabled l = true)
    (created : s.system.table.created (getRing l isMaster) = true) {n : ℕ}
    (length : (s.system.mem.ring (getRing l isMaster)).length = n) :
    Run (step eal) (fun _ a => a = .main true) s
      { s with
        system :=
          { s.system with mem := System.drain s.system.table l isMaster n s.system.mem }
        main := afterDrain eal l isMaster } := by
  induction n generalizing s with
  | zero =>
      obtain ⟨msg, rest, mem, -, first, -⟩ | ⟨e, got⟩ :=
        getCmd_spec s.system.table s.system.mem l isMaster
      · have empty : s.system.mem.queue (getRing l isMaster) = [] := by
          rw [IpcMem.queue, List.length_eq_zero_iff.mp length, List.map_nil]
        exact absurd (empty.symm.trans first) (by simp)
      · exact Run.refl.tail rfl (drain_ends s draining got)
  | succ n inductionHypothesis =>
      have queueLength : (s.system.mem.queue (getRing l isMaster)).length = n + 1 := by
        rw [IpcMem.queue, List.length_map, length]
      obtain ⟨msg, rest, mem, got, first, -, queue⟩ | ⟨e, got⟩ :=
        getCmd_spec s.system.table s.system.mem l isMaster
      · have shorter : (mem.ring (getRing l isMaster)).length = n := by
          have taken : (mem.queue (getRing l isMaster)).length = n := by
            rw [first, List.length_cons] at queueLength
            rw [queue, Function.update_self]
            omega
          rwa [IpcMem.queue, List.length_map] at taken
        have one : Run (step eal) (fun _ a => a = .main true) s _ :=
          Run.refl.tail rfl (drain_takes s draining got)
        refine one.trans ?_
        rw [System.drain, got]
        exact inductionHypothesis _ draining isEnabled created shorter
      · rw [queue_eq_nil_of_getCmd isEnabled created got] at queueLength
        exact absurd queueLength (by simp)

/-- `reset_lcore` up to the test of `enabled`. -/
theorem returnMappingId_uninterrupted (scanning : s.main = .scanning l)
    (must : s.system.mustRecreate l = true) :
    Run (step eal) (fun _ a => a = .main true) s
      { s with system := s.system.returnMappingId eal l, main := .testing l } := by
  have inside : l.val < rteMaxLcore := l.isLt
  unfold System.returnMappingId
  cases mapping : s.system.mappingId l with
  | none =>
      have executed : exec (step eal) s (List.replicate 2 (.main true)) =
          some { s with main := .testing l } := by
        simp [exec, step, mainStep, scanning, inside, must, floatProc, mapping]
      exact .of_exec (by simp) executed
  | some mapId =>
      have executed : exec (step eal) s (List.replicate 5 (.main true)) =
          some { s with
            system :=
              ({ s.system.flibFreeLcoreId eal mapId with
                mappingId := Function.update (s.system.flibFreeLcoreId eal mapId).mappingId
                  mapId none } : System).setUsed mapId 0
            main := .testing l } := by
        simp [exec, step, mainStep, scanning, inside, must, floatProc, mapping]
      exact .of_exec (by simp) executed

/-- `init_slave_res`. -/
theorem initSlaveRes_uninterrupted (s : Threads) (testing : s.main = .testing l)
    (registered : (s.system.lcoreResource l).enabled = 1) :
    Run (step eal) (fun _ a => a = .main true) s
      { s with system := (s.system.initSlaveRes l).2, main := afterDrain eal l false } := by
  have executed : exec (step eal) s (List.replicate 2 (.main true)) =
      some { s with system := s.system.createMsRing l, main := .draining l true } := by
    simp [exec, step, mainStep, testing, registered]
  have isEnabled : (s.system.createMsRing l).table.enabled l = true := by
    simp [System.table, System.createMsRing, registered]
  have created (isMaster : Bool) :
      (s.system.createMsRing l).table.created (getRing l isMaster) = true := by
    simp [System.table, System.createMsRing, getRing]
  have front : Run (step eal) (fun _ a => a = .main true) s _ := .of_exec (by simp) executed
  refine (front.trans (drain_uninterrupted _ rfl isEnabled (created true) rfl)).trans ?_
  refine (drain_uninterrupted _ rfl isEnabled (created false) rfl).trans ?_
  have registered' : (s.system.lcoreResource l).enabled ≠ 0 := by simp [registered]
  rw [System.initSlaveRes, if_neg registered']
  exact .refl

/-- **Without interruption, the statements of the master do what the step `recreate` does.** -/
theorem recreate_uninterrupted (scanning : s.main = .scanning l)
    (must : s.system.mustRecreate l = true) (outside : s.callback l = .outside)
    (reaped : s.system.phase l = .reaped) :
    Run (step eal) (fun _ a => a = .main true) s
      { s with system := s.system.recreate eal l, main := .scanning (l + 1) } := by
  obtain ⟨samePhase, sameRecords⟩ :
      (s.system.returnMappingId eal l).phase = s.system.phase ∧
      (s.system.returnMappingId eal l).lcoreResource = s.system.lcoreResource := by
    obtain ⟨procConfig, mappingId, lcoreCfg, written⟩ := returnMappingId_writes eal s.system l
    rw [written]
    exact ⟨rfl, rfl⟩
  have registered : ((s.system.returnMappingId eal l).lcoreResource l).enabled = 1 := by
    simp only [System.mustRecreate, Bool.and_eq_true, beq_iff_eq] at must
    rw [sameRecords]
    exact must.1
  refine (returnMappingId_uninterrupted scanning must).trans ?_
  refine (initSlaveRes_uninterrupted _ rfl registered).trans ?_
  unfold System.recreate System.resetLcore System.recreateOneSlave System.flibRemoteLaunch
  simp only [floatProc, if_true, registered]
  have initialized : ((s.system.returnMappingId eal l).initSlaveRes l).1 = 0 := by
    simp [System.initSlaveRes, registered]
  have reaped' : ((s.system.returnMappingId eal l).initSlaveRes l).2.phase l = .reaped := by
    simp [System.initSlaveRes, registered, System.createMsRing, samePhase, reaped]
  generalize (s.system.returnMappingId eal l).initSlaveRes l = r at initialized reaped'
  obtain ⟨ret, u⟩ := r
  obtain rfl : ret = 0 := initialized
  by_cases launches : eal.lcoreIsEnabled l = true
  · have executed : exec (step eal)
        { s with system := u, main := .waiting l } (List.replicate 4 (.main true)) =
        some { s with
          system := ((u.setPhase l .launched).setFlags l 0).setFlags l
            ((((u.setPhase l .launched).setFlags l 0).lcoreResource l).flags &&&
              ~~~slaveRecreateFlag)
          main := .scanning (l + 1) } := by
      have reaped'' : u.phase l = .reaped := reaped'
      simp [exec, step, mainStep, Finished, outside, reaped'']
    have onward : Run (step eal) (fun _ a => a = .main true)
      { s with system := u, main := .waiting l } _ := .of_exec (by simp) executed
    simpa [afterDrain, launches] using onward
  · simp only [afterDrain, launches, Bool.false_eq_true, if_false]
    exact .refl

end Threads

end DdosFiltering.Control
