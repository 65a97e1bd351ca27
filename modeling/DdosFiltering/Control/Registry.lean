import DdosFiltering.Control.Agreement

/-!
# The records of the lcores

What the steps of the system do to `lcore_resource`. Only the exit callback and the
recreation write anything but `config_id` there (`step_record`), and they keep `enabled` and
the rings (`Registered.step`): in every run the registered lcores are the slave lcores of the
EAL, each has its rings, its `flags` are 0 or `SLAVE_RECREATE_FLAG`, and the master takes
requests from them only.
-/

set_option autoImplicit false

namespace DdosFiltering.Control

open Foundation

variable {eal : Eal} {s t : System} {a : Action} {l : LcoreId}

/-- The steps that belong to the end of a slave process and to the launch of the next one. -/
def Action.restarts : Action → Bool
  | .exitCb _ | .recreate _ => true
  | _ => false

/-- `main_set_lcore_cfg` writes nothing but `config_id` in a record. -/
theorem mainSetLcoreCfg_record (s : System) (l : LcoreId) (k : ℕ) (l' : LcoreId) :
    ∃ c, (s.mainSetLcoreCfg l k).2.lcoreResource l' =
      { s.lcoreResource l' with configId := c } := by
  unfold System.mainSetLcoreCfg
  split
  · exact ⟨_, rfl⟩
  · rename_i procId found
    dsimp only
    split
    · exact ⟨_, rfl⟩
    · by_cases here : l' = l
      · subst here
        exact ⟨procId, Function.update_self ..⟩
      · exact ⟨_, Function.update_of_ne here _ _⟩

/-- **A step that restarts nothing keeps every record, but for a `config_id`.** -/
theorem step_record (other : a.restarts = false) (taken : s.step eal a = some t) (l : LcoreId) :
    ∃ c, t.lcoreResource l = { s.lcoreResource l with configId := c } := by
  cases happens_of_step taken with
  | exitCb | recreate => exact absurd other (by simp [Action.restarts])
  | @answer l' k pending => exact mainSetLcoreCfg_record s l' k l
  | poll l' =>
      obtain ⟨mem, pending, written⟩ := masterPoll_writes s l'
      exact ⟨_, by rw [written]⟩
  | @receive l' f =>
      obtain ⟨mem, phase, written⟩ := slaveReceive_writes s l' f
      exact ⟨_, by rw [written]⟩
  | @echo l' f conf k =>
      obtain ⟨mem, phase, written⟩ := slaveEcho_writes s l' f conf k
      exact ⟨_, by rw [written]⟩
  | @free l' f =>
      obtain ⟨lcoreCfg, -, written⟩ := flibFreeLcoreId_writes eal s f
      exact ⟨_, by rw [written]; rfl⟩
  | fork | forkFails | scanOn | scanFinds | scanFails | claim | claimFails | map | request | leave
  | unmap | exit | crash | crashAllocated | crashDequeued =>
      exact ⟨_, rfl⟩

/-! ## Phases and floating lcore ids -/

namespace Phase

/-- The thread of the lcore has no process, and will not fork one. -/
def ended : Phase → Bool
  | .stopped | .dead | .reaped => true
  | _ => false

/-- The floating lcore id that a process holds: from the `cmpset` of `flib_assign_lcore_id` to
its own `flib_free_lcore_id`. -/
def floating? : Phase → Option LcoreId
  | .assigned f | .mapped f | .waiting f | .running f _ | .leaving f _ => some f
  | _ => none

theorem ended_eq_false_of_alive {p : Phase} (alive : p.alive = true) : p.ended = false := by
  cases p <;> first | rfl | exact absurd alive (by simp [Phase.alive])

end Phase

/-- What a step that restarts nothing makes of the phase of `l` and of `lcore_cfg`. -/
inductive Moves (eal : Eal) (s : System) (l : LcoreId) : Phase → (LcoreId → Bool) → Prop where
  | stays : Moves eal s l (s.phase l) s.lcoreCfg
  | proceeds {p : Phase} (lasting : (s.phase l).ended = false) (running : p ≠ .reaped)
      (floating : p.floating? = none ∨ p.floating? = (s.phase l).floating?) :
      Moves eal s l p s.lcoreCfg
  | claims {f : LcoreId} (claiming : s.phase l = .claiming f) (free : s.lcoreCfg f = false) :
      Moves eal s l (.assigned f) (Function.update s.lcoreCfg f true)
  | frees {f : LcoreId} {conf : UInt8} (leaving : s.phase l = .leaving f conf) :
      Moves eal s l (.freed conf) (s.flibFreeLcoreId eal f).lcoreCfg

theorem slaveReceive_moves (s : System) {l f : LcoreId} (waiting : s.phase l = .waiting f) :
    (∀ l', l' ≠ l → (s.slaveReceive l f).phase l' = s.phase l') ∧
      Moves eal s l ((s.slaveReceive l f).phase l) (s.slaveReceive l f).lcoreCfg := by
  unfold System.slaveReceive
  split
  · dsimp only
    split
    · refine ⟨fun l' other => Function.update_of_ne other _ _, ?_⟩
      simp only [System.setPhase, Function.update_self]
      exact .proceeds (by rw [waiting]; rfl) (by simp) (.inr (by rw [waiting]; rfl))
    · exact ⟨fun _ _ => rfl, .stays⟩
  · exact ⟨fun _ _ => rfl, .stays⟩

theorem slaveEcho_moves (s : System) {l f : LcoreId} {conf : UInt8} (k : ℕ)
    (running : s.phase l = .running f conf) :
    (∀ l', l' ≠ l → (s.slaveEcho l f conf k).phase l' = s.phase l') ∧
      Moves eal s l ((s.slaveEcho l f conf k).phase l) (s.slaveEcho l f conf k).lcoreCfg := by
  unfold System.slaveEcho
  split
  · dsimp only
    split
    · refine ⟨fun l' other => Function.update_of_ne other _ _, ?_⟩
      simp only [System.setPhase, Function.update_self]
      exact .proceeds (by rw [running]; rfl) (by simp) (.inr (by rw [running]; rfl))
    · exact ⟨fun _ _ => rfl, .stays⟩
  · exact ⟨fun _ _ => rfl, .stays⟩

/-- A step that sets the phase of `l`, and leaves `lcore_cfg` alone. -/
theorem moves_setPhase {p : Phase} (phase : t.phase = Function.update s.phase l p)
    (lcoreCfg : t.lcoreCfg = s.lcoreCfg) (lasting : (s.phase l).ended = false)
    (running : p ≠ .reaped)
    (floating : p.floating? = none ∨ p.floating? = (s.phase l).floating?) :
    ∃ l, (∀ l', l' ≠ l → t.phase l' = s.phase l') ∧ Moves eal s l (t.phase l) t.lcoreCfg := by
  refine ⟨l, fun l' other => by rw [phase, Function.update_of_ne other], ?_⟩
  rw [phase, Function.update_self, lcoreCfg]
  exact .proceeds lasting running floating

/-- **A step that restarts nothing moves the phase of one lcore.** -/
theorem step_moves (other : a.restarts = false) (taken : s.step eal a = some t) :
    ∃ l, (∀ l', l' ≠ l → t.phase l' = s.phase l') ∧ Moves eal s l (t.phase l) t.lcoreCfg := by
  cases happens_of_step taken with
  | exitCb | recreate => exact absurd other (by simp [Action.restarts])
  | fork launched | forkFails launched =>
      exact moves_setPhase rfl rfl (by rw [launched]; rfl) (by simp) (.inl rfl)
  | scanOn scanning | scanFinds scanning | scanFails scanning =>
      exact moves_setPhase rfl rfl (by rw [scanning]; rfl) (by simp) (.inl rfl)
  | @claim l f claiming free =>
      refine ⟨l, fun l' other => Function.update_of_ne other _ _, ?_⟩
      simp only [System.setPhase, Function.update_self]
      exact .claims claiming free
  | claimFails claiming =>
      exact moves_setPhase rfl rfl (by rw [claiming]; rfl) (by simp) (.inl rfl)
  | map before | request _ before | leave before =>
      exact moves_setPhase rfl rfl (by rw [before]; rfl) (by simp) (.inr (by rw [before]; rfl))
  | @receive l f waiting => exact ⟨l, slaveReceive_moves s waiting⟩
  | @echo l f conf k running => exact ⟨l, slaveEcho_moves s k running⟩
  | @free l f conf leaving =>
      obtain ⟨lcoreCfg, -, written⟩ := flibFreeLcoreId_writes eal s f
      refine ⟨l, fun l' other => ?_, ?_⟩
      · rw [written]
        exact Function.update_of_ne other _ _
      · simp only [System.setPhase, Function.update_self]
        exact .frees leaving
  | unmap before | exit before =>
      exact moves_setPhase rfl rfl (by rw [before]; rfl) (by simp) (.inl rfl)
  | crash alive | crashAllocated alive | crashDequeued alive =>
      exact moves_setPhase rfl rfl (Phase.ended_eq_false_of_alive alive) (by simp) (.inl rfl)
  | poll l =>
      obtain ⟨mem, pending, written⟩ := masterPoll_writes s l
      rw [written]
      exact ⟨l, fun _ _ => rfl, .stays⟩
  | @answer l k pending =>
      obtain ⟨procConfig, usedNb, lcoreResource, mem, written⟩ := mainSetLcoreCfg_writes s l k
      rw [written]
      exact ⟨l, fun _ _ => rfl, .stays⟩

/-- Such a step leaves a thread alone whose process has exited, and brings none to its end. -/
theorem step_phase (other : a.restarts = false) (taken : s.step eal a = some t) (l : LcoreId) :
    t.phase l = s.phase l ∨ (s.phase l).ended = false ∧ t.phase l ≠ .reaped := by
  obtain ⟨l', others, moves⟩ := step_moves other taken
  by_cases here : l = l'
  · subst here
    generalize t.phase l = p, t.lcoreCfg = lcoreCfg at moves ⊢
    cases moves with
    | stays => exact .inl rfl
    | proceeds lasting running => exact .inr ⟨lasting, running⟩
    | claims claiming => exact .inr ⟨by rw [claiming]; rfl, by simp⟩
    | frees leaving => exact .inr ⟨by rw [leaving]; rfl, by simp⟩
  · exact .inl (others l here)

/-! ## The exit callback and the recreation -/

/-- `slave_exit_cb` writes nothing but the flags of its lcore. -/
theorem slaveExitCb_record (s : System) (l l' : LcoreId) :
    (s.slaveExitCb l).lcoreResource l' = s.lcoreResource l' ∨
      (s.slaveExitCb l).lcoreResource l' =
        { s.lcoreResource l' with flags := slaveRecreateFlag } := by
  unfold System.slaveExitCb
  dsimp only
  split
  · exact .inl rfl
  · split
    · by_cases here : l' = l
      · subst here
        exact .inr (Function.update_self ..)
      · exact .inl (Function.update_of_ne here _ _)
    · exact .inl rfl

/-- A recreation creates the rings of its lcore, and clears its flags when the launch does
not fail. -/
theorem recreate_record (eal : Eal) (s : System) {l : LcoreId}
    (enabled : (s.lcoreResource l).enabled = 1) :
    ∃ flags, (flags = (s.lcoreResource l).flags ∨ flags = 0) ∧
      (s.recreate eal l).lcoreResource =
        Function.update s.lcoreResource l
          { s.lcoreResource l with ring := fun _ => true, flags } := by
  have sameRecords : (s.returnMappingId eal l).lcoreResource = s.lcoreResource := by
    obtain ⟨procConfig, mappingId, lcoreCfg, written⟩ := returnMappingId_writes eal s l
    rw [written]
  have enabled' : ((s.returnMappingId eal l).lcoreResource l).enabled = 1 := by
    rw [sameRecords, enabled]
  unfold System.recreate System.resetLcore System.recreateOneSlave System.initSlaveRes
    System.flibRemoteLaunch
  simp only [floatProc, if_true]
  generalize s.returnMappingId eal l = u at enabled' sameRecords
  simp only [enabled', if_true, show ¬((1 : ℤ) = 0) by decide, if_false]
  by_cases launches : eal.lcoreIsEnabled l = true
  · refine ⟨0, .inr rfl, ?_⟩
    simp [launches, System.setFlags, System.setPhase, System.createMsRing, sameRecords]
  · refine ⟨(s.lcoreResource l).flags, .inl rfl, ?_⟩
    simp [launches, System.createMsRing, sameRecords]

/-! ## The registered lcores -/

/-- The lcores that are registered are the slave lcores of the EAL, and no other lcore has a
slave. -/
structure Registered (eal : Eal) (s : System) : Prop where
  enabled : ∀ l, (s.lcoreResource l).enabled = if eal.isSlave l then 1 else 0
  ring : ∀ l fd, (s.lcoreResource l).ring fd = eal.isSlave l
  flags : ∀ l, (s.lcoreResource l).flags = 0 ∨ (s.lcoreResource l).flags = slaveRecreateFlag
  present : ∀ l, s.phase l ≠ .stopped → eal.isSlave l = true

theorem Registered.isSlave (registered : Registered eal s)
    (enabled : (s.lcoreResource l).enabled ≠ 0) : eal.isSlave l = true := by
  by_contra other
  exact enabled (by rw [registered.enabled l, if_neg other])

theorem Registered.initial (eal : Eal) (enabled : LcoreId → ℤ) (pool : List BufPtr)
    (content : BufPtr → BridgeMsg) : Registered eal (System.initial eal enabled pool content) where
  enabled _ := rfl
  ring _ _ := rfl
  flags _ := .inl rfl
  present l present := by
    cases slave : eal.isSlave l with
    | true => rfl
    | false => exact absurd (by simp [System.initial, slave]) present

/-- **Every step keeps the registered lcores.** -/
theorem Registered.step (registered : Registered eal s) (exclusive : s.mem.Exclusive)
    (taken : s.step eal a = some t) : Registered eal t := by
  obtain ⟨here, changed⟩ := step_changed exclusive taken
  have present (l : LcoreId) (present : t.phase l ≠ .stopped) : eal.isSlave l = true := by
    by_cases same : l = here
    · subst same
      exact registered.present l (changed.change.present present)
    · have phase : t.phase l = s.phase l := congrArg View.phase (changed.others l same)
      exact registered.present l (phase ▸ present)
  -- What a step makes of a record: it may write `config_id`, or what follows says of the flags.
  have concludes (records : ∀ l, ∃ c flags, (flags = 0 ∨ flags = slaveRecreateFlag) ∧
      t.lcoreResource l =
        { s.lcoreResource l with configId := c, flags, ring := fun _ => eal.isSlave l }) :
      Registered eal t := by
    refine ⟨fun l => ?_, fun l fd => ?_, fun l => ?_, present⟩ <;>
      obtain ⟨c, flags, allowed, record⟩ := records l <;> rw [record]
    · exact registered.enabled l
    · exact allowed
  have ring (l : LcoreId) : (fun _ => eal.isSlave l) = (s.lcoreResource l).ring :=
    funext fun fd => (registered.ring l fd).symm
  cases restarts : a.restarts with
  | false =>
      apply concludes
      intro l
      obtain ⟨c, record⟩ := step_record restarts taken l
      exact ⟨c, _, registered.flags l, by rw [ring]; exact record⟩
  | true =>
      cases happens_of_step taken with
      | @exitCb l =>
          apply concludes
          intro l'
          rw [ring]
          rcases slaveExitCb_record s l l' with same | flagged
          · exact ⟨_, _, registered.flags l', same⟩
          · exact ⟨_, _, .inr rfl, flagged⟩
      | @recreate l idle must =>
          have enabled : (s.lcoreResource l).enabled = 1 := by
            simp only [System.mustRecreate, Bool.and_eq_true, beq_iff_eq] at must
            exact must.1
          have slave : eal.isSlave l = true := registered.isSlave (by rw [enabled]; decide)
          obtain ⟨flags, allowed, records⟩ := recreate_record eal s enabled
          apply concludes
          intro l'
          rw [records]
          by_cases here : l' = l
          · subst here
            rw [Function.update_self, slave]
            refine ⟨_, flags, ?_, rfl⟩
            rcases allowed with same | cleared
            · exact same ▸ registered.flags l'
            · exact .inl cleared
          · rw [Function.update_of_ne here, ring]
            exact ⟨_, _, registered.flags l', rfl⟩
      | _ => exact absurd restarts (by simp [Action.restarts])

/-- What holds in every state that the master and its slaves reach. -/
structure Reached (eal : Eal) (enabled : LcoreId → ℤ) (s : System) : Prop where
  sound : Sound enabled s
  registered : Registered eal s

theorem Reached.step {enabled : LcoreId → ℤ} (reached : Reached eal enabled s)
    (taken : s.step eal a = some t) : Reached eal enabled t :=
  ⟨reached.sound.step taken, reached.registered.step reached.sound.exclusive taken⟩

theorem Reached.of_run (eal : Eal) (enabled : LcoreId → ℤ) {pool : List BufPtr}
    (distinct : pool.Nodup) (content : BufPtr → BridgeMsg) {guard : System → Action → Prop}
    (run : Run (System.step eal) guard (System.initial eal enabled pool content) s) :
    Reached eal enabled s := by
  refine run.invariant (Reached eal enabled)
    ⟨.initial eal enabled distinct content, .initial eal enabled pool content⟩ ?_
  intro t u a reached _ taken
  exact reached.step taken

/-- The master has a request only of a slave lcore. -/
theorem Reached.slave_of_pending {enabled : LcoreId → ℤ} (reached : Reached eal enabled s)
    (pending : s.pending = some l) : eal.isSlave l = true := by
  have asks : (s.phase l).asks = true :=
    (reached.sound.agreed l).asks_of_pending (System.view_pending pending)
  apply reached.registered.present l
  intro stopped
  rw [stopped] at asks
  exact absurd asks (by simp [Phase.asks])

end DdosFiltering.Control
