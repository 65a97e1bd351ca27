import DdosFiltering.Control.Registry

/-!
# Which slaves are recreated

A slave whose configuration names an unknown engine leaves at once: `bridge_init_engine`
returns -1, and `bridge_launch_one_lcore` writes `SLAVE_DONT_RECREATE_FLAG` into the flags
of its lcore. The slave is a forked process and the flags are an ordinary global, so the
exit callback and `main_loop`, which run in the master, never see it. After the exit of such a slave
the master can always relaunch its lcore (`relaunches`): the law that it does not holds exactly
when no slave is ever handed such a configuration (`never_relaunched_iff`).
-/

set_option autoImplicit false

namespace DdosFiltering.Control

open Foundation

/-! ## The engines of `bridge.c` -/

/-- `ENGINE_ERROR`. -/
def engineError : ℤ := -1

/-- `engine_lookup`. -/
def engineLookup : List (List Char × ℤ) :=
  [("DEFAULT".toList, 0), ("BPF".toList, 1), ("BPF_PCAP".toList, 2), ("FAST_STRSTR".toList, 3),
    ("MODULO".toList, 4), ("HASH".toList, 5)]

/-- `string2key`. -/
def string2key (key : List Char) : ℤ :=
  match engineLookup.find? fun e => e.1 == key with
  | some e => e.2
  | none => engineError

/-- What `bridge_init_engine` returns: -1 at once when it does not know the engine, and 0 when
the packet loop has ended. -/
def bridgeInitEngine (engine : List Char) : ℤ := if string2key engine = engineError then -1 else 0

/-- `bridge_init_engine` fails exactly for the names that are not in the table. -/
theorem bridgeInitEngine_eq_error {engine : List Char} :
    bridgeInitEngine engine = -1 ↔ engine ∉ engineLookup.map Prod.fst := by
  unfold bridgeInitEngine string2key
  constructor
  · intro fails member
    obtain ⟨e, listed, rfl⟩ := List.mem_map.mp member
    cases found : engineLookup.find? fun e' => e'.1 == e.1 with
    | none => exact absurd (List.find?_eq_none.mp found e listed) (by simp)
    | some e' =>
        have known : ∀ e ∈ engineLookup, e.2 ≠ engineError := by decide
        rw [found] at fails
        simp only [if_neg (known e' (List.mem_of_find?_eq_some found))] at fails
        exact absurd fails (by decide)
  · intro unlisted
    have noneFound : (engineLookup.find? fun e => e.1 == engine) = none := by
      apply List.find?_eq_none.mpr
      intro e listed
      rw [beq_iff_eq]
      exact fun same => unlisted (List.mem_map.mpr ⟨e, listed, same⟩)
    simp [noneFound]

variable {eal : Eal} {enabled : LcoreId → ℤ} {s t : System} {l : LcoreId}

/-- The configuration of a slave names an engine that is not known. `engine` is the field of
`proc_config`, which does not change after the configuration file has been read. -/
def UnknownEngine (engine : LcoreId → List Char) (conf : UInt8) : Prop :=
  ∃ c : LcoreId, c.val = conf.toNat ∧ bridgeInitEngine (engine c) = -1

/-- In some run, `main_loop` relaunches the lcore. -/
def Relaunched (eal : Eal) (s : System) (l : LcoreId) : Prop :=
  ∃ t u, Run (System.step eal) anyAction s t ∧ t.step eal (.recreate l) = some u ∧
    u.phase l = .launched

theorem Relaunched.of_run (run : Run (System.step eal) anyAction s t)
    (relaunched : Relaunched eal t l) : Relaunched eal s l := by
  obtain ⟨u, w, later, taken, launched⟩ := relaunched
  exact ⟨u, w, run.trans later, taken, launched⟩

/-- One step more in front of a relaunch. -/
theorem Relaunched.of_step {a : Action} (taken : s.step eal a = some t)
    (relaunched : Relaunched eal t l) : Relaunched eal s l :=
  relaunched.of_run (Run.refl.tail trivial taken)

/-- A recreation launches the thread of an lcore that the EAL has enabled. -/
theorem recreate_launches (s : System) {l : LcoreId} (registered : (s.lcoreResource l).enabled = 1)
    (isEnabled : eal.lcoreIsEnabled l = true) : (s.recreate eal l).phase l = .launched := by
  have registered' : ((s.returnMappingId eal l).lcoreResource l).enabled = 1 := by
    obtain ⟨procConfig, mappingId, lcoreCfg, written⟩ := returnMappingId_writes eal s l
    rw [written, registered]
  unfold System.recreate System.resetLcore System.recreateOneSlave System.initSlaveRes
    System.flibRemoteLaunch
  simp only [floatProc, if_true]
  generalize s.returnMappingId eal l = u at registered'
  simp [registered', isEnabled, System.setPhase, System.setFlags, System.createMsRing]

/-- The exit callback of a registered lcore asks for its recreation. -/
theorem slaveExitCb_flags (registered : Registered eal s) (slave : eal.isSlave l = true) :
    ((s.slaveExitCb l).lcoreResource l).flags = slaveRecreateFlag := by
  have isEnabled : (s.lcoreResource l).enabled ≠ 0 := by simp [registered.enabled l, slave]
  have notForbidden : (s.lcoreResource l).flags &&& slaveDontRecreateFlag = 0 := by
    rcases registered.flags l with flags | flags <;> rw [flags] <;> decide
  unfold System.slaveExitCb
  simp only [if_neg isEnabled, if_pos notForbidden, System.setFlags, Function.update_self]

/-- A slave that is dead can be relaunched when the master is between two requests. -/
theorem relaunches_dead (reached : Reached eal enabled s) (idle : s.pending = none)
    (dead : s.phase l = .dead) : Relaunched eal s l := by
  have slave : eal.isSlave l = true := reached.registered.present l (by simp [dead])
  have isEnabled : eal.lcoreIsEnabled l = true := by
    simp only [Eal.isSlave, Bool.and_eq_true] at slave
    exact slave.1
  have called : s.step eal (.exitCb l) = some ((s.slaveExitCb l).setPhase l .reaped) := by
    simp [System.step, dead]
  refine .of_step called ?_
  have flags : (((s.slaveExitCb l).setPhase l .reaped).lcoreResource l).flags =
      slaveRecreateFlag := slaveExitCb_flags reached.registered slave
  have after := reached.registered.step reached.sound.exclusive called
  have pending : ((s.slaveExitCb l).setPhase l .reaped).pending = none := by
    obtain ⟨procConfig, lcoreResource, written⟩ := slaveExitCb_writes s l
    rw [written]
    exact idle
  generalize hs : (s.slaveExitCb l).setPhase l .reaped = t at after flags pending
  have reaped : t.phase l = .reaped := by simp [← hs, System.setPhase]
  have registered : (t.lcoreResource l).enabled = 1 := by simp [after.enabled l, slave]
  have must : t.mustRecreate l = true := by simp [System.mustRecreate, registered, flags]
  refine ⟨t, t.recreate eal l, .refl, ?_, recreate_launches t registered isEnabled⟩
  simp [System.step, pending, must, reaped]

/-- A slave whose packet loop has returned can be relaunched. -/
theorem relaunches_leaving (reached : Reached eal enabled s) (idle : s.pending = none)
    {f : LcoreId} {conf : UInt8} (leaving : s.phase l = .leaving f conf) :
    Relaunched eal s l := by
  have freed : s.step eal (.free l) =
      some ((s.flibFreeLcoreId eal f).setPhase l (.freed conf)) := by
    simp [System.step, leaving]
  have samePending : (s.flibFreeLcoreId eal f).pending = none := by
    obtain ⟨lcoreCfg, -, written⟩ := flibFreeLcoreId_writes eal s f
    rw [written]
    exact idle
  refine .of_step freed ?_
  have reached₁ := reached.step freed
  generalize h₁ : (s.flibFreeLcoreId eal f).setPhase l (.freed conf) = s₁ at reached₁
  have phase₁ : s₁.phase l = .freed conf := by simp [← h₁, System.setPhase]
  have idle₁ : s₁.pending = none := by rw [← h₁]; exact samePending
  have unmapped : s₁.step eal (.unmap l) =
      some ({ s₁ with mappingId := Function.update s₁.mappingId l none }.setPhase l
        (.unmapped conf)) := by
    simp [System.step, phase₁]
  refine .of_step unmapped ?_
  have reached₂ := reached₁.step unmapped
  generalize h₂ : ({ s₁ with mappingId := Function.update s₁.mappingId l none }).setPhase l
    (.unmapped conf) = s₂ at reached₂
  have phase₂ : s₂.phase l = .unmapped conf := by simp [← h₂, System.setPhase]
  have idle₂ : s₂.pending = none := by rw [← h₂]; exact idle₁
  have exited : s₂.step eal (.exit l) = some (s₂.setPhase l .dead) := by
    simp [System.step, phase₂]
  refine .of_step exited ?_
  exact relaunches_dead (reached₂.step exited) idle₂ (by simp [System.setPhase])

/-- **A slave that leaves can be relaunched, whatever its reason.** The run is: the master
answers the request that it has taken, if there is one; the slave gives back its floating id and
exits; the exit callback runs; the master recreates the slave. -/
theorem relaunches (reached : Reached eal enabled s) {f : LcoreId} {conf : UInt8}
    (running : s.phase l = .running f conf) (taken : s.step eal (.leave l) = some t) :
    Relaunched eal t l := by
  have leaving : t.phase l = .leaving f conf := by
    simp only [System.step, running, Option.some.injEq] at taken
    simp [← taken, System.setPhase]
  have reachedT := reached.step taken
  cases pending : t.pending with
  | none => exact relaunches_leaving reachedT pending leaving
  | some l' =>
      have answered : t.step eal (.answer 0) =
          some { (t.mainSetLcoreCfg l' 0).2 with pending := none } := by
        simp [System.step, pending]
      have stillLeaving : (t.mainSetLcoreCfg l' 0).2.phase l = .leaving f conf := by
        obtain ⟨procConfig, usedNb, lcoreResource, mem, written⟩ := mainSetLcoreCfg_writes t l' 0
        rw [written]
        exact leaving
      exact .of_step answered (relaunches_leaving (reachedT.step answered) rfl stillLeaving)

/-- **A slave that must not be recreated is not, exactly if there is none.** In all runs of a
system, the lcore of a slave that left because `bridge_init_engine` returned -1 is never
relaunched, if and only if in no run a slave is handed a configuration that names an unknown
engine. -/
theorem never_relaunched_iff (eal : Eal) (enabled : LcoreId → ℤ) (engine : LcoreId → List Char)
    {pool : List BufPtr} (distinct : pool.Nodup) (content : BufPtr → BridgeMsg) :
    (∀ s, Run (System.step eal) anyAction (System.initial eal enabled pool content) s →
      ∀ l f conf t, s.phase l = .running f conf → UnknownEngine engine conf →
        s.step eal (.leave l) = some t → ¬Relaunched eal t l) ↔
      ∀ s, Run (System.step eal) anyAction (System.initial eal enabled pool content) s →
        ∀ l f conf, s.phase l = .running f conf → ¬UnknownEngine engine conf := by
  constructor
  · intro law s run l f conf running unknown
    have taken : s.step eal (.leave l) = some (s.setPhase l (.leaving f conf)) := by
      simp [System.step, running]
    exact law s run l f conf _ running unknown taken
      (relaunches (.of_run eal enabled distinct content run) running taken)
  · intro neverHanded s run l f conf t running unknown
    exact absurd unknown (neverHanded s run l f conf running)

/-- No slave is handed an unknown engine when every enabled configuration names a known one. -/
theorem known_of_enabled (eal : Eal) (enabled : LcoreId → ℤ) (engine : LcoreId → List Char)
    {pool : List BufPtr} (distinct : pool.Nodup) (content : BufPtr → BridgeMsg)
    (known : ∀ c, enabled c ≠ 0 → bridgeInitEngine (engine c) ≠ -1) {s : System}
    (run : Run (System.step eal) anyAction (System.initial eal enabled pool content) s)
    {l f : LcoreId} {conf : UInt8} (running : s.phase l = .running f conf) :
    ¬UnknownEngine engine conf := by
  rintro ⟨c, same, fails⟩
  have sound := (Reached.of_run eal enabled distinct content run).sound
  have serves : (s.view l).phase.conf? = some conf := by
    change (s.phase l).conf? = some conf
    rw [running]
    rfl
  obtain ⟨noted, isEnabled⟩ := (sound.agreed l).serves conf serves
  have here : c = (s.view l).configId := Fin.ext (same.trans noted)
  exact known c (here ▸ isEnabled) fails

/-! ## Known and unknown engines -/

/-- Both configurations of `twoSlaves` name a known engine. -/
theorem never_relaunched_iff_twoSlaves :
    ∃ s : System, s.phase 1 = .running 3 0 ∧ ¬UnknownEngine (fun _ => "MODULO".toList) 0 := by
  obtain ⟨s, executed, phase⟩ : ∃ s, exec (System.step threeLcores) twoSlaves
      (asks 1 3 ++ isAnswered 1) = some s ∧ s.phase 1 = .running 3 0 :=
    Option.map_eq_some_iff.mp (by rfl)
  have known : bridgeInitEngine "MODULO".toList ≠ -1 := by
    intro fails
    have unlisted := bridgeInitEngine_eq_error.mp fails
    exact absurd unlisted (by decide)
  have law := @never_relaunched_iff threeLcores (fun c => if c.val < 2 then 1 else 0)
    (fun _ => "MODULO".toList) [1, 2, 3] (by decide) fun _ => ⟨.start, []⟩
  refine ⟨s, phase, law.mp ?_ s (Run.of_exec (fun _ _ _ => trivial) executed) 1 3 0 phase⟩
  intro s' _ l f conf t _ unknown
  obtain ⟨c, -, fails⟩ := unknown
  exact absurd fails known

/-- The configurations name the engine "default", which is not known. The first slave gets
configuration 0 and leaves, and the master relaunches lcore 1. -/
theorem unknown_engine_relaunched :
    ¬∀ s, Run (System.step threeLcores) anyAction twoSlaves s →
      ∀ l f conf t, s.phase l = .running f conf →
        UnknownEngine (fun _ => "default".toList) conf →
          s.step threeLcores (.leave l) = some t → ¬Relaunched threeLcores t l := by
  intro claim
  obtain ⟨s, executed, phase⟩ : ∃ s, exec (System.step threeLcores) twoSlaves
      (asks 1 3 ++ isAnswered 1) = some s ∧ s.phase 1 = .running 3 0 :=
    Option.map_eq_some_iff.mp (by rfl)
  have run : Run (System.step threeLcores) anyAction twoSlaves s :=
    .of_exec (fun _ _ _ => trivial) executed
  have unknown : UnknownEngine (fun _ => "default".toList) 0 :=
    ⟨0, rfl, bridgeInitEngine_eq_error.mpr (by decide)⟩
  have taken : s.step threeLcores (.leave 1) = some (s.setPhase 1 (.leaving 3 0)) := by
    simp [System.step, phase]
  have reached : Reached threeLcores _ s := .of_run threeLcores _ (by decide) _ run
  exact claim s run 1 3 0 _ phase unknown taken (relaunches reached phase taken)

end DdosFiltering.Control
