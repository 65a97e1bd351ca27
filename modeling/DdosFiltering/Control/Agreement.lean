import DdosFiltering.Control.Dialogue

/-!
# Master and slave agree on the configuration

`Agreed` is the invariant of the dialogue with one slave: at most one message is under way
(`Talk`), none is when the slave has not asked or has been answered, and a slave that has a
configuration runs with the one in the master's `config_id`. Every change of a view keeps it
(`Agreed.change`), whatever crashes, is answered late or is recreated in between.
-/

set_option autoImplicit false

namespace DdosFiltering.Control

open Foundation

/-- Nothing is under way between the master and the slave. -/
structure View.Quiet (v : View) : Prop where
  toSlave : v.toSlave = []
  toMaster : v.toMaster = []
  pending : v.pending = false

/-- At most one message is under way: the request, in its ring or taken by the master, or the
reply with the configuration of the slave. -/
inductive Talk (enabled : LcoreId → ℤ) (v : View) : Prop where
  | quiet (quiet : v.Quiet)
  | requested (toSlave : v.toSlave = []) (toMaster : v.toMaster = [System.request])
      (pending : v.pending = false)
  | taken (toSlave : v.toSlave = []) (toMaster : v.toMaster = []) (pending : v.pending = true)
  | replied (toSlave : v.toSlave = [System.reply v.configId]) (toMaster : v.toMaster = [])
      (pending : v.pending = false) (enabled : enabled v.configId ≠ 0)

/-- A request may be under way: the slave waits for its answer, or has died. -/
def Phase.asks : Phase → Bool
  | .waiting _ | .dead | .reaped => true
  | _ => false

/-- The invariant of the dialogue with one slave. -/
structure Agreed (enabled : LcoreId → ℤ) (v : View) : Prop where
  talk : Talk enabled v
  quiet : v.phase.asks = false → v.Quiet
  serves : ∀ conf, v.phase.conf? = some conf →
    conf.toNat = v.configId.val ∧ enabled v.configId ≠ 0

theorem Phase.Proceeds.asks {p p' : Phase} (proceeds : p.Proceeds p') (asks : p'.asks = false) :
    p.asks = false := by
  cases proceeds <;> first | rfl | exact absurd asks (by decide)

theorem Phase.Proceeds.conf? {p p' : Phase} (proceeds : p.Proceeds p') {conf : UInt8}
    (serves : p'.conf? = some conf) : p.conf? = some conf := by
  cases proceeds <;> first | exact serves | exact absurd serves (by simp [Phase.conf?])

/-- The configuration id travels through the text of the reply. -/
theorem confId_decimal (c : LcoreId) : (confId (decimal c)).toNat = c.val := by
  have small : c.val < 128 := c.isLt
  rw [confId, atoi_decimal]
  have residue : ((c.val : ℤ) % 256).toNat = c.val := by omega
  rw [residue, UInt8.toNat_ofNat']
  exact Nat.mod_eq_of_lt (by omega)

variable {enabled : LcoreId → ℤ} {s : System} {l : LcoreId}

/-- What is under way does not depend on the phase of the slave. -/
theorem Talk.withPhase {v : View} (talk : Talk enabled v) (p : Phase) :
    Talk enabled { v with phase := p } := by
  cases talk with
  | quiet quiet => exact .quiet ⟨quiet.toSlave, quiet.toMaster, quiet.pending⟩
  | requested toSlave toMaster pending => exact .requested toSlave toMaster pending
  | taken toSlave toMaster pending => exact .taken toSlave toMaster pending
  | replied toSlave toMaster pending enabled => exact .replied toSlave toMaster pending enabled

/-- A slave with a message to read has been answered. -/
theorem Talk.replied_of_toSlave {v : View} (talk : Talk enabled v) {msg : BridgeMsg}
    {rest : List BridgeMsg} (first : v.toSlave = msg :: rest) :
    msg = System.reply v.configId ∧ rest = [] ∧ v.toMaster = [] ∧ v.pending = false ∧
      enabled v.configId ≠ 0 := by
  cases talk with
  | quiet quiet => exact absurd (quiet.toSlave.symm.trans first) (by simp)
  | requested toSlave => exact absurd (toSlave.symm.trans first) (by simp)
  | taken toSlave => exact absurd (toSlave.symm.trans first) (by simp)
  | replied toSlave toMaster pending isEnabled =>
      obtain ⟨rfl, rfl⟩ := List.cons.inj (first.symm.trans toSlave)
      exact ⟨rfl, rfl, toMaster, pending, isEnabled⟩

/-- A slave whose ring to the master is not empty has sent its request. -/
theorem Talk.requested_of_toMaster {v : View} (talk : Talk enabled v) {msg : BridgeMsg}
    {rest : List BridgeMsg} (first : v.toMaster = msg :: rest) :
    msg = System.request ∧ rest = [] ∧ v.toSlave = [] := by
  cases talk with
  | quiet quiet => exact absurd (quiet.toMaster.symm.trans first) (by simp)
  | requested toSlave toMaster =>
      obtain ⟨rfl, rfl⟩ := List.cons.inj (first.symm.trans toMaster)
      exact ⟨rfl, rfl, toSlave⟩
  | taken _ toMaster => exact absurd (toMaster.symm.trans first) (by simp)
  | replied _ toMaster => exact absurd (toMaster.symm.trans first) (by simp)

/-- While the master has taken a request, both rings are empty. -/
theorem Talk.taken_of_pending {v : View} (talk : Talk enabled v) (pending : v.pending = true) :
    v.toSlave = [] ∧ v.toMaster = [] := by
  cases talk with
  | quiet quiet => exact absurd (quiet.pending.symm.trans pending) (by decide)
  | requested _ _ notTaken => exact absurd (notTaken.symm.trans pending) (by decide)
  | taken toSlave toMaster => exact ⟨toSlave, toMaster⟩
  | replied _ _ notTaken => exact absurd (notTaken.symm.trans pending) (by decide)

/-- The slave asks as long as its dialogue is not quiet. -/
theorem Agreed.asks_of_not_quiet {v : View} (agreed : Agreed enabled v) (busy : ¬v.Quiet) :
    v.phase.asks = true := by
  by_contra silent
  exact busy (agreed.quiet (by simpa using silent))

/-- The slave asks while the master has taken its request. -/
theorem Agreed.asks_of_pending {v : View} (agreed : Agreed enabled v) (pending : v.pending = true) :
    v.phase.asks = true := by
  apply agreed.asks_of_not_quiet
  intro quiet
  exact absurd (quiet.pending.symm.trans pending) (by decide)

/-- Nothing is under way while the slave does not ask. -/
theorem Agreed.quiet_of_phase (agreed : Agreed enabled (s.view l)) {p : Phase}
    (phase : s.phase l = p) (silent : p.asks = false) : (s.view l).Quiet := by
  apply agreed.quiet
  change (s.phase l).asks = false
  rw [phase]
  exact silent

theorem System.view_pending (pending : s.pending = some l) : (s.view l).pending = true := by
  simp [System.view, pending]

/-- A dialogue of a slave that asks is agreed when at most one message is under way. -/
theorem Agreed.of_asks {v : View} (talk : Talk enabled v) (asks : v.phase.asks = true) :
    Agreed enabled v where
  talk := talk
  quiet silent := absurd (asks.symm.trans silent) (by decide)
  serves conf serves := by
    cases phase : v.phase <;> simp [phase, Phase.asks, Phase.conf?] at asks serves

/-- **Every change of a view keeps the agreement.** -/
theorem Agreed.change {a : Action} {v : View} {used : LcoreId → ℤ}
    (agreed : Agreed enabled (s.view l)) (table : ∀ c, (s.procConfig c).enabled = enabled c)
    (change : Change s l a v used) : Agreed enabled v := by
  cases change with
  | nothing => exact agreed
  | proceeds _ allowed =>
      refine ⟨agreed.talk.withPhase _, fun silent => ?_, fun conf serves =>
        agreed.serves conf (allowed.conf? serves)⟩
      have quiet := agreed.quiet (allowed.asks silent)
      exact ⟨quiet.toSlave, quiet.toMaster, quiet.pending⟩
  | unregistered _ unknown dead => exact .of_asks (agreed.talk.withPhase _) rfl
  | requests _ mapped sent =>
      have quiet := agreed.quiet_of_phase mapped rfl
      rw [quiet.toMaster] at sent
      refine .of_asks ?_ rfl
      rcases sent with rfl | rfl
      · exact .quiet ⟨quiet.toSlave, rfl, quiet.pending⟩
      · exact .requested quiet.toSlave rfl quiet.pending
  | @receives _ f msg rest waiting first =>
      obtain ⟨rfl, rfl, toMaster, pending, isEnabled⟩ := agreed.talk.replied_of_toSlave first
      have config : (System.reply (s.view l).configId).cmd = .cfg := rfl
      rw [if_pos config]
      have quiet : View.Quiet { s.view l with
          phase := .running f (confId (System.reply (s.view l).configId).msg)
          toSlave := [] } := ⟨rfl, toMaster, pending⟩
      refine ⟨.quiet quiet, fun _ => quiet, fun conf serves => ?_⟩
      obtain rfl := Option.some.inj serves
      exact ⟨confId_decimal _, isEnabled⟩
  | echoes _ running first =>
      have quiet := agreed.quiet_of_phase running rfl
      exact absurd (quiet.toSlave.symm.trans first) (by simp)
  | loses _ alive first =>
      obtain ⟨-, rfl, toMaster, pending, -⟩ := agreed.talk.replied_of_toSlave first
      exact .of_asks (.quiet ⟨rfl, toMaster, pending⟩) rfl
  | polled _ idle first =>
      obtain ⟨rfl, rfl, toSlave⟩ := agreed.talk.requested_of_toMaster first
      have busy : ¬(s.view l).Quiet := fun quiet =>
        absurd (quiet.toMaster.symm.trans first) (by simp)
      exact .of_asks (.taken toSlave rfl rfl) (agreed.asks_of_not_quiet busy)
  | refused _ pending =>
      have isTaken := System.view_pending pending
      obtain ⟨toSlave, toMaster⟩ := agreed.talk.taken_of_pending isTaken
      exact .of_asks (.quiet ⟨toSlave, toMaster, rfl⟩) (agreed.asks_of_pending isTaken)
  | answered k pending isEnabled unused =>
      have isTaken := System.view_pending pending
      obtain ⟨toSlave, toMaster⟩ := agreed.talk.taken_of_pending isTaken
      refine .of_asks (.replied ?_ toMaster rfl ?_) (agreed.asks_of_pending isTaken)
      · simp [toSlave]
      · rwa [← table]
  | reaped dead => exact .of_asks (agreed.talk.withPhase _) rfl
  | @recreated p reaped idle launched =>
      have quiet : View.Quiet { s.view l with phase := p, toSlave := [], toMaster := [] } :=
        ⟨rfl, rfl, by simp [System.view, idle]⟩
      refine ⟨.quiet quiet, fun _ => quiet, fun conf serves => ?_⟩
      rcases launched with rfl | rfl <;> exact absurd serves (by simp [Phase.conf?])

/-! ## Runs -/

/-- The invariant of the whole system, for a configuration table. -/
structure Sound (enabled : LcoreId → ℤ) (s : System) : Prop where
  exclusive : s.mem.Exclusive
  table : ∀ c, (s.procConfig c).enabled = enabled c
  agreed : ∀ l, Agreed enabled (s.view l)

theorem Sound.initial (eal : Eal) (enabled : LcoreId → ℤ) {pool : List BufPtr}
    (distinct : pool.Nodup) (content : BufPtr → BridgeMsg) :
    Sound enabled (System.initial eal enabled pool content) where
  exclusive := by
    have noneQueued : (System.initial eal enabled pool content).mem.queued = [] :=
      List.flatMap_eq_nil_iff.mpr fun _ _ => rfl
    rw [IpcMem.Exclusive, noneQueued, List.append_nil]
    exact distinct
  table c := rfl
  agreed l := by
    have quiet : ((System.initial eal enabled pool content).view l).Quiet := ⟨rfl, rfl, rfl⟩
    refine ⟨.quiet quiet, fun _ => quiet, fun conf serves => ?_⟩
    have noConf : ((System.initial eal enabled pool content).view l).phase.conf? = none := by
      simp only [System.view, System.initial]
      split <;> rfl
    exact absurd (noConf.symm.trans serves) (by simp)

/-- A change at one lcore keeps the invariant of the system. -/
theorem Sound.changed {t : System} {a : Action} (sound : Sound enabled s)
    (changed : Changed s t a l) : Sound enabled t where
  exclusive := changed.exclusive
  table c := (changed.enabled c).trans (sound.table c)
  agreed l' := by
    by_cases here : l' = l
    · subst here
      exact (sound.agreed l').change sound.table changed.change
    · rw [changed.others l' here]
      exact sound.agreed l'

theorem Sound.step {eal : Eal} {t : System} {a : Action} (sound : Sound enabled s)
    (taken : s.step eal a = some t) : Sound enabled t := by
  obtain ⟨l, changed⟩ := step_changed sound.exclusive taken
  exact sound.changed changed

theorem Sound.run {eal : Eal} {guard : System → Action → Prop} {t : System}
    (sound : Sound enabled s) (run : Run (System.step eal) guard s t) : Sound enabled t :=
  run.invariant (Sound enabled) sound fun sound _ taken => sound.step taken

/-- **Configuration agreement, with at most one message in flight.** In every run of the
master and its slaves, for every lcore: its two rings hold at most one CFG message together;
and while its slave is in a packet loop both rings are empty, the slave's `conf_id` is
the `config_id` the master has noted, and this is an enabled entry of `proc_config`. -/
theorem slave_runs_noted_config (eal : Eal) (enabled : LcoreId → ℤ) {pool : List BufPtr}
    (distinct : pool.Nodup) (content : BufPtr → BridgeMsg) {s : System}
    (run : Run (System.step eal) anyAction (System.initial eal enabled pool content) s)
    (l : LcoreId) :
    ((s.mem.queue (l, 0) ++ s.mem.queue (l, 1)).countP fun msg => msg.cmd == .cfg) ≤ 1 ∧
      ∀ f conf, s.phase l = .running f conf →
        s.mem.queue (l, 0) = [] ∧ s.mem.queue (l, 1) = [] ∧
        conf.toNat = (s.lcoreResource l).configId.val ∧
        (s.procConfig (s.lcoreResource l).configId).enabled ≠ 0 := by
  have sound := (Sound.initial eal enabled distinct content).run run
  have agreed := sound.agreed l
  constructor
  · refine Nat.le_trans List.countP_le_length ?_
    cases agreed.talk with
    | quiet quiet =>
        have toSlave : s.mem.queue (l, 0) = [] := quiet.toSlave
        have toMaster : s.mem.queue (l, 1) = [] := quiet.toMaster
        simp [toSlave, toMaster]
    | requested toSlave toMaster =>
        change s.mem.queue (l, 0) = [] at toSlave
        change s.mem.queue (l, 1) = [System.request] at toMaster
        simp [toSlave, toMaster]
    | taken toSlave toMaster =>
        change s.mem.queue (l, 0) = [] at toSlave
        change s.mem.queue (l, 1) = [] at toMaster
        simp [toSlave, toMaster]
    | replied toSlave toMaster =>
        change s.mem.queue (l, 0) = [_] at toSlave
        change s.mem.queue (l, 1) = [] at toMaster
        simp [toSlave, toMaster]
  · intro f conf running
    have phase : (s.view l).phase = .running f conf := running
    have quiet := agreed.quiet (by rw [phase]; rfl)
    obtain ⟨noted, isEnabled⟩ := agreed.serves conf (by rw [phase]; rfl)
    exact ⟨quiet.toSlave, quiet.toMaster, noted, by rw [sound.table]; exact isEnabled⟩

/-! ## A small system -/

/-- Three lcores: the master on lcore 0, and two slaves. -/
def threeLcores : Eal := ⟨fun l => decide (l.val < 3), 0⟩

/-- The system of `threeLcores` with two enabled configurations and three message buffers. -/
def twoSlaves : System :=
  .initial threeLcores (fun c => if c.val < 2 then 1 else 0) [1, 2, 3] fun _ => ⟨.start, []⟩

/-- A slave gets its floating id, at the `scans`-th entry of `lcore_cfg` it looks at, and
sends its request. -/
def asks (l : LcoreId) (scans : ℕ) : List Action :=
  .fork l :: List.replicate scans (.scan l) ++ [.claim l, .map l, .request l 0]

/-- The master answers a slave, and the slave begins to run. -/
def isAnswered (l : LcoreId) : List Action := [.poll l, .answer 0, .receive l]

/-- The first slave has got its configuration. -/
theorem slave_runs_noted_config_firstSlave :
    ∃ s : System, s.phase 1 = .running 3 0 ∧
      ((s.mem.queue (1, 0) ++ s.mem.queue (1, 1)).countP fun msg => msg.cmd == .cfg) ≤ 1 ∧
      ∀ f conf, s.phase 1 = .running f conf →
        s.mem.queue (1, 0) = [] ∧ s.mem.queue (1, 1) = [] ∧
        conf.toNat = (s.lcoreResource 1).configId.val ∧
        (s.procConfig (s.lcoreResource 1).configId).enabled ≠ 0 := by
  obtain ⟨s, executed, phase⟩ : ∃ s, exec (System.step threeLcores) twoSlaves
      (asks 1 3 ++ isAnswered 1) = some s ∧ s.phase 1 = .running 3 0 :=
    Option.map_eq_some_iff.mp (by rfl)
  exact ⟨s, phase, slave_runs_noted_config threeLcores _ (by decide) _
    (Run.of_exec (fun _ _ _ => trivial) executed) 1⟩

end DdosFiltering.Control
