import DdosFiltering.Control.Agreement

/-!
# Who has which configuration

A configuration is held by a live slave that runs with it, or that waits and has the reply
with it in its ring (`Holds`). The flag `used` of `proc_config` is meant to be set while the
configuration is held, and only then. It is set in `main_set_lcore_cfg`, and cleared in two
places, each with an index of its own: `slave_exit_cb` clears the flag of `config_id`, which
is 0 before the first answer, and `reset_lcore` clears the flag at the floating lcore id
of the slave, which is no configuration id.

* As long as no clearing hits a configuration that is held, no two slaves hold the same one
  (`Settled.changed`, `configurations_exclusive`); without this two slaves may.
* As long as no slave is answered after its exit callback has run, a flag that is set has
  somebody who will clear it (`Tidy.changed`, `configurations_released`); otherwise it may
  stay set for ever.

The callback of a slave, the answer of the master and a recreation are whole steps here, as the
master and its threads take them one after the other. What may happen between the statements of a
callback is in `Control.Threads`.
-/

set_option autoImplicit false

namespace DdosFiltering.Control

open Foundation

/-- A live slave runs with the configuration `c`, or waits and has been sent it. -/
inductive Holds (v : View) (c : LcoreId) : Prop where
  | runs {conf : UInt8} (serves : v.phase.conf? = some conf) (same : conf.toNat = c.val)
  | sent {f : LcoreId} (waiting : v.phase = .waiting f) (queued : System.reply c ∈ v.toSlave)

variable {enabled : LcoreId → ℤ} {s t : System} {l : LcoreId} {a : Action}

theorem reply_injective {c c' : LcoreId} (same : System.reply c = System.reply c') : c = c' := by
  have text : decimal c = decimal c' := congrArg BridgeMsg.msg same
  refine Fin.ext ?_
  rw [← confId_decimal c, text, confId_decimal c']

/-- A slave holds only the configuration that the master has noted for it. -/
theorem Holds.configId {v : View} {c : LcoreId} (holds : Holds v c) (agreed : Agreed enabled v) :
    v.configId = c := by
  cases holds with
  | runs serves same => exact Fin.ext ((agreed.serves _ serves).1.symm.trans same)
  | sent waiting queued =>
      cases replies : v.toSlave with
      | nil => exact absurd (replies ▸ queued) List.not_mem_nil
      | cons msg rest =>
          obtain ⟨rfl, rfl, -⟩ := agreed.talk.replied_of_toSlave replies
          rw [replies, List.mem_singleton] at queued
          exact (reply_injective queued).symm

/-- A slave that is neither in a packet loop nor waiting holds nothing. -/
theorem not_holds {v : View} {c : LcoreId} (idle : v.phase.conf? = none)
    (notWaiting : ∀ f, v.phase ≠ .waiting f) : ¬Holds v c := by
  rintro (⟨serves, -⟩ | ⟨waiting, -⟩)
  · exact absurd (idle.symm.trans serves) (by simp)
  · exact notWaiting _ waiting

theorem Phase.asks_of_conf? {p : Phase} {conf : UInt8} (serves : p.conf? = some conf) :
    p.asks = false := by
  cases p <;> first | rfl | exact absurd serves (by simp [Phase.conf?])

theorem Phase.Proceeds.not_waiting {p p' : Phase} (proceeds : p.Proceeds p') (f : LcoreId) :
    p' ≠ .waiting f := by
  cases proceeds <;> nofun

/-- Who holds a configuration while a message is under way to the master holds none. -/
theorem Holds.quiet_or_replied {v : View} {c : LcoreId} (holds : Holds v c)
    (agreed : Agreed enabled v) : v.toMaster = [] ∧ v.pending = false := by
  cases holds with
  | runs serves same =>
      have quiet := agreed.quiet (Phase.asks_of_conf? serves)
      exact ⟨quiet.toMaster, quiet.pending⟩
  | sent waiting queued =>
      cases replies : v.toSlave with
      | nil => exact absurd (replies ▸ queued) List.not_mem_nil
      | cons msg rest =>
          obtain ⟨-, -, toMaster, pending, -⟩ := agreed.talk.replied_of_toSlave replies
          exact ⟨toMaster, pending⟩

/-! ## What a step does to the holders and to the flags -/

/-- A configuration comes to a slave only by an answer, which takes an unused one. -/
theorem Change.holds {v : View} {used : LcoreId → ℤ} {c : LcoreId}
    (change : Change s l a v used) (agreed : Agreed enabled (s.view l)) (holds : Holds v c) :
    Holds (s.view l) c ∨ s.used c ≠ 1 ∧ used c = 1 := by
  cases change with
  | nothing => exact .inl holds
  | proceeds _ allowed =>
      cases holds with
      | runs serves same => exact .inl (.runs (allowed.conf? serves) same)
      | sent waiting queued => exact absurd waiting (allowed.not_waiting _)
  | unregistered _ unknown dead => exact absurd holds (not_holds rfl fun _ => by simp)
  | requests _ mapped sent =>
      have quiet := agreed.quiet_of_phase mapped rfl
      cases holds with
      | runs serves same => exact absurd serves (by simp [Phase.conf?])
      | sent waiting queued =>
          rw [quiet.toSlave] at queued
          exact absurd queued List.not_mem_nil
  | @receives _ f msg rest waiting first =>
      obtain ⟨rfl, rfl, -⟩ := agreed.talk.replied_of_toSlave first
      have config : (System.reply (s.view l).configId).cmd = .cfg := rfl
      rw [if_pos config] at holds
      refine .inl (.sent waiting ?_)
      cases holds with
      | runs serves same =>
          obtain rfl := Option.some.inj serves
          have noted : (s.view l).configId = c :=
            Fin.ext ((confId_decimal _).symm.trans same)
          rw [first, noted]
          exact List.mem_singleton_self _
      | sent isWaiting queued => exact absurd queued List.not_mem_nil
  | echoes _ running first =>
      have quiet := agreed.quiet_of_phase running rfl
      exact absurd (quiet.toSlave.symm.trans first) (by simp)
  | loses _ alive first => exact absurd holds (not_holds rfl fun _ => by simp)
  | polled _ idle first =>
      cases holds with
      | runs serves same => exact .inl (.runs serves same)
      | sent waiting queued => exact .inl (.sent waiting queued)
  | refused _ pending =>
      cases holds with
      | runs serves same => exact .inl (.runs serves same)
      | sent waiting queued => exact .inl (.sent waiting queued)
  | @answered k c' pending isEnabled unused allocated =>
      have isTaken := System.view_pending pending
      cases holds with
      | runs serves same => exact .inl (.runs serves same)
      | sent waiting queued =>
          rw [(agreed.talk.taken_of_pending isTaken).1, List.nil_append, List.mem_singleton]
            at queued
          obtain rfl := reply_injective queued
          exact .inr ⟨unused, Function.update_self ..⟩
  | reaped dead => exact absurd holds (not_holds rfl fun _ => by simp)
  | recreated reaped idle launched =>
      rcases launched with rfl | rfl <;> exact absurd holds (not_holds rfl fun _ => by simp)

/-- A flag changes when an answer sets it, when the exit callback clears the one of
`config_id`, or when a recreation clears the one at the floating lcore id. -/
theorem Change.used {v : View} {used : LcoreId → ℤ} {c : LcoreId}
    (change : Change s l a v used) (changed : used c ≠ s.used c) :
    (used c = 1 ∧ s.used c ≠ 1 ∧ ∃ k, a = .answer k ∧ s.pending = some l ∧ v.configId = c) ∨
      (used c = 0 ∧ a = .exitCb l ∧ c = (s.lcoreResource l).configId) ∨
      (used c = 0 ∧ a = .recreate l ∧ s.mappingId l = some c) := by
  cases change with
  | @answered k c' pending isEnabled unused allocated =>
      by_cases same : c = c'
      · subst same
        exact .inl ⟨Function.update_self .., unused, k, rfl, pending, rfl⟩
      · exact absurd (Function.update_of_ne same _ _) changed
  | reaped dead =>
      by_cases same : c = (s.view l).configId
      · subst same
        exact .inr (.inl ⟨Function.update_self .., rfl, rfl⟩)
      · exact absurd (Function.update_of_ne same _ _) changed
  | recreated reaped idle launched =>
      unfold System.usedAfterReset at changed ⊢
      cases mapping : s.mappingId l with
      | none => simp [mapping] at changed
      | some mapId =>
          simp only [mapping] at changed ⊢
          by_cases same : c = mapId
          · subst same
            exact .inr (.inr ⟨Function.update_self .., trivial, rfl⟩)
          · exact absurd (Function.update_of_ne same _ _) changed
  | nothing | proceeds | unregistered | requests | receives | echoes | loses | polled | refused =>
      exact absurd rfl changed

/-! ## Exclusive configurations -/

/-- The action, which is a whole callback or recreation, clears no flag of a configuration that a
slave holds. -/
def KeepsHeld (s : System) : Action → Prop
  | .exitCb l => ∀ l', ¬Holds (s.view l') (s.lcoreResource l).configId
  | .recreate l => ∀ mapId, s.mappingId l = some mapId → ∀ l', ¬Holds (s.view l') mapId
  | _ => True

/-- No two slaves hold the same configuration, and what is held is marked as used. -/
structure Settled (s : System) : Prop where
  exclusive : ∀ l l' c, Holds (s.view l) c → Holds (s.view l') c → l = l'
  marked : ∀ l c, Holds (s.view l) c → s.used c = 1

theorem Settled.changed (settled : Settled s) (sound : Sound enabled s) (keeps : KeepsHeld s a)
    (changed : Changed s t a l) : Settled t := by
  -- Who holds a configuration afterwards held it before, or has got an unused one.
  have before (l' : LcoreId) (c : LcoreId) (holds : Holds (t.view l') c) :
      Holds (s.view l') c ∨ l' = l ∧ s.used c ≠ 1 ∧ t.used c = 1 := by
    by_cases here : l' = l
    · subst here
      rcases changed.change.holds (sound.agreed l') holds with old | new
      · exact .inl old
      · exact .inr ⟨rfl, new⟩
    · rw [changed.others l' here] at holds
      exact .inl holds
  constructor
  · intro l₁ l₂ c holds₁ holds₂
    rcases before l₁ c holds₁ with old₁ | ⟨here₁, unused, -⟩
    · rcases before l₂ c holds₂ with old₂ | ⟨here₂, unused, -⟩
      · exact settled.exclusive l₁ l₂ c old₁ old₂
      · exact absurd (settled.marked l₁ c old₁) unused
    · rcases before l₂ c holds₂ with old₂ | ⟨here₂, -, -⟩
      · exact absurd (settled.marked l₂ c old₂) unused
      · exact here₁.trans here₂.symm
  · intro l' c holds
    rcases before l' c holds with old | ⟨-, -, marked⟩
    · by_contra unmarked
      have flagChanged : t.used c ≠ s.used c := fun same =>
        unmarked (same.trans (settled.marked l' c old))
      rcases changed.change.used flagChanged with ⟨marked, -⟩ | ⟨-, rfl, rfl⟩ | ⟨-, rfl, mapping⟩
      · exact unmarked marked
      · exact keeps l' old
      · exact keeps c mapping l' old
    · exact marked

theorem Settled.initial (eal : Eal) (enabled : LcoreId → ℤ) (pool : List BufPtr)
    (content : BufPtr → BridgeMsg) : Settled (System.initial eal enabled pool content) := by
  have nothing (l c : LcoreId) : ¬Holds ((System.initial eal enabled pool content).view l) c := by
    refine not_holds ?_ fun f => ?_ <;> simp only [System.view, System.initial] <;> split
    · rfl
    · rfl
    · simp
    · simp
  exact ⟨fun l _ c holds => absurd holds (nothing l c), fun l c holds => absurd holds (nothing l c)⟩

/-- No two live slave processes run with the same configuration. -/
def System.ExclusiveConf (s : System) : Prop :=
  ∀ l l' conf, (s.phase l).conf? = some conf → (s.phase l').conf? = some conf → l = l'

/-- **Exclusive configurations**, in every run of whole steps that clears no flag of a
configuration that a slave holds. -/
theorem configurations_exclusive (eal : Eal) (enabled : LcoreId → ℤ) {pool : List BufPtr}
    (distinct : pool.Nodup) (content : BufPtr → BridgeMsg) {s : System}
    (run : Run (System.step eal) KeepsHeld (System.initial eal enabled pool content) s) :
    s.ExclusiveConf := by
  obtain ⟨sound, settled⟩ : Sound enabled s ∧ Settled s := by
    refine run.invariant (fun s => Sound enabled s ∧ Settled s)
      ⟨.initial eal enabled distinct content, .initial eal enabled pool content⟩ ?_
    intro t u a invariant allowed taken
    obtain ⟨here, changed⟩ := step_changed invariant.1.exclusive taken
    exact ⟨invariant.1.changed changed, invariant.2.changed invariant.1 allowed changed⟩
  intro l l' conf runs runs'
  have noted := ((sound.agreed l).serves conf runs).1
  exact settled.exclusive l l' (s.view l).configId (.runs runs noted) (.runs runs' noted)

/-- Both slaves run, with a configuration each. -/
theorem configurations_exclusive_twoSlaves :
    ∃ s : System, s.phase 1 = .running 3 0 ∧ s.phase 2 = .running 4 1 ∧ s.ExclusiveConf := by
  obtain ⟨s, executed, phases⟩ : ∃ s, exec (System.step threeLcores) twoSlaves
      (asks 1 3 ++ asks 2 4 ++ isAnswered 1 ++ isAnswered 2) = some s ∧
        (s.phase 1, s.phase 2) = (.running 3 0, .running 4 1) :=
    Option.map_eq_some_iff.mp (by rfl)
  obtain ⟨phase₁, phase₂⟩ := Prod.mk.inj phases
  refine ⟨s, phase₁, phase₂, configurations_exclusive threeLcores _ (by decide) _
    (Run.of_exec (fun a member s => ?_) executed)⟩
  simp only [asks, isAnswered, List.replicate, List.cons_append, List.nil_append, List.mem_cons,
    List.not_mem_nil, or_false] at member
  rcases member with rfl | rfl | rfl | rfl | rfl | rfl | rfl | rfl | rfl | rfl | rfl | rfl | rfl |
    rfl | rfl | rfl | rfl | rfl | rfl | rfl | rfl <;> trivial

/-- The first slave runs with configuration 0. The second one crashes before it asks for a
configuration, its exit callback clears the flag of configuration 0, and the slave that is
launched in its place gets configuration 0 as well. -/
theorem two_slaves_one_configuration :
    ¬∀ s, Run (System.step threeLcores) anyAction twoSlaves s → s.ExclusiveConf := by
  intro claim
  obtain ⟨s, executed, phases⟩ : ∃ s, exec (System.step threeLcores) twoSlaves
      (asks 1 3 ++ isAnswered 1 ++ [.fork 2, .crash 2, .exitCb 2, .recreate 2] ++ asks 2 4 ++
        isAnswered 2) = some s ∧ (s.phase 1, s.phase 2) = (.running 3 0, .running 4 0) :=
    Option.map_eq_some_iff.mp (by rfl)
  obtain ⟨phase₁, phase₂⟩ := Prod.mk.inj phases
  have same : (1 : LcoreId) = 2 :=
    claim s (Run.of_exec (fun _ _ _ => trivial) executed) 1 2 0 (by rw [phase₁]; rfl)
      (by rw [phase₂]; rfl)
  exact absurd same (by decide)

/-! ## No flag is left behind -/

/-- Somebody will clear the flag of the configuration `c`: a slave that holds it, or the exit
callback of a slave that has died with it. -/
inductive Owns (v : View) (c : LcoreId) : Prop where
  | holds (holds : Holds v c)
  | died (dead : v.phase = .dead) (noted : v.configId = c) (toMaster : v.toMaster = [])
      (pending : v.pending = false)

/-- The master does not hand a configuration to a slave whose exit callback has run. The callback is
a whole step, which has run or has not begun. -/
def NoLateAnswer (s : System) : Action → Prop
  | .answer _ => ∀ l, s.pending = some l → s.phase l = .reaped →
      (∀ c, (s.procConfig c).enabled = 0 ∨ s.used c = 1) ∨ s.mem.free = []
  | _ => True

/-- An owner of a configuration has a slave, and no request of it is under way. -/
theorem Owns.settled {v : View} {c : LcoreId} (owns : Owns v c) (agreed : Agreed enabled v) :
    v.phase ≠ .stopped ∧ v.toMaster = [] ∧ v.pending = false := by
  cases owns with
  | holds holds =>
      refine ⟨fun stopped => ?_, holds.quiet_or_replied agreed⟩
      exact not_holds (by rw [stopped]; rfl) (fun f => by rw [stopped]; nofun) holds
  | died dead _ toMaster pending => exact ⟨by rw [dead]; nofun, toMaster, pending⟩

/-- A slave that holds a configuration and dies leaves it to its exit callback. -/
theorem Holds.dies {v : View} {c : LcoreId} (holds : Holds v c) (agreed : Agreed enabled v)
    (toSlave : List BridgeMsg) : Owns { v with phase := .dead, toSlave } c :=
  let quiet := holds.quiet_or_replied agreed
  .died rfl (holds.configId agreed) quiet.1 quiet.2

/-- A slave with a configuration keeps it or dies. -/
theorem Phase.Proceeds.keeps_conf? {p p' : Phase} (proceeds : p.Proceeds p') {conf : UInt8}
    (serves : p.conf? = some conf) : p'.conf? = some conf ∨ p' = .dead := by
  cases proceeds with
  | leave | free | unmap => exact .inl serves
  | die => exact .inr rfl
  | fork | forkFails | scan | found | claim | rescan | map => exact absurd serves nofun

/-- **An owner remains one until the flag is cleared.** -/
theorem Change.owns {v : View} {used : LcoreId → ℤ} {c : LcoreId} (change : Change s l a v used)
    (agreed : Agreed enabled (s.view l))
    (registered : s.phase l ≠ .stopped → (s.view l).registered = true)
    (owns : Owns (s.view l) c) : Owns v c ∨ used c ≠ 1 := by
  obtain ⟨present, toMaster, notTaken⟩ := owns.settled agreed
  cases change with
  | nothing => exact .inl owns
  | proceeds _ allowed =>
      refine .inl ?_
      cases owns with
      | holds holds =>
          cases holds with
          | runs serves same =>
              rcases allowed.keeps_conf? serves with serves' | rfl
              · exact .holds (.runs serves' same)
              · exact (Holds.runs serves same).dies agreed _
          | sent waiting queued =>
              obtain rfl := allowed.of_waiting waiting
              exact (Holds.sent waiting queued).dies agreed _
      | died dead =>
          have source : s.phase l = .dead := dead
          rw [source] at allowed
          cases allowed with
          | die alive => exact absurd alive (by decide)
  | unregistered _ unknown dead => exact absurd ((registered present).symm.trans unknown) (by simp)
  | requests _ mapped sent =>
      have phase : (s.view l).phase = .mapped _ := mapped
      cases owns with
      | holds holds =>
          exact absurd holds (not_holds (by rw [phase]; rfl) (fun f => by rw [phase]; simp))
      | died dead => exact absurd (phase.symm.trans dead) (by simp)
  | @receives _ f msg rest waiting first =>
      have phase : (s.view l).phase = .waiting f := waiting
      obtain ⟨rfl, rfl, -⟩ := agreed.talk.replied_of_toSlave first
      have config : (System.reply (s.view l).configId).cmd = .cfg := rfl
      rw [if_pos config]
      cases owns with
      | holds holds =>
          refine .inl (.holds (.runs rfl ?_))
          rw [← holds.configId agreed]
          exact confId_decimal _
      | died dead => exact absurd (phase.symm.trans dead) (by simp)
  | echoes _ running first =>
      have quiet := agreed.quiet_of_phase running rfl
      exact absurd (quiet.toSlave.symm.trans first) (by simp)
  | loses _ alive first =>
      cases owns with
      | holds holds => exact .inl (holds.dies agreed _)
      | died dead =>
          have source : s.phase l = .dead := dead
          rw [source] at alive
          exact absurd alive (by decide)
  | polled _ idle first => exact absurd (toMaster.symm.trans first) (by simp)
  | refused _ pending | answered _ pending =>
      have isTaken := System.view_pending pending
      exact absurd (notTaken.symm.trans isTaken) (by simp)
  | reaped dead =>
      have phase : (s.view l).phase = .dead := dead
      cases owns with
      | holds holds =>
          exact absurd holds (not_holds (by rw [phase]; rfl) (fun f => by rw [phase]; simp))
      | died _ noted =>
          refine .inr ?_
          rw [noted, Function.update_self]
          decide
  | recreated reaped idle launched =>
      have phase : (s.view l).phase = .reaped := reaped
      cases owns with
      | holds holds =>
          exact absurd holds (not_holds (by rw [phase]; rfl) (fun f => by rw [phase]; simp))
      | died dead => exact absurd (phase.symm.trans dead) (by simp)

/-- A flag is set by the answer to a slave, which thereby owns the configuration, unless its
exit callback has run. -/
theorem Change.owner {v : View} {used : LcoreId → ℤ} {c : LcoreId} (change : Change s l a v used)
    (agreed : Agreed enabled (s.view l)) (timely : NoLateAnswer s a) (unused : s.used c ≠ 1)
    (flagged : used c = 1) : Owns v c := by
  have origin := change.used (fun same => unused (same.symm.trans flagged))
  cases change with
  | @answered k c' pending isEnabled unused' allocated =>
      have isTaken := System.view_pending pending
      obtain ⟨toSlave, toMaster⟩ := agreed.talk.taken_of_pending isTaken
      have asks : (s.phase l).asks = true := agreed.asks_of_pending isTaken
      obtain rfl : c' = c := by
        by_contra other
        rw [Function.update_of_ne (Ne.symm other)] at flagged
        exact unused flagged
      cases phase : s.phase l with
      | waiting f =>
          refine .holds (.sent phase ?_)
          exact List.mem_append_right _ (List.mem_singleton_self _)
      | dead => exact .died phase rfl toMaster rfl
      | reaped =>
          rcases timely l pending phase with noneFree | noBuffer
          · rcases noneFree c' with disabled | inUse
            · exact absurd disabled isEnabled
            · exact absurd inUse unused'
          · exact absurd noBuffer allocated
      | _ =>
          rw [phase] at asks
          exact absurd asks (by simp [Phase.asks])
  | reaped | recreated =>
      rcases origin with ⟨-, -, k, impossible, -⟩ | ⟨cleared, -⟩ | ⟨cleared, -⟩
      · exact absurd impossible (by simp)
      · exact absurd (cleared.symm.trans flagged) (by simp)
      · exact absurd (cleared.symm.trans flagged) (by simp)
  | nothing | proceeds | unregistered | requests | receives | echoes | loses | polled | refused =>
      exact absurd flagged unused

/-! ### Runs -/

/-- The invariant of the flags: every slave is registered, so that its exit callback clears
a flag, and every flag that is set has an owner. -/
structure Tidy (s : System) : Prop where
  registered : ∀ l, s.phase l ≠ .stopped → (s.view l).registered = true
  accounted : ∀ c, s.used c = 1 → ∃ l, Owns (s.view l) c

theorem Tidy.changed (tidy : Tidy s) (sound : Sound enabled s) (timely : NoLateAnswer s a)
    (changed : Changed s t a l) : Tidy t where
  registered l' present := by
    by_cases here : l' = l
    · subst here
      rw [changed.change.registered]
      exact tidy.registered l' (changed.change.present present)
    · have view := changed.others l' here
      have phase : t.phase l' = s.phase l' := congrArg View.phase view
      rw [view]
      exact tidy.registered l' (phase ▸ present)
  accounted c flagged := by
    by_cases before : s.used c = 1
    · obtain ⟨l', owns⟩ := tidy.accounted c before
      by_cases here : l' = l
      · subst here
        rcases changed.change.owns (sound.agreed l') (tidy.registered l') owns with kept | cleared
        · exact ⟨l', kept⟩
        · exact absurd flagged cleared
      · exact ⟨l', by rw [changed.others l' here]; exact owns⟩
    · exact ⟨l, changed.change.owner (sound.agreed l) timely before flagged⟩

theorem Tidy.initial (eal : Eal) (enabled : LcoreId → ℤ) (pool : List BufPtr)
    (content : BufPtr → BridgeMsg) : Tidy (System.initial eal enabled pool content) where
  registered l present := by
    cases slave : eal.isSlave l <;> simp_all [System.initial, System.view]
  accounted c flagged := absurd flagged (by simp [System.initial, System.used])

/-- Every `used` flag that is set is the one of a configuration that a live slave runs with,
or that is in a reply for a live slave that waits for it, or that a slave had which has died
and whose exit callback has not run yet. -/
def System.NoneLeaked (s : System) : Prop :=
  ∀ c, (s.procConfig c).used = 1 →
    (∃ l conf, (s.phase l).conf? = some conf ∧ conf.toNat = c.val) ∨
      (∃ l f, s.phase l = .waiting f ∧ System.reply c ∈ s.mem.queue (l, 0)) ∨
      ∃ l, s.phase l = .dead ∧ (s.lcoreResource l).configId = c

/-- **No configuration is leaked**, in every run of whole steps in which the master hands no
configuration to a slave whose exit callback has run. -/
theorem configurations_released (eal : Eal) (enabled : LcoreId → ℤ) {pool : List BufPtr}
    (distinct : pool.Nodup) (content : BufPtr → BridgeMsg) {s : System}
    (run : Run (System.step eal) NoLateAnswer (System.initial eal enabled pool content) s) :
    s.NoneLeaked := by
  obtain ⟨-, tidy⟩ : Sound enabled s ∧ Tidy s := by
    refine run.invariant (fun s => Sound enabled s ∧ Tidy s)
      ⟨.initial eal enabled distinct content, .initial eal enabled pool content⟩ ?_
    intro t u a invariant timely taken
    obtain ⟨here, changed⟩ := step_changed invariant.1.exclusive taken
    exact ⟨invariant.1.changed changed, invariant.2.changed invariant.1 timely changed⟩
  intro c flagged
  obtain ⟨l, owns⟩ := tidy.accounted c flagged
  rcases owns with (⟨serves, same⟩ | ⟨waiting, queued⟩) | ⟨dead, noted, -⟩
  · exact .inl ⟨l, _, serves, same⟩
  · exact .inr (.inl ⟨l, _, waiting, queued⟩)
  · exact .inr (.inr ⟨l, dead, noted⟩)

/-- The first slave is alive when it is answered, and runs with configuration 0. -/
theorem configurations_released_firstSlave :
    ∃ s : System, s.used 0 = 1 ∧ s.phase 1 = .running 3 0 ∧ s.NoneLeaked := by
  obtain ⟨s, executed, reached⟩ : ∃ s, exec (System.step threeLcores) twoSlaves
      ((asks 1 3 ++ [.poll 1]) ++ [.answer 0, .receive 1]) = some s ∧
        (s.used 0, s.phase 1) = (1, .running 3 0) :=
    Option.map_eq_some_iff.mp (by rfl)
  obtain ⟨flagged, phase⟩ := Prod.mk.inj reached
  obtain ⟨t, asked, rest⟩ := exec_append _ _ executed
  have waits : (t.pending, t.phase 1) = (some 1, .waiting 3) := by
    have facts : (exec (System.step threeLcores) twoSlaves (asks 1 3 ++ [.poll 1])).map
        (fun t => (t.pending, t.phase 1)) = some (some 1, .waiting 3) := by rfl
    rw [asked] at facts
    exact Option.some.inj facts
  obtain ⟨pending, waiting⟩ := Prod.mk.inj waits
  obtain ⟨u, answered, received⟩ := exec_append [Action.answer 0] _ rest
  have front : Run (System.step threeLcores) NoLateAnswer twoSlaves t :=
    .of_exec (fun a member s => by
      simp only [asks, List.replicate, List.cons_append, List.nil_append, List.mem_cons,
        List.not_mem_nil, or_false] at member
      rcases member with rfl | rfl | rfl | rfl | rfl | rfl | rfl | rfl <;> trivial) asked
  have timely : NoLateAnswer t (.answer 0) := by
    intro l isPending reaped
    obtain rfl := Option.some.inj (pending.symm.trans isPending)
    exact absurd (waiting.symm.trans reaped) nofun
  have answer : t.step threeLcores (.answer 0) = some u := by
    simpa [exec] using answered
  have receive : u.step threeLcores (.receive 1) = some s := by
    simpa [exec] using received
  exact ⟨s, flagged, phase, configurations_released threeLcores _ (by decide) _
    ((front.tail timely answer).tail (a := .receive 1) trivial receive)⟩

/-- The first slave crashes after it has sent its request, and its exit callback runs. Then
the master takes the request and answers it: the flag of configuration 0 stays set. -/
theorem answered_after_exitCb :
    ¬∀ s, Run (System.step threeLcores) anyAction twoSlaves s → s.NoneLeaked := by
  intro claim
  obtain ⟨s, executed, reached⟩ : ∃ s, exec (System.step threeLcores) twoSlaves
      (asks 1 3 ++ [.crash 1, .exitCb 1, .poll 1, .answer 0]) = some s ∧
        ((s.procConfig 0).used, decide (∀ l, s.phase l ∈ [.stopped, .launched, .reaped])) =
          (1, true) :=
    Option.map_eq_some_iff.mp (by decide +kernel)
  obtain ⟨flagged, phases⟩ := Prod.mk.inj reached
  have idle (l : LcoreId) := of_decide_eq_true phases l
  rcases claim s (Run.of_exec (fun _ _ _ => trivial) executed) 0 flagged with
    ⟨l, conf, serves, -⟩ | ⟨l, f, waiting, -⟩ | ⟨l, dead, -⟩
  · have noConf : ∀ p ∈ [Phase.stopped, .launched, .reaped], p.conf? = none := by decide
    exact absurd ((noConf _ (idle l)).symm.trans serves) nofun
  · exact absurd (waiting ▸ idle l) (by simp)
  · exact absurd (dead ▸ idle l) (by simp)

end DdosFiltering.Control
