import DdosFiltering.Control.Threads

/-!
# No exit of a slave is lost

`flags` is written by the exit callback and by the master, both under `mutex_lock`, and the
master waits for the thread of an lcore while it holds the lock. `OrderlyAt` is the invariant
of one lcore: who is between lock and unlock, what the master has seen of the flags of the
lcore it recreates, and that the flags are `SLAVE_RECREATE_FLAG` as soon as the callback is
about to give back the lock. Every statement keeps it (`Orderly.step`).

So when the callback of a registered lcore has completed, the flags ask for a recreation until
the master has relaunched the lcore, and a thread that the master waits for has no lock to
take (`exit_not_lost`).
-/

set_option autoImplicit false

namespace DdosFiltering.Control

open Foundation

/-- The thread holds `mutex_lock`. -/
def CallbackPc.critical : CallbackPc → Bool
  | .unusing _ | .testing | .flagging | .unlocking => true
  | _ => false

/-- The process has exited, and the callback has not completed. -/
def CallbackPc.exiting : CallbackPc → Bool
  | .entered _ | .locking _ => true
  | pc => pc.critical

/-- The lcore that `reset_lcore` is called for, up to the launch. -/
def MainPc.resets? : MainPc → Option LcoreId
  | .resetting l | .freeing l _ | .clearing l _ | .unusing l _ | .testing l | .creating l
  | .draining l _ | .waiting l | .launching l => some l
  | _ => none

/-- The lcore that has been launched, and whose flags are being cleared. -/
def MainPc.relaunched? : MainPc → Option LcoreId
  | .zeroing l | .masking l => some l
  | _ => none

/-- The invariant of one lcore. -/
structure OrderlyAt (s : Threads) (l : LcoreId) : Prop where
  flags : (s.system.lcoreResource l).flags = 0 ∨
    (s.system.lcoreResource l).flags = slaveRecreateFlag
  critical : s.mutexLock = some (.lcore l) ↔ (s.callback l).critical = true
  exiting : (s.callback l).exiting = true → s.system.phase l = .dead
  returning : s.callback l = .returning → s.system.phase l = .reaped
  flagged : s.callback l = .unlocking → (s.system.lcoreResource l).flags = slaveRecreateFlag
  requested : (s.system.lcoreResource l).enabled ≠ 0 → s.system.phase l = .reaped →
    (s.system.lcoreResource l).flags = slaveRecreateFlag
  /-- Who has set the flag, or is about to clear it. -/
  served : (s.system.lcoreResource l).flags = slaveRecreateFlag →
    s.system.phase l = .reaped ∨ s.callback l = .unlocking ∨ s.main = .zeroing l
  registered : s.main.resets? = some l ∨ s.main.relaunched? = some l →
    (s.system.lcoreResource l).enabled = 1
  reset : s.main.resets? = some l → s.system.phase l = .reaped
  relaunched : s.main.relaunched? = some l → s.system.phase l ≠ .reaped
  awaited : s.main = .launching l → s.callback l = .outside

/-- The invariant of all threads of the master process. -/
structure Orderly (s : Threads) : Prop where
  lock : s.mutexLock = some .main ↔ s.main ≠ .polling
  lcore : ∀ l, OrderlyAt s l

variable {eal : Eal} {s t : Threads} {l : LcoreId}

/-- While the master has the lock, no thread is between lock and unlock. -/
theorem Orderly.not_critical (orderly : Orderly s) (locked : s.main ≠ .polling) (l : LcoreId) :
    (s.callback l).critical = false := by
  have holder : s.mutexLock = some .main := orderly.lock.mpr locked
  cases critical : (s.callback l).critical with
  | false => rfl
  | true =>
      have taken := (orderly.lcore l).critical.mpr critical
      exact absurd (holder.symm.trans taken) (by simp)

theorem Orderly.not_unlocking (orderly : Orderly s) (locked : s.main ≠ .polling) (l : LcoreId) :
    s.callback l ≠ .unlocking := by
  intro unlocking
  have critical := orderly.not_critical locked l
  rw [unlocking] at critical
  exact absurd critical (by simp [CallbackPc.critical])

/-! ## The steps of the slaves and of the polling master -/

theorem OrderlyAt.action (orderly : OrderlyAt s l) {system : System}
    (phase : system.phase l = s.system.phase l ∨
      (s.system.phase l).ended = false ∧ system.phase l ≠ .reaped)
    (flags : (system.lcoreResource l).flags = (s.system.lcoreResource l).flags)
    (enabled : (system.lcoreResource l).enabled = (s.system.lcoreResource l).enabled) :
    OrderlyAt { s with system } l := by
  -- A thread whose process has exited stays where it is, and no other one comes to its end.
  have lasts {p : Phase} (here : s.system.phase l = p) (ended : p.ended = true) :
      system.phase l = p := by
    rcases phase with same | ⟨lasting, -⟩
    · exact same.trans here
    · rw [here] at lasting
      exact absurd lasting (by simp [ended])
  have reaped (here : system.phase l = .reaped) : s.system.phase l = .reaped := by
    rcases phase with same | ⟨-, running⟩
    · exact same.symm.trans here
    · exact absurd here running
  constructor
  · rw [flags]
    exact orderly.flags
  · exact orderly.critical
  · intro exiting
    exact lasts (orderly.exiting exiting) rfl
  · intro returning
    exact lasts (orderly.returning returning) rfl
  · rw [flags]
    exact orderly.flagged
  · intro isEnabled here
    rw [enabled] at isEnabled
    rw [flags]
    exact orderly.requested isEnabled (reaped here)
  · intro set
    rw [flags] at set
    rcases orderly.served set with here | pc
    · exact .inl (lasts here rfl)
    · exact .inr pc
  · rw [enabled]
    exact orderly.registered
  · intro reset
    exact lasts (orderly.reset reset) rfl
  · intro relaunched here
    exact orderly.relaunched relaunched (reaped here)
  · exact orderly.awaited

theorem Orderly.action (orderly : Orderly s) {a : Action}
    (taken : s.step eal (.action a) = some t) : Orderly t := by
  obtain ⟨other, system, step, rfl⟩ := Threads.step_action taken
  refine ⟨orderly.lock, fun l => ?_⟩
  obtain ⟨c, record⟩ := step_record other step l
  exact (orderly.lcore l).action (step_phase other step l) (by rw [record]) (by rw [record])

/-! ## The statements of a callback -/

/-- Nothing changes for an lcore when a step concerns another one. -/
theorem OrderlyAt.congr (orderly : OrderlyAt s l) (callback : t.callback l = s.callback l)
    (phase : t.system.phase l = s.system.phase l)
    (record : t.system.lcoreResource l = s.system.lcoreResource l) (main : t.main = s.main)
    (mutexLock : t.mutexLock = some (.lcore l) ↔ s.mutexLock = some (.lcore l)) :
    OrderlyAt t l := by
  constructor
  · rw [record]
    exact orderly.flags
  · rw [callback, mutexLock]
    exact orderly.critical
  · rw [callback, phase]
    exact orderly.exiting
  · rw [callback, phase]
    exact orderly.returning
  · rw [callback, record]
    exact orderly.flagged
  · rw [phase, record]
    exact orderly.requested
  · rw [callback, phase, record, main]
    exact orderly.served
  · rw [record, main]
    exact orderly.registered
  · rw [phase, main]
    exact orderly.reset
  · rw [phase, main]
    exact orderly.relaunched
  · rw [callback, main]
    exact orderly.awaited

/-- What a statement of the callback of `l` leaves alone. -/
structure OnlyAt (s t : Threads) (l : LcoreId) : Prop where
  callback : ∀ l', l' ≠ l → t.callback l' = s.callback l'
  phase : ∀ l', l' ≠ l → t.system.phase l' = s.system.phase l'
  record : ∀ l', l' ≠ l → t.system.lcoreResource l' = s.system.lcoreResource l'
  main : t.main = s.main
  mutexLock : ∀ p, p ≠ .lcore l → (t.mutexLock = some p ↔ s.mutexLock = some p)

/-- A statement of one callback keeps the invariant when it keeps it at its own lcore. -/
theorem Orderly.of_onlyAt (orderly : Orderly s) (only : OnlyAt s t l) (here : OrderlyAt t l) :
    Orderly t where
  lock := by
    rw [only.mutexLock _ (by simp), only.main]
    exact orderly.lock
  lcore l' := by
    by_cases same : l' = l
    · subst same
      exact here
    · exact (orderly.lcore l').congr (only.callback l' same) (only.phase l' same)
        (only.record l' same) only.main (only.mutexLock _ (by simp [same]))

/-- The callback goes on to `pc`, and has not completed. -/
theorem OrderlyAt.advance (orderly : OrderlyAt s l) {pc : CallbackPc}
    (callback : t.callback l = pc) (main : t.main = s.main) (exiting : pc.exiting = true)
    (phase : t.system.phase l = .dead)
    (enabled : (t.system.lcoreResource l).enabled = (s.system.lcoreResource l).enabled)
    (flags : pc = .unlocking ∧ (t.system.lcoreResource l).flags = slaveRecreateFlag ∨
      pc ≠ .unlocking ∧ s.callback l ≠ .unlocking ∧
        (t.system.lcoreResource l).flags = (s.system.lcoreResource l).flags)
    (before : s.system.phase l = .dead)
    (critical : t.mutexLock = some (.lcore l) ↔ pc.critical = true) : OrderlyAt t l := by
  have notReset : s.main.resets? ≠ some l := by
    intro reset
    exact absurd (before.symm.trans (orderly.reset reset)) (by simp)
  constructor
  · rcases flags with ⟨-, set⟩ | ⟨-, -, same⟩
    · exact .inr set
    · rw [same]
      exact orderly.flags
  · rw [callback]
    exact critical
  · intro _
    exact phase
  · intro returning
    rw [← callback, returning] at exiting
    exact absurd exiting (by simp [CallbackPc.exiting, CallbackPc.critical])
  · intro unlocking
    rcases flags with ⟨-, set⟩ | ⟨other, -, -⟩
    · exact set
    · exact absurd (callback.symm.trans unlocking) other
  · intro _ reaped
    exact absurd (phase.symm.trans reaped) (by simp)
  · intro set
    rcases flags with ⟨unlocking, -⟩ | ⟨-, notUnlocking, same⟩
    · exact .inr (.inl (callback.trans unlocking))
    · rw [same] at set
      rcases orderly.served set with reaped | unlocking | zeroing
      · exact absurd (before.symm.trans reaped) (by simp)
      · exact absurd unlocking notUnlocking
      · exact .inr (.inr (main.trans zeroing))
  · rw [main, enabled]
    exact orderly.registered
  · rw [main]
    exact fun reset => absurd reset notReset
  · intro _ reaped
    exact absurd (phase.symm.trans reaped) (by simp)
  · rw [main]
    intro launching
    exact absurd (by rw [launching]; rfl) notReset

/-- The callback has completed. -/
theorem OrderlyAt.complete (orderly : OrderlyAt s l) {pc : CallbackPc}
    (callback : t.callback l = pc) (main : t.main = s.main) (completed : pc.exiting = false)
    (phase : t.system.phase l = .reaped)
    (record : t.system.lcoreResource l = s.system.lcoreResource l)
    (requested : (s.system.lcoreResource l).enabled ≠ 0 →
      (s.system.lcoreResource l).flags = slaveRecreateFlag)
    (notRelaunched : s.main.relaunched? ≠ some l) (notHeld : t.mutexLock ≠ some (.lcore l))
    (awaited : s.main = .launching l → pc = .outside) : OrderlyAt t l := by
  have uncritical : pc.critical = false := by
    cases pc <;> first
      | rfl
      | exact absurd completed (by simp [CallbackPc.exiting, CallbackPc.critical])
  have notUnlocking : t.callback l ≠ .unlocking := by
    intro unlocking
    rw [← callback, unlocking] at uncritical
    exact absurd uncritical (by simp [CallbackPc.critical])
  constructor
  · rw [record]
    exact orderly.flags
  · rw [callback, uncritical]
    exact iff_of_false notHeld (by simp)
  · intro exiting
    rw [callback, completed] at exiting
    exact absurd exiting (by simp)
  · intro _
    exact phase
  · intro unlocking
    exact absurd unlocking notUnlocking
  · intro isEnabled _
    rw [record] at isEnabled ⊢
    exact requested isEnabled
  · intro _
    exact .inl phase
  · rw [main, record]
    exact orderly.registered
  · intro _
    exact phase
  · rw [main]
    exact fun relaunched => absurd relaunched notRelaunched
  · rw [main, callback]
    exact awaited

/-- **A statement of a callback keeps the invariant.** -/
theorem Orderly.callback (orderly : Orderly s) (taken : s.step eal (.callback l) = some t) :
    Orderly t := by
  have here := orderly.lcore l
  have notHeld (idle : (s.callback l).critical = false) : s.mutexLock ≠ some (.lcore l) := by
    intro held
    exact absurd (here.critical.mp held) (by simp [idle])
  -- The statements that change no more than the callback of `l`, and perhaps the system.
  have onlyAt {pc : CallbackPc} {system : System}
      (phase : ∀ l', l' ≠ l → system.phase l' = s.system.phase l')
      (record : ∀ l', l' ≠ l → system.lcoreResource l' = s.system.lcoreResource l') :
      OnlyAt s { s.setCallback l pc with system } l :=
    ⟨fun l' other => Function.update_of_ne other _ _, phase, record, rfl, fun _ _ => .rfl⟩
  have sameLock {pc : CallbackPc} (same : pc.critical = (s.callback l).critical) :
      s.mutexLock = some (.lcore l) ↔ pc.critical = true := by
    rw [same]
    exact here.critical
  have moved (pc : CallbackPc) : Function.update s.callback l pc l = pc := Function.update_self ..
  simp only [Threads.step, Threads.callbackStep] at taken
  cases pc : s.callback l with
  | outside =>
      simp only [pc, Option.ite_none_right_eq_some, Option.some.injEq] at taken
      obtain ⟨dead, rfl⟩ := taken
      refine orderly.of_onlyAt (onlyAt (fun _ _ => rfl) fun _ _ => rfl) ?_
      exact here.advance (moved _) rfl rfl dead rfl (.inr ⟨by simp, by simp [pc], rfl⟩) dead
        (sameLock (by rw [pc]; rfl))
  | entered c =>
      have dead : s.system.phase l = .dead := here.exiting (by rw [pc]; rfl)
      simp only [pc] at taken
      split at taken
      · rename_i disabled
        obtain rfl := Option.some.inj taken
        refine orderly.of_onlyAt (onlyAt (fun l' other => Function.update_of_ne other _ _)
          fun _ _ => rfl) ?_
        refine here.complete (moved _) rfl rfl (Function.update_self ..) rfl
          (fun isEnabled => absurd disabled isEnabled) (fun relaunched => ?_)
          (notHeld (by rw [pc]; rfl)) (fun launching => ?_)
        · have isEnabled := here.registered (.inr relaunched)
          rw [disabled] at isEnabled
          exact absurd isEnabled (by decide)
        · exact absurd (pc.symm.trans (here.awaited launching)) (by simp)
      · obtain rfl := Option.some.inj taken
        refine orderly.of_onlyAt (onlyAt (fun _ _ => rfl) fun _ _ => rfl) ?_
        exact here.advance (moved _) rfl rfl dead rfl (.inr ⟨by simp, by simp [pc], rfl⟩) dead
          (sameLock (by rw [pc]; rfl))
  | locking c =>
      have dead : s.system.phase l = .dead := here.exiting (by rw [pc]; rfl)
      simp only [pc, Option.ite_none_right_eq_some, Option.some.injEq] at taken
      obtain ⟨free, rfl⟩ := taken
      refine orderly.of_onlyAt ⟨fun l' other => Function.update_of_ne other _ _, fun _ _ => rfl,
        fun _ _ => rfl, rfl, fun p other => ?_⟩ ?_
      · simp [free, Ne.symm other]
      · exact here.advance (moved _) rfl rfl dead rfl (.inr ⟨by simp, by simp [pc], rfl⟩) dead
          (by simp [CallbackPc.critical])
  | unusing c =>
      have dead : s.system.phase l = .dead := here.exiting (by rw [pc]; rfl)
      simp only [pc, Option.some.injEq] at taken
      subst taken
      refine orderly.of_onlyAt (onlyAt (fun _ _ => rfl) fun _ _ => rfl) ?_
      exact here.advance (moved _) rfl rfl dead rfl (.inr ⟨by simp, by simp [pc], rfl⟩) dead
        (sameLock (by rw [pc]; rfl))
  | testing =>
      have dead : s.system.phase l = .dead := here.exiting (by rw [pc]; rfl)
      simp only [pc] at taken
      split at taken
      · obtain rfl := Option.some.inj taken
        refine orderly.of_onlyAt (onlyAt (fun _ _ => rfl) fun _ _ => rfl) ?_
        exact here.advance (moved _) rfl rfl dead rfl (.inr ⟨by simp, by simp [pc], rfl⟩) dead
          (sameLock (by rw [pc]; rfl))
      · rename_i forbidden
        refine absurd ?_ forbidden
        rcases here.flags with flags | flags <;> rw [flags] <;> decide
  | flagging =>
      have dead : s.system.phase l = .dead := here.exiting (by rw [pc]; rfl)
      simp only [pc, Option.some.injEq] at taken
      subst taken
      refine orderly.of_onlyAt (onlyAt (fun _ _ => rfl)
        fun l' other => Function.update_of_ne other _ _) ?_
      have set : (s.system.setFlags l slaveRecreateFlag).lcoreResource l =
          { s.system.lcoreResource l with flags := slaveRecreateFlag } := Function.update_self ..
      exact here.advance (moved _) rfl rfl dead (by rw [set]) (.inl ⟨rfl, by rw [set]⟩) dead
        (sameLock (by rw [pc]; rfl))
  | unlocking =>
      have held : s.mutexLock = some (.lcore l) := here.critical.mpr (by rw [pc]; rfl)
      have polling : s.main = .polling := by
        by_contra locked
        exact absurd (held.symm.trans (orderly.lock.mpr locked)) (by simp)
      simp only [pc, Option.some.injEq] at taken
      subst taken
      refine orderly.of_onlyAt ⟨fun l' other => Function.update_of_ne other _ _,
        fun l' other => Function.update_of_ne other _ _, fun _ _ => rfl, rfl,
        fun p other => ?_⟩ ?_
      · simp [held, Ne.symm other]
      · exact here.complete (moved _) rfl rfl (Function.update_self ..) rfl
          (fun _ => here.flagged pc) (by simp [polling, MainPc.relaunched?]) (by simp)
          (by simp [polling])
  | returning =>
      simp only [pc, Option.some.injEq] at taken
      subst taken
      refine orderly.of_onlyAt (onlyAt (fun _ _ => rfl) fun _ _ => rfl) ?_
      have reaped : s.system.phase l = .reaped := here.returning pc
      exact here.complete (moved _) rfl rfl reaped rfl
        (fun isEnabled => here.requested isEnabled reaped)
        (fun relaunched => here.relaunched relaunched reaped) (notHeld (by rw [pc]; rfl))
        (fun _ => rfl)

/-! ## The statements of the master -/

/-- A statement of the master that changes no phase and no flag of `l`. -/
theorem OrderlyAt.main (orderly : OrderlyAt s l) (callback : t.callback = s.callback)
    (phase : t.system.phase l = s.system.phase l)
    (flags : (t.system.lcoreResource l).flags = (s.system.lcoreResource l).flags)
    (enabled : (t.system.lcoreResource l).enabled = (s.system.lcoreResource l).enabled)
    (mutexLock : t.mutexLock = some (.lcore l) ↔ s.mutexLock = some (.lcore l))
    (notZeroing : s.main ≠ .zeroing l)
    (registered : t.main.resets? = some l ∨ t.main.relaunched? = some l →
      (s.system.lcoreResource l).enabled = 1)
    (reset : t.main.resets? = some l → s.system.phase l = .reaped)
    (relaunched : t.main.relaunched? = some l → s.system.phase l ≠ .reaped)
    (awaited : t.main = .launching l → s.callback l = .outside) : OrderlyAt t l := by
  constructor
  · rw [flags]
    exact orderly.flags
  · rw [callback, mutexLock]
    exact orderly.critical
  · rw [callback, phase]
    exact orderly.exiting
  · rw [callback, phase]
    exact orderly.returning
  · rw [callback, flags]
    exact orderly.flagged
  · rw [phase, flags, enabled]
    exact orderly.requested
  · rw [callback, phase, flags]
    intro set
    rcases orderly.served set with reaped | unlocking | zeroing
    · exact .inl reaped
    · exact .inr (.inl unlocking)
    · exact absurd zeroing notZeroing
  · rw [enabled]
    exact registered
  · rw [phase]
    exact reset
  · rw [phase]
    exact relaunched
  · rw [callback]
    exact awaited

/-- The master goes on under the lock, with the same lcore or with none. -/
theorem Orderly.continues (orderly : Orderly s) {system : System} {pc : MainPc}
    (phase : system.phase = s.system.phase)
    (flags : ∀ l, (system.lcoreResource l).flags = (s.system.lcoreResource l).flags)
    (enabled : ∀ l, (system.lcoreResource l).enabled = (s.system.lcoreResource l).enabled)
    (wasLocked : s.main ≠ .polling) (locked : pc ≠ .polling)
    (notZeroing : ∀ l, s.main ≠ .zeroing l)
    (resets : pc.resets? = s.main.resets? ∨ pc.resets? = none)
    (notRelaunched : pc.relaunched? = none)
    (awaited : ∀ l, pc = .launching l → s.callback l = .outside) :
    Orderly { s with system, main := pc } where
  lock := by
    rw [orderly.lock]
    exact iff_of_true wasLocked locked
  lcore l := by
    have before (here : pc.resets? = some l) : s.main.resets? = some l := by
      rcases resets with same | none
      · exact same ▸ here
      · exact absurd (none.symm.trans here) (by simp)
    refine (orderly.lcore l).main rfl (by rw [phase]) (flags l) (enabled l) .rfl
      (notZeroing l) ?_ (fun here => (orderly.lcore l).reset (before here)) ?_ (awaited l)
    · rintro (reset | relaunched)
      · exact (orderly.lcore l).registered (.inl (before reset))
      · exact absurd (notRelaunched.symm.trans relaunched) (by simp)
    · intro relaunched
      exact absurd (notRelaunched.symm.trans relaunched) (by simp)

/-- The master is in `reset_lcore` before and after the statement. -/
theorem Orderly.within (orderly : Orderly s) {system : System} {pc : MainPc}
    (before : s.main.resets? = some l) (after : pc.resets? = some l)
    (phase : system.phase = s.system.phase)
    (flags : ∀ l, (system.lcoreResource l).flags = (s.system.lcoreResource l).flags)
    (enabled : ∀ l, (system.lcoreResource l).enabled = (s.system.lcoreResource l).enabled)
    (awaited : ∀ l, pc = .launching l → s.callback l = .outside) :
    Orderly { s with system, main := pc } := by
  have notZeroing (l' : LcoreId) : s.main ≠ .zeroing l' := by
    intro zeroing
    exact absurd before (by simp [zeroing, MainPc.resets?])
  have locked {pc' : MainPc} (resets : pc'.resets? = some l) : pc' ≠ .polling := by
    intro polling
    exact absurd resets (by simp [polling, MainPc.resets?])
  have notRelaunched : pc.relaunched? = none := by
    cases pc <;> first | rfl | exact absurd after (by simp [MainPc.resets?])
  exact orderly.continues phase flags enabled (locked before) (locked after) notZeroing
    (.inl (after.trans before.symm)) notRelaunched awaited

/-- The master clears the flags of the lcore that it has launched. -/
theorem Orderly.clears (orderly : Orderly s) (here : s.main.relaunched? = some l)
    {pc : MainPc} (locked : pc ≠ .polling) (noReset : pc.resets? = none)
    (after : pc.relaunched? = some l ∨ pc.relaunched? = none) :
    Orderly { s with system := s.system.setFlags l 0, main := pc } := by
  have wasLocked : s.main ≠ .polling := by
    intro polling
    exact absurd here (by simp [polling, MainPc.relaunched?])
  have cleared : (s.system.setFlags l 0).lcoreResource l =
      { s.system.lcoreResource l with flags := 0 } := Function.update_self ..
  have running : s.system.phase l ≠ .reaped := (orderly.lcore l).relaunched here
  have notLaunching (l' : LcoreId) : pc ≠ .launching l' := by
    intro launching
    exact absurd noReset (by simp [launching, MainPc.resets?])
  have onlyHere {l' : LcoreId} (also : pc.relaunched? = some l') : l' = l := by
    rcases after with same | none
    · exact Option.some.inj (also.symm.trans same)
    · exact absurd (none.symm.trans also) (by simp)
  refine ⟨?_, fun l' => ?_⟩
  · rw [orderly.lock]
    exact iff_of_true wasLocked locked
  by_cases same : l' = l
  · subst same
    constructor
    · rw [cleared]
      exact .inl rfl
    · exact (orderly.lcore l').critical
    · exact (orderly.lcore l').exiting
    · exact (orderly.lcore l').returning
    · intro unlocking
      exact absurd unlocking (orderly.not_unlocking wasLocked l')
    · intro _ reaped
      exact absurd reaped running
    · intro set
      rw [cleared] at set
      have notSet : (0 : BitVec 32) ≠ slaveRecreateFlag := by decide
      exact absurd set notSet
    · intro _
      rw [cleared]
      exact (orderly.lcore l').registered (.inr here)
    · intro reset
      exact absurd (noReset.symm.trans reset) (by simp)
    · intro _
      exact running
    · intro launching
      exact absurd launching (notLaunching l')
  · have record : (s.system.setFlags l 0).lcoreResource l' = s.system.lcoreResource l' :=
      Function.update_of_ne same _ _
    refine (orderly.lcore l').main rfl rfl (by rw [record]) (by rw [record]) .rfl ?_ ?_ ?_ ?_
      (fun launching => absurd launching (notLaunching l'))
    · intro zeroing
      rw [zeroing] at here
      exact same (Option.some.inj here)
    · rintro (reset | relaunched)
      · exact absurd (noReset.symm.trans reset) (by simp)
      · exact absurd (onlyHere relaunched) same
    · intro reset
      exact absurd (noReset.symm.trans reset) (by simp)
    · intro relaunched
      exact absurd (onlyHere relaunched) same

/-- The launch of an lcore. -/
theorem Orderly.launches (orderly : Orderly s) (pc : s.main = .launching l) :
    Orderly { s with system := s.system.setPhase l .launched, main := .zeroing l } := by
  have reaped : s.system.phase l = .reaped := (orderly.lcore l).reset (by rw [pc]; rfl)
  have registered := (orderly.lcore l).registered (.inl (by rw [pc]; rfl))
  have launched : (s.system.setPhase l .launched).phase l = .launched := Function.update_self ..
  refine ⟨by simp [orderly.lock, pc], fun l' => ?_⟩
  by_cases same : l' = l
  · subst same
    have here := orderly.lcore l'
    constructor
    · exact here.flags
    · exact here.critical
    · intro exiting
      exact absurd (reaped.symm.trans (here.exiting exiting)) (by simp)
    · intro returning
      exact absurd (returning.symm.trans (here.awaited pc)) (by simp)
    · exact here.flagged
    · intro _ again
      exact absurd (launched.symm.trans again) (by simp)
    · exact fun _ => .inr (.inr rfl)
    · exact fun _ => registered
    · intro reset
      exact absurd reset (by simp [MainPc.resets?])
    · intro _ again
      exact absurd (launched.symm.trans again) (by simp)
    · intro launching
      exact absurd launching (by simp)
  · have phase : (s.system.setPhase l .launched).phase l' = s.system.phase l' :=
      Function.update_of_ne same _ _
    refine (orderly.lcore l').main rfl phase rfl rfl .rfl (by simp [pc]) ?_ ?_ ?_ (by simp)
    · rintro (here | here)
      · exact absurd here (by simp [MainPc.resets?])
      · exact absurd (Option.some.inj here).symm same
    · intro here
      exact absurd here (by simp [MainPc.resets?])
    · intro here
      exact absurd (Option.some.inj here).symm same

/-- **A statement of the master keeps the invariant.** -/
theorem Orderly.main (orderly : Orderly s) {launches : Bool}
    (taken : s.step eal (.main launches) = some t) : Orderly t := by
  simp only [Threads.step, Threads.mainStep] at taken
  cases pc : s.main with
  | polling =>
      simp only [pc, Option.ite_none_right_eq_some, Option.some.injEq] at taken
      obtain ⟨⟨free, -⟩, rfl⟩ := taken
      refine ⟨by simp, fun l => ?_⟩
      exact (orderly.lcore l).main rfl rfl rfl rfl (by simp [free]) (by simp [pc])
        (by simp [MainPc.resets?, MainPc.relaunched?]) (by simp [MainPc.resets?])
        (by simp [MainPc.relaunched?]) (by simp)
  | scanning i =>
      simp only [pc] at taken
      split at taken
      · rename_i inside
        split at taken
        · rename_i must
          obtain rfl := Option.some.inj taken
          simp only [System.mustRecreate, Bool.and_eq_true, beq_iff_eq] at must
          refine ⟨by simp [orderly.lock, pc], fun l => ?_⟩
          have resets (here : some (⟨i, inside⟩ : LcoreId) = some l) :
              s.system.phase l = .reaped ∧ (s.system.lcoreResource l).enabled = 1 := by
            obtain rfl := Option.some.inj here
            refine ⟨?_, must.1⟩
            rcases (orderly.lcore _).served must.2 with reaped | unlocking | zeroing
            · exact reaped
            · exact absurd unlocking (orderly.not_unlocking (by simp [pc]) _)
            · exact absurd zeroing (by simp [pc])
          refine (orderly.lcore l).main rfl rfl rfl rfl .rfl (by simp [pc]) ?_ ?_ ?_ (by simp)
          · rintro (here | here)
            · exact (resets here).2
            · exact absurd here (by simp [MainPc.relaunched?])
          · intro here
            exact (resets here).1
          · intro here
            exact absurd here (by simp [MainPc.relaunched?])
        · obtain rfl := Option.some.inj taken
          exact orderly.continues rfl (fun _ => rfl) (fun _ => rfl) (by simp [pc])
            (by simp) (by simp [pc]) (.inr rfl) rfl (by simp)
      · obtain rfl := Option.some.inj taken
        exact orderly.continues rfl (fun _ => rfl) (fun _ => rfl) (by simp [pc])
          (by simp) (by simp [pc]) (.inr rfl) rfl (by simp)
  | resetting l =>
      simp only [pc, floatProc] at taken
      split at taken <;>
      · obtain rfl := Option.some.inj taken
        exact orderly.within (by rw [pc]; rfl) rfl rfl (fun _ => rfl) (fun _ => rfl) (by simp)
  | freeing l f =>
      simp only [pc, Option.some.injEq] at taken
      subst taken
      obtain ⟨lcoreCfg, -, written⟩ := flibFreeLcoreId_writes eal s.system f
      rw [written]
      exact orderly.within (by rw [pc]; rfl) rfl rfl (fun _ => rfl) (fun _ => rfl) (by simp)
  | clearing l f | unusing l f =>
      simp only [pc, Option.some.injEq] at taken
      subst taken
      exact orderly.within (by rw [pc]; rfl) rfl rfl (fun _ => rfl) (fun _ => rfl) (by simp)
  | testing l =>
      simp only [pc] at taken
      split at taken
      · obtain rfl := Option.some.inj taken
        exact orderly.within (by rw [pc]; rfl) rfl rfl (fun _ => rfl) (fun _ => rfl) (by simp)
      · rename_i disabled
        exact absurd ((orderly.lcore l).registered (.inl (by rw [pc]; rfl))) disabled
  | creating l =>
      have isEnabled := (orderly.lcore l).registered (.inl (by rw [pc]; rfl))
      simp only [pc, isEnabled] at taken
      obtain rfl := Option.some.inj taken
      have record (l' : LcoreId) :
          ((s.system.createMsRing l).lcoreResource l').flags =
              (s.system.lcoreResource l').flags ∧
            ((s.system.createMsRing l).lcoreResource l').enabled =
              (s.system.lcoreResource l').enabled := by
        by_cases same : l' = l
        · subst same
          simp [System.createMsRing]
        · simp [System.createMsRing, Function.update_of_ne same]
      exact orderly.within (by rw [pc]; rfl) rfl rfl (fun l' => (record l').1)
        (fun l' => (record l').2) (by simp)
  | draining l isMaster =>
      have draining : s.main.resets? = some l := by rw [pc]; rfl
      simp only [pc] at taken
      split at taken
      · obtain rfl := Option.some.inj taken
        exact orderly.within draining rfl rfl (fun _ => rfl) (fun _ => rfl) (by simp)
      · split at taken
        · obtain rfl := Option.some.inj taken
          exact orderly.within draining rfl rfl (fun _ => rfl) (fun _ => rfl) (by simp)
        · split at taken <;> obtain rfl := Option.some.inj taken
          · exact orderly.within draining rfl rfl (fun _ => rfl) (fun _ => rfl) (by simp)
          · exact orderly.continues rfl (fun _ => rfl) (fun _ => rfl) (by simp [pc]) (by simp)
              (by simp [pc]) (.inr rfl) rfl (by simp)
  | waiting l =>
      simp only [pc, Option.ite_none_right_eq_some, Option.some.injEq] at taken
      obtain ⟨finished, rfl⟩ := taken
      refine orderly.within (by rw [pc]; rfl) rfl rfl (fun _ => rfl) (fun _ => rfl)
        fun l' launching => ?_
      obtain rfl := MainPc.launching.inj launching
      exact finished.1
  | launching l =>
      simp only [pc] at taken
      split at taken
      · obtain rfl := Option.some.inj taken
        exact orderly.launches pc
      · obtain rfl := Option.some.inj taken
        exact orderly.continues rfl (fun _ => rfl) (fun _ => rfl) (by simp [pc])
          (by simp) (by simp [pc]) (.inr rfl) rfl (by simp)
  | zeroing l =>
      simp only [pc, Option.some.injEq] at taken
      subst taken
      exact orderly.clears (by rw [pc]; rfl) (by simp) rfl (.inl rfl)
  | masking l =>
      simp only [pc, Option.some.injEq] at taken
      subst taken
      have masked : (s.system.lcoreResource l).flags &&& ~~~slaveRecreateFlag = 0 := by
        rcases (orderly.lcore l).flags with flags | flags <;> rw [flags] <;> decide
      rw [masked]
      exact orderly.clears (by rw [pc]; rfl) (by simp) rfl (.inr rfl)
  | unlocking =>
      simp only [pc, Option.some.injEq] at taken
      subst taken
      have held : s.mutexLock = some .main := orderly.lock.mpr (by simp [pc])
      refine ⟨by simp, fun l => ?_⟩
      exact (orderly.lcore l).main rfl rfl rfl rfl (by simp [held]) (by simp [pc])
        (by simp [MainPc.resets?, MainPc.relaunched?]) (by simp [MainPc.resets?])
        (by simp [MainPc.relaunched?]) (by simp)

/-! ## Runs -/

theorem Orderly.initial (eal : Eal) (enabled : LcoreId → ℤ) (pool : List BufPtr)
    (content : BufPtr → BridgeMsg) : Orderly (Threads.initial eal enabled pool content) where
  lock := by simp [Threads.initial]
  lcore l := by
    have running : (Threads.initial eal enabled pool content).system.phase l ≠ .reaped := by
      cases slave : eal.isSlave l <;> simp [Threads.initial, System.initial, slave]
    constructor
    · exact .inl rfl
    · simp [Threads.initial, CallbackPc.critical]
    · simp [Threads.initial, CallbackPc.exiting, CallbackPc.critical]
    · simp [Threads.initial]
    · simp [Threads.initial]
    · exact fun _ reaped => absurd reaped running
    · intro set
      have notSet : (0 : BitVec 32) ≠ slaveRecreateFlag := by decide
      exact absurd set notSet
    · simp [Threads.initial, MainPc.resets?, MainPc.relaunched?]
    · simp [Threads.initial, MainPc.resets?]
    · simp [Threads.initial, MainPc.relaunched?]
    · simp [Threads.initial]

/-- **Every statement keeps the invariant.** -/
theorem Orderly.step (orderly : Orderly s) {a : Statement} (taken : s.step eal a = some t) :
    Orderly t := by
  cases a with
  | action a => exact orderly.action taken
  | callback l => exact orderly.callback taken
  | main launches => exact orderly.main taken

/-- **No exit of a slave is lost, and the master does not wait in vain.** In every state that
the threads reach: when the exit callback of a registered lcore has completed and the lcore
has not been relaunched, its flags are `SLAVE_RECREATE_FLAG`; and when the master, which holds
`mutex_lock`, waits for the thread of an lcore, this thread has finished or finishes with its
next statement, which takes no lock. -/
theorem exit_not_lost (eal : Eal) (enabled : LcoreId → ℤ) (pool : List BufPtr)
    (content : BufPtr → BridgeMsg) {s : Threads}
    (run : Run (Threads.step eal) anyAction (Threads.initial eal enabled pool content) s)
    (l : LcoreId) :
    ((s.system.lcoreResource l).enabled ≠ 0 → s.system.phase l = .reaped →
        (s.system.lcoreResource l).flags = slaveRecreateFlag) ∧
      (s.main = .waiting l → s.mutexLock = some .main ∧
        (s.Finished l ∨ ∃ t, s.step eal (.callback l) = some t ∧ t.Finished l)) := by
  have orderly : Orderly s :=
    run.invariant Orderly (.initial eal enabled pool content) fun orderly _ taken =>
      orderly.step taken
  refine ⟨(orderly.lcore l).requested, fun waiting => ?_⟩
  have reaped : s.system.phase l = .reaped := (orderly.lcore l).reset (by rw [waiting]; rfl)
  refine ⟨orderly.lock.mpr (by simp [waiting]), ?_⟩
  have notExiting : (s.callback l).exiting ≠ true := by
    intro exiting
    exact absurd (reaped.symm.trans ((orderly.lcore l).exiting exiting)) (by simp)
  cases pc : s.callback l with
  | outside => exact .inl ⟨pc, .inl reaped⟩
  | returning =>
      have returns : s.step eal (.callback l) = some (s.setCallback l .outside) := by
        simp [Threads.step, Threads.callbackStep, pc]
      refine .inr ⟨s.setCallback l .outside, returns, ?_, ?_⟩
      · exact Function.update_self ..
      · exact .inl reaped
  | _ => exact absurd (by rw [pc]; rfl) notExiting

/-- The first slave has crashed, its callback has completed, and the master waits for the
thread of lcore 1, which has not finished yet. -/
theorem exit_not_lost_firstSlave :
    ∃ s : Threads, s.main = .waiting 1 ∧ s.callback 1 = .returning ∧
      ((s.system.lcoreResource 1).enabled ≠ 0 → s.system.phase 1 = .reaped →
        (s.system.lcoreResource 1).flags = slaveRecreateFlag) ∧
      (s.main = .waiting 1 → s.mutexLock = some .main ∧
        (s.Finished 1 ∨ ∃ t, s.step threeLcores (.callback 1) = some t ∧ t.Finished 1)) := by
  obtain ⟨s, executed, reached⟩ : ∃ s, exec (Threads.step threeLcores)
      (Threads.initial threeLcores (fun _ => 1) [1, 2, 3] fun _ => ⟨.start, []⟩)
      ([.action (.fork 1), .action (.crash 1)] ++ List.replicate 7 (.callback 1) ++
        List.replicate 8 (.main true)) = some s ∧
        (s.main, s.callback 1) = (.waiting 1, .returning) :=
    Option.map_eq_some_iff.mp (by rfl)
  obtain ⟨main, callback⟩ := Prod.mk.inj reached
  exact ⟨s, main, callback, exit_not_lost threeLcores _ _ _
    (Run.of_exec (fun _ _ _ => trivial) executed) 1⟩

end DdosFiltering.Control
