import DdosFiltering.Control.Threads

/-!
# Who holds which floating lcore id

A slave process holds the id that it has claimed in `lcore_cfg` until it gives it back itself
or dies. `reset_lcore` gives back the id of a dead slave, which it finds in `mapping_id`. It
then clears the entry of `mapping_id` at the floating id and not at the lcore, and a slave
that leaves gives its id back before it clears its entry: `mapping_id[l]` may name an id that
another slave has claimed meanwhile.

As long as `reset_lcore` frees no id that a live slave holds, no two slaves hold the same id
(`floating_ids_exclusive`); without this two slaves may.
-/

set_option autoImplicit false

namespace DdosFiltering.Control

open Foundation

variable {eal : Eal} {s t : Threads} {l : LcoreId}

/-- The slave of `l` is alive and holds the floating id `f`. -/
def HoldsId (s : System) (l f : LcoreId) : Prop := (s.phase l).floating? = some f

/-- Ids that are held are marked in `lcore_cfg`, and nobody shares one. -/
structure DistinctIds (s : System) : Prop where
  marked : ∀ l f, HoldsId s l f → s.lcoreCfg f = true
  unique : ∀ l l' f, HoldsId s l f → HoldsId s l' f → l = l'

/-- The master frees no id that a live slave holds. -/
def KeepsIds (s : Threads) : Statement → Prop
  | .main _ => ∀ l f, s.main = .freeing l f → ∀ l', ¬HoldsId s.system l' f
  | _ => True

/-- Nobody gets an id, and no id that is held is freed. -/
theorem DistinctIds.fewer {s t : System} (distinct : DistinctIds s)
    (holders : ∀ l f, HoldsId t l f → HoldsId s l f)
    (kept : ∀ l f, HoldsId t l f → t.lcoreCfg f = s.lcoreCfg f) : DistinctIds t where
  marked l f holds := (kept l f holds).trans (distinct.marked l f (holders l f holds))
  unique l l' f holds holds' :=
    distinct.unique l l' f (holders l f holds) (holders l' f holds')

/-- A process that has ended, or has not begun, holds no id. -/
theorem DistinctIds.setPhase {s t : System} (distinct : DistinctIds s) {l : LcoreId} {p : Phase}
    (phase : t.phase = Function.update s.phase l p) (none : p.floating? = none)
    (lcoreCfg : t.lcoreCfg = s.lcoreCfg) : DistinctIds t := by
  refine distinct.fewer (fun l' f holds => ?_) fun _ f _ => by rw [lcoreCfg]
  unfold HoldsId at holds ⊢
  rw [phase] at holds
  by_cases here : l' = l
  · subst here
    rw [Function.update_self, none] at holds
    exact absurd holds (by simp)
  · rwa [Function.update_of_ne here] at holds

theorem DistinctIds.congr {s t : System} (distinct : DistinctIds s) (phase : t.phase = s.phase)
    (lcoreCfg : t.lcoreCfg = s.lcoreCfg) : DistinctIds t := by
  refine distinct.fewer (fun l f holds => ?_) fun _ f _ => by rw [lcoreCfg]
  unfold HoldsId at holds ⊢
  rwa [phase] at holds

/-- **A step of a slave keeps the ids apart**: it claims an id that nobody holds, or gives back
its own. -/
theorem DistinctIds.step {s t : System} (distinct : DistinctIds s) {a : Action}
    (other : a.restarts = false) (taken : s.step eal a = some t) : DistinctIds t := by
  obtain ⟨l, others, moves⟩ := step_moves other taken
  have elsewhere {l' f : LcoreId} (away : l' ≠ l) (holds : HoldsId t l' f) : HoldsId s l' f := by
    unfold HoldsId at holds ⊢
    rwa [others l' away] at holds
  have here {f : LcoreId} (holds : HoldsId t l f) : (t.phase l).floating? = some f := holds
  generalize t.phase l = p, lcoreCfg : t.lcoreCfg = cfg at moves here
  cases moves with
  | stays =>
      refine distinct.fewer (fun l' f holds => ?_) fun _ f _ => by rw [lcoreCfg]
      by_cases same : l' = l
      · subst same
        exact here holds
      · exact elsewhere same holds
  | proceeds lasting running floating =>
      refine distinct.fewer (fun l' f holds => ?_) fun _ f _ => by rw [lcoreCfg]
      by_cases same : l' = l
      · subst same
        rcases floating with none | kept
        · exact absurd (none.symm.trans (here holds)) (by simp)
        · exact kept.symm.trans (here holds)
      · exact elsewhere same holds
  | @claims f claiming free =>
      have fresh (l' : LcoreId) : ¬HoldsId s l' f := by
        intro holds
        exact absurd (free.symm.trans (distinct.marked l' f holds)) (by simp)
      have claimed {f' : LcoreId} (holds : HoldsId t l f') : f' = f :=
        (Option.some.inj (here holds)).symm
      constructor
      · intro l' f' holds
        rw [lcoreCfg]
        by_cases same : f' = f
        · subst same
          exact Function.update_self ..
        · rw [Function.update_of_ne same]
          by_cases at_ : l' = l
          · subst at_
            exact absurd (claimed holds) same
          · exact distinct.marked l' f' (elsewhere at_ holds)
      · intro l₁ l₂ f' holds₁ holds₂
        by_cases at₁ : l₁ = l <;> by_cases at₂ : l₂ = l
        · exact at₁.trans at₂.symm
        · subst at₁
          obtain rfl := claimed holds₁
          exact absurd (elsewhere at₂ holds₂) (fresh l₂)
        · subst at₂
          obtain rfl := claimed holds₂
          exact absurd (elsewhere at₁ holds₁) (fresh l₁)
        · exact distinct.unique l₁ l₂ f' (elsewhere at₁ holds₁) (elsewhere at₂ holds₂)
  | @frees f conf leaving =>
      have owner : HoldsId s l f := by
        unfold HoldsId
        rw [leaving]
        rfl
      have before {l' f' : LcoreId} (holds : HoldsId t l' f') : l' ≠ l ∧ HoldsId s l' f' := by
        by_cases same : l' = l
        · subst same
          exact absurd (here holds) (by simp [Phase.floating?])
        · exact ⟨same, elsewhere same holds⟩
      obtain ⟨freed, elsewhereKept, written⟩ := flibFreeLcoreId_writes eal s f
      refine distinct.fewer (fun l' f' holds => (before holds).2) fun l' f' holds => ?_
      rw [lcoreCfg, written]
      apply elsewhereKept f'
      intro same
      subst same
      exact (before holds).1 (distinct.unique l' l f' (before holds).2 owner)

/-- The statements of a callback claim and free no id. -/
theorem DistinctIds.callback (distinct : DistinctIds s.system)
    (taken : s.callbackStep l = some t) : DistinctIds t.system := by
  unfold Threads.callbackStep at taken
  cases pc : s.callback l with
  | outside | locking c =>
      simp only [pc, Option.ite_none_right_eq_some, Option.some.injEq] at taken
      obtain ⟨-, rfl⟩ := taken
      exact distinct
  | entered c =>
      simp only [pc] at taken
      split at taken <;> obtain rfl := Option.some.inj taken
      · exact distinct.setPhase rfl rfl rfl
      · exact distinct
  | testing =>
      simp only [pc] at taken
      split at taken <;> obtain rfl := Option.some.inj taken
      · exact distinct
      · exact distinct
  | unusing c | flagging =>
      simp only [pc, Option.some.injEq] at taken
      subst taken
      exact distinct.congr rfl rfl
  | unlocking =>
      simp only [pc, Option.some.injEq] at taken
      subst taken
      exact distinct.setPhase rfl rfl rfl
  | returning =>
      simp only [pc, Option.some.injEq] at taken
      subst taken
      exact distinct

/-- The statements of the master free an id only in `flib_free_lcore_id`. -/
theorem DistinctIds.main (distinct : DistinctIds s.system) {launches : Bool}
    (keeps : KeepsIds s (.main launches)) (taken : s.mainStep eal launches = some t) :
    DistinctIds t.system := by
  unfold Threads.mainStep at taken
  cases pc : s.main with
  | polling | waiting l =>
      simp only [pc, Option.ite_none_right_eq_some, Option.some.injEq] at taken
      obtain ⟨-, rfl⟩ := taken
      exact distinct
  | scanning i =>
      simp only [pc] at taken
      split at taken
      · split at taken <;> obtain rfl := Option.some.inj taken
        · exact distinct
        · exact distinct
      · obtain rfl := Option.some.inj taken
        exact distinct
  | resetting l =>
      simp only [pc] at taken
      split at taken <;> obtain rfl := Option.some.inj taken
      · exact distinct
      · exact distinct
  | freeing l f =>
      simp only [pc, Option.some.injEq] at taken
      subst taken
      obtain ⟨freed, elsewhereKept, written⟩ := flibFreeLcoreId_writes eal s.system f
      rw [written]
      refine distinct.fewer (fun _ _ holds => holds) fun l' f' holds => ?_
      apply elsewhereKept f'
      intro same
      subst same
      exact keeps l f' pc l' holds
  | testing l | creating l =>
      simp only [pc] at taken
      split at taken <;> obtain rfl := Option.some.inj taken
      · exact distinct.congr rfl rfl
      · exact distinct.congr rfl rfl
  | draining l isMaster =>
      simp only [pc] at taken
      split at taken
      · obtain rfl := Option.some.inj taken
        exact distinct.congr rfl rfl
      · split at taken
        · obtain rfl := Option.some.inj taken
          exact distinct.congr rfl rfl
        · split at taken <;> obtain rfl := Option.some.inj taken
          · exact distinct.congr rfl rfl
          · exact distinct.congr rfl rfl
  | launching l =>
      simp only [pc] at taken
      split at taken <;> obtain rfl := Option.some.inj taken
      · exact distinct.setPhase rfl rfl rfl
      · exact distinct
  | clearing l f | unusing l f | zeroing l | masking l | unlocking =>
      simp only [pc, Option.some.injEq] at taken
      subst taken
      exact distinct.congr rfl rfl

/-! ## Runs -/

theorem DistinctIds.initial (eal : Eal) (enabled : LcoreId → ℤ) (pool : List BufPtr)
    (content : BufPtr → BridgeMsg) :
    DistinctIds (Threads.initial eal enabled pool content).system := by
  have nobody (l f : LcoreId) : ¬HoldsId (System.initial eal enabled pool content) l f := by
    unfold HoldsId
    cases slave : eal.isSlave l <;> simp [System.initial, slave, Phase.floating?]
  exact ⟨fun l f holds => absurd holds (nobody l f), fun l _ f holds => absurd holds (nobody l f)⟩

/-- No two live slave processes hold the same floating lcore id. -/
def Threads.ExclusiveIds (s : Threads) : Prop :=
  ∀ l l' f, HoldsId s.system l f → HoldsId s.system l' f → l = l'

/-- **Unique floating lcore ids**, in every run in which `reset_lcore` frees no id that a live
slave holds. -/
theorem floating_ids_exclusive (eal : Eal) (enabled : LcoreId → ℤ) (pool : List BufPtr)
    (content : BufPtr → BridgeMsg) {s : Threads}
    (run : Run (Threads.step eal) KeepsIds (Threads.initial eal enabled pool content) s) :
    s.ExclusiveIds := by
  have distinct : DistinctIds s.system := by
    refine run.invariant (fun s => DistinctIds s.system) (.initial eal enabled pool content) ?_
    intro t u a distinct keeps taken
    cases a with
    | action a =>
        obtain ⟨other, system, step, rfl⟩ := Threads.step_action taken
        exact distinct.step other step
    | callback l => exact distinct.callback taken
    | main launches => exact distinct.main keeps taken
  exact distinct.unique

/-! ## A stale entry of `mapping_id` -/

/-- Four lcores: the master on lcore 0, and three slaves. -/
def fourLcores : Eal := ⟨fun l => decide (l.val < 4), 0⟩

/-- The threads of `fourLcores`, before any slave has been forked. -/
def threeSlaves : Threads :=
  .initial fourLcores (fun _ => 1) [1, 2, 3] fun _ => ⟨.start, []⟩

/-- A slave claims the first id that is not an lcore of the EAL. -/
def claims (l : LcoreId) (scans : ℕ) : List Statement :=
  .action (.fork l) :: List.replicate scans (.action (.scan l)) ++ [.action (.claim l)]

/-- Three slaves claim an id each. -/
theorem floating_ids_exclusive_threeSlaves :
    ∃ s : Threads, HoldsId s.system 1 4 ∧ HoldsId s.system 2 5 ∧ HoldsId s.system 3 6 ∧
      s.ExclusiveIds := by
  obtain ⟨s, executed, phases⟩ : ∃ s, exec (Threads.step fourLcores) threeSlaves
      (claims 1 4 ++ claims 2 5 ++ claims 3 6) = some s ∧
        (s.system.phase 1, s.system.phase 2, s.system.phase 3) =
          (.assigned 4, .assigned 5, .assigned 6) :=
    Option.map_eq_some_iff.mp (by rfl)
  simp only [Prod.mk.injEq] at phases
  obtain ⟨phase₁, phase₂, phase₃⟩ := phases
  refine ⟨s, by rw [HoldsId, phase₁]; rfl, by rw [HoldsId, phase₂]; rfl,
    by rw [HoldsId, phase₃]; rfl, floating_ids_exclusive fourLcores _ _ _
      (Run.of_exec (fun a member s => ?_) executed)⟩
  cases a with
  | main launches => simp [claims] at member
  | action a | callback l => trivial

/-- The exit callback of a slave that has died. -/
def callsBack (l : LcoreId) : List Statement := List.replicate 8 (.callback l)

/-- The first slave writes its id 4 into `mapping_id[1]` and crashes. It is relaunched,
and `mapping_id[1]` stays 4. The second slave claims 4. The relaunched slave crashes at once,
the master frees 4 again, and the third slave claims 4 as well. -/
theorem two_slaves_one_id :
    ¬∀ s, Run (Threads.step fourLcores) anyAction threeSlaves s → s.ExclusiveIds := by
  intro claim
  obtain ⟨s, executed, phases⟩ : ∃ s, exec (Threads.step fourLcores) threeSlaves
      (claims 1 4 ++ [.action (.map 1), .action (.crash 1)] ++ callsBack 1 ++
        List.replicate 143 (.main true) ++ claims 2 4 ++
        [.action (.fork 1), .action (.crash 1)] ++ callsBack 1 ++
        List.replicate 5 (.main true) ++ claims 3 4) = some s ∧
        (s.system.phase 2, s.system.phase 3) = (.assigned 4, .assigned 4) :=
    Option.map_eq_some_iff.mp (by decide +kernel)
  obtain ⟨phase₂, phase₃⟩ := Prod.mk.inj phases
  have same : (2 : LcoreId) = 3 :=
    claim s (Run.of_exec (fun _ _ _ => trivial) executed) 2 3 4 (by rw [HoldsId, phase₂]; rfl)
      (by rw [HoldsId, phase₃]; rfl)
  exact absurd same (by decide)

end DdosFiltering.Control
