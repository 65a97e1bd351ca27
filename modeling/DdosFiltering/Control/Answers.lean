import DdosFiltering.Control.Registry

/-!
# Which requests are answered

`main_loop` takes a request out of the ring of a slave and calls `main_set_lcore_cfg`. With
room in the ring and a free buffer, the master sends one message exactly if an enabled entry of
`proc_config` is not used (`request_answered_iff`). Otherwise it sends nothing, although
`bridge_launch_one_lcore` has a branch for a slave without work: the slave waits for a message
that nobody sends, as long as it lives (`unanswered_waits`).
-/

set_option autoImplicit false

namespace DdosFiltering.Control

open Foundation

variable {eal : Eal} {enabled : LcoreId → ℤ} {s t : System} {a : Action} {l : LcoreId}

/-- A `send_cmd` returns 0 when its ring is there and has room, and a buffer is free. -/
theorem sendCmd_returns_zero {table : IpcTable} {mem : IpcMem} {isMaster : Bool}
    (allowed : table.enabled l = true) (created : table.created (sendRing l isMaster) = true)
    (room : (mem.ring (sendRing l isMaster)).length < ringCapacity) (buffer : mem.free ≠ [])
    (msg : BridgeMsg) (k : ℕ) : (sendCmd table mem l msg isMaster k).1 = 0 := by
  have checked : ¬(isMaster && !table.enabled l) = true := by simp [allowed]
  have present : ¬(!table.created (sendRing l isMaster)) = true := by simp [created]
  unfold sendCmd
  rw [if_neg checked, if_neg present]
  cases allocated : mem.mempoolGet k with
  | none => exact absurd (IpcMem.mempoolGet_eq_none.mp allocated) buffer
  | some r =>
      obtain ⟨b, mem'⟩ := r
      obtain ⟨-, same⟩ := IpcMem.mempoolGet_eq_some allocated
      have sameRing : (mem'.write b msg).ring = mem.ring := by rw [same]; rfl
      simp only
      cases enqueued : (mem'.write b msg).ringEnqueue (sendRing l isMaster) b with
      | none =>
          unfold IpcMem.ringEnqueue at enqueued
          rw [sameRing, if_pos room] at enqueued
          exact absurd enqueued (by simp)
      | some mem'' => rfl

/-- An entry of `proc_config` that `main_set_lcore_cfg` may hand out. -/
def System.FreeConf (s : System) (c : LcoreId) : Prop :=
  (s.procConfig c).enabled ≠ 0 ∧ (s.procConfig c).used ≠ 1

theorem findFreeProc_eq_none : s.findFreeProc = none ↔ ¬∃ c, s.FreeConf c := by
  unfold System.findFreeProc System.FreeConf
  rw [List.find?_eq_none]
  constructor
  · rintro noneFound ⟨c, isEnabled, unused⟩
    exact noneFound c (List.mem_finRange c) (by simp [isEnabled, unused])
  · intro noneFree c _
    by_contra found
    simp only [Bool.not_eq_true', Bool.or_eq_false_iff, beq_eq_false_iff_ne] at found
    exact noneFree ⟨c, found.2, found.1⟩

/-- From `s` to `t`, one message with a configuration is added to the ring to the slave `l`, and
nothing else is sent or received. -/
def Answers (s t : System) (l : LcoreId) : Prop :=
  ∃ msg : BridgeMsg, msg.cmd = .cfg ∧
    t.mem.queue = Function.update s.mem.queue (l, 0) (s.mem.queue (l, 0) ++ [msg])

/-- Nothing is sent when the rings are what they were. -/
theorem not_answers (same : t.mem.queue = s.mem.queue) : ¬Answers s t l := by
  rintro ⟨msg, -, added⟩
  have longer := congrArg List.length (congrFun added (l, 0))
  rw [same, Function.update_self, List.length_append, List.length_singleton] at longer
  omega

/-- The answer of the master, with room and a buffer for it. -/
theorem Reached.answers_iff (reached : Reached eal enabled s) (pending : s.pending = some l)
    (room : (s.mem.ring (l, 0)).length < ringCapacity) (buffer : s.mem.free ≠ []) (k : ℕ) :
    ∃ t, s.step eal (.answer k) = some t ∧ (Answers s t l ↔ ∃ c, s.FreeConf c) ∧
      ((¬∃ c, s.FreeConf c) → t.mem.queue = s.mem.queue) := by
  refine ⟨{ (s.mainSetLcoreCfg l k).2 with pending := none }, by simp [System.step, pending], ?_⟩
  unfold System.mainSetLcoreCfg
  cases found : s.findFreeProc with
  | none =>
      have noneFree := findFreeProc_eq_none.mp found
      exact ⟨iff_of_false (not_answers rfl) noneFree, fun _ => rfl⟩
  | some c =>
      have slave := reached.slave_of_pending pending
      have allowed : s.table.enabled l = true := by
        simp [System.table, reached.registered.enabled l, slave]
      have created : s.table.created (sendRing l true) = true := by
        simp [System.table, sendRing, reached.registered.ring l, slave]
      have zero := sendCmd_returns_zero allowed created room buffer (System.reply c) k
      obtain ⟨ret, mem, sent, -, ⟨rfl, queue⟩ | ⟨rfl, -⟩⟩ :=
        sendCmd_spec s.table reached.sound.exclusive l (System.reply c) true k
      · simp only [sent]
        have free : ∃ c, s.FreeConf c := ⟨c, s.findFreeProc_spec found⟩
        exact ⟨iff_of_true ⟨System.reply c, rfl, queue⟩ free, fun noneFree => absurd free noneFree⟩
      · rw [sent] at zero
        exact absurd zero (by simp)

/-- **A request is answered exactly if a configuration is free.** In every state that is
reached, for every request that the master has taken: when the ring to the slave has room and a
buffer is free, the step of the master adds one message with a configuration to the ring if an
enabled configuration is not used, and otherwise sends nothing. -/
theorem request_answered_iff (eal : Eal) (enabled : LcoreId → ℤ) {pool : List BufPtr}
    (distinct : pool.Nodup) (content : BufPtr → BridgeMsg) {s : System}
    (run : Run (System.step eal) anyAction (System.initial eal enabled pool content) s)
    {l : LcoreId} (pending : s.pending = some l)
    (room : (s.mem.ring (l, 0)).length < ringCapacity) (buffer : s.mem.free ≠ []) (k : ℕ) :
    ∃ t, s.step eal (.answer k) = some t ∧
      (Answers s t l ↔ ∃ c, (s.procConfig c).enabled ≠ 0 ∧ (s.procConfig c).used ≠ 1) ∧
      ((¬∃ c, (s.procConfig c).enabled ≠ 0 ∧ (s.procConfig c).used ≠ 1) →
        t.mem.queue = s.mem.queue) :=
  (Reached.of_run eal enabled distinct content run).answers_iff pending room buffer k

/-- The system of `threeLcores` with one enabled configuration. -/
def oneConfig : System :=
  .initial threeLcores (fun c => if c = 0 then 1 else 0) [1, 2, 3] fun _ => ⟨.start, []⟩

/-- The request of the first slave finds configuration 0 free. -/
theorem request_answered_iff_firstSlave :
    ∃ s t : System, s.pending = some 1 ∧ s.step threeLcores (.answer 0) = some t ∧
      (Answers s t 1 ↔ ∃ c, (s.procConfig c).enabled ≠ 0 ∧ (s.procConfig c).used ≠ 1) ∧
      ((¬∃ c, (s.procConfig c).enabled ≠ 0 ∧ (s.procConfig c).used ≠ 1) →
        t.mem.queue = s.mem.queue) := by
  obtain ⟨s, executed, reached⟩ : ∃ s, exec (System.step threeLcores) oneConfig
      (asks 1 3 ++ [.poll 1]) = some s ∧
        (s.pending, s.mem.ring (1, 0), s.mem.free) = (some 1, [], [1, 2, 3]) :=
    Option.map_eq_some_iff.mp (by rfl)
  obtain ⟨pending, rest⟩ := Prod.mk.inj reached
  obtain ⟨ring, free⟩ := Prod.mk.inj rest
  have run : Run (System.step threeLcores) anyAction oneConfig s :=
    .of_exec (fun _ _ _ => trivial) executed
  obtain ⟨t, taken, answers⟩ := request_answered_iff threeLcores _ (by decide) _ run pending
    (by rw [ring]; decide) (by rw [free]; simp) 0
  exact ⟨s, t, pending, taken, answers⟩

/-- Two slaves ask, and one configuration is enabled. The first slave gets it. When the
master takes the request of the second one, it sends nothing. -/
theorem second_slave_not_answered :
    ¬∀ s, Run (System.step threeLcores) anyAction oneConfig s →
      ∀ l, s.pending = some l → (s.mem.ring (l, 0)).length < ringCapacity → s.mem.free ≠ [] →
        ∀ k, ∃ t, s.step threeLcores (.answer k) = some t ∧ Answers s t l := by
  intro claim
  obtain ⟨s, executed, reached⟩ : ∃ s, exec (System.step threeLcores) oneConfig
      (asks 1 3 ++ isAnswered 1 ++ asks 2 4 ++ [.poll 2]) = some s ∧
        (s.pending, s.mem.ring (2, 0), s.mem.free, s.findFreeProc) =
          (some 2, [], [1, 2, 3], none) :=
    Option.map_eq_some_iff.mp (by decide +kernel)
  simp only [Prod.mk.injEq] at reached
  obtain ⟨pending, ring, free, noneFree⟩ := reached
  obtain ⟨t, taken, answers⟩ := claim s (Run.of_exec (fun _ _ _ => trivial) executed) 2 pending
    (by rw [ring]; decide) (by rw [free]; simp) 0
  refine not_answers ?_ answers
  simp only [System.step, pending, System.mainSetLcoreCfg, noneFree, Option.some.injEq] at taken
  rw [← taken]

/-! ## A slave that is not answered -/

/-- The process of `l` is alive after the action. -/
def LivesOn (eal : Eal) (l : LcoreId) (s : System) (a : Action) : Prop :=
  ∀ t, s.step eal a = some t → (t.phase l).alive = true

/-- Nothing but its death happens to a slave that waits while no message is under way. -/
theorem Change.stranded {v : View} {used : LcoreId → ℤ} {f : LcoreId}
    (change : Change s l a v used) (waiting : s.phase l = .waiting f) (quiet : (s.view l).Quiet)
    (alive : v.phase.alive = true) : v = s.view l := by
  have noMessage {msg : BridgeMsg} {rest : List BridgeMsg} :
      (s.view l).toSlave ≠ msg :: rest := by simp [quiet.toSlave]
  have notPending : s.pending ≠ some l := by
    intro pending
    exact absurd (quiet.pending.symm.trans (System.view_pending pending)) (by simp)
  cases change with
  | nothing => rfl
  | proceeds _ allowed =>
      obtain rfl := allowed.of_waiting waiting
      exact absurd alive (by simp [Phase.alive])
  | unregistered _ _ dead | reaped dead => exact absurd (waiting.symm.trans dead) (by simp)
  | requests _ mapped => exact absurd (waiting.symm.trans mapped) (by simp)
  | receives _ _ first | loses _ _ first => exact absurd first noMessage
  | echoes _ running => exact absurd (waiting.symm.trans running) (by simp)
  | polled _ _ first => exact absurd (quiet.toMaster.symm.trans first) (by simp)
  | refused _ pending | answered _ pending => exact absurd pending notPending
  | recreated reaped => exact absurd (waiting.symm.trans reaped) (by simp)

/-- **A slave that is not answered waits as long as it lives.** When the master takes the request
of a waiting slave and no enabled configuration is free, then in every run in which the process
of the slave lives on, it waits, and no message is in its rings or taken by the master. -/
theorem unanswered_waits (reached : Reached eal enabled s) (pending : s.pending = some l)
    {f : LcoreId} (waiting : s.phase l = .waiting f) (noneFree : ¬∃ c, s.FreeConf c) {k : ℕ}
    (taken : s.step eal (.answer k) = some t) {u : System}
    (run : Run (System.step eal) (LivesOn eal l) t u) :
    u.phase l = .waiting f ∧ (u.view l).Quiet := by
  have unanswered : t = { s with pending := none } := by
    simp only [System.step, pending, System.mainSetLcoreCfg, findFreeProc_eq_none.mpr noneFree,
      Option.some.injEq] at taken
    exact taken.symm
  obtain ⟨toSlave, toMaster⟩ :=
    (reached.sound.agreed l).talk.taken_of_pending (System.view_pending pending)
  have start : Sound enabled t ∧ t.phase l = .waiting f ∧ (t.view l).Quiet := by
    refine ⟨reached.sound.step taken, ?_, ?_⟩
    · rw [unanswered]
      exact waiting
    · rw [unanswered]
      exact ⟨toSlave, toMaster, rfl⟩
  refine (run.invariant (fun u => Sound enabled u ∧ u.phase l = .waiting f ∧ (u.view l).Quiet)
    start ?_).2
  intro u w a invariant livesOn step
  obtain ⟨sound, waits, quiet⟩ := invariant
  obtain ⟨here, changed⟩ := step_changed sound.exclusive step
  have view : w.view l = u.view l := by
    by_cases same : l = here
    · subst same
      exact changed.change.stranded waits quiet (livesOn w step)
    · exact changed.others l same
  have phase : w.phase l = u.phase l := congrArg View.phase view
  exact ⟨sound.step step, phase.trans waits, view ▸ quiet⟩

end DdosFiltering.Control
