import DdosFiltering.Control.Slaves

/-!
# The dialogue of the master with one slave

What the configuration protocol is about, for one lcore: the phase of its slave, the two
rings, whether the master has taken its request, and its `config_id` (`View`). A step of the
system changes the view of one lcore, and perhaps one `used` flag (`Change`,
`step_changed`); every invariant below is derived from that.

`Agreed` is the invariant of one dialogue: at most one message is under way, and a slave
that runs a packet loop runs with the configuration that the master has noted for it.
-/

set_option autoImplicit false

namespace DdosFiltering.Control

open Foundation
open scoped List

/-- One lcore, as the protocol sees it. -/
@[ext]
structure View where
  phase : Phase
  toSlave : List BridgeMsg
  toMaster : List BridgeMsg
  pending : Bool
  configId : LcoreId
  /-- `lcore_resource[l].enabled` is not 0. -/
  registered : Bool

namespace System

def view (s : System) (l : LcoreId) : View where
  phase := s.phase l
  toSlave := s.mem.queue (l, 0)
  toMaster := s.mem.queue (l, 1)
  pending := s.pending == some l
  configId := (s.lcoreResource l).configId
  registered := decide ((s.lcoreResource l).enabled ≠ 0)

/-- The flags `used` of `proc_config`. -/
def used (s : System) (c : LcoreId) : ℤ := (s.procConfig c).used

/-- The flags `used` after `reset_lcore`, which clears the one at the floating lcore id. -/
def usedAfterReset (s : System) (l : LcoreId) : LcoreId → ℤ :=
  match s.mappingId l with
  | none => s.used
  | some mapId => Function.update s.used mapId 0

end System

/-- The steps of a slave, and of the thread of its lcore, that concern no message. -/
inductive Phase.Proceeds : Phase → Phase → Prop where
  | fork : Proceeds .launched (.scanning 1)
  | forkFails : Proceeds .launched .stopped
  | scan (i j : ℕ) : Proceeds (.scanning i) (.scanning j)
  | found (i : ℕ) (f : LcoreId) : Proceeds (.scanning i) (.claiming f)
  | claim (f : LcoreId) : Proceeds (.claiming f) (.assigned f)
  | rescan (f : LcoreId) : Proceeds (.claiming f) (.scanning 1)
  | map (f : LcoreId) : Proceeds (.assigned f) (.mapped f)
  | leave (f : LcoreId) (conf : UInt8) : Proceeds (.running f conf) (.leaving f conf)
  | free (f : LcoreId) (conf : UInt8) : Proceeds (.leaving f conf) (.freed conf)
  | unmap (conf : UInt8) : Proceeds (.freed conf) (.unmapped conf)
  | die {p : Phase} (alive : p.alive = true) : Proceeds p .dead

/-- A slave that waits for its answer only dies without a message. -/
theorem Phase.Proceeds.of_waiting {p p' : Phase} (proceeds : p.Proceeds p') {f : LcoreId}
    (waiting : p = .waiting f) : p' = .dead := by
  subst waiting
  cases proceeds
  rfl

/-- What a step does to the view of `l` and to the flags `used`. -/
inductive Change (s : System) (l : LcoreId) : Action → View → (LcoreId → ℤ) → Prop where
  | nothing (a : Action) : Change s l a (s.view l) s.used
  | proceeds (a : Action) {p : Phase} (allowed : (s.phase l).Proceeds p) :
      Change s l a { s.view l with phase := p } s.used
  | unregistered (a : Action) (unknown : (s.view l).registered = false) (dead : s.phase l = .dead) :
      Change s l a { s.view l with phase := .reaped } s.used
  | requests (a : Action) {f : LcoreId} {msgs : List BridgeMsg} (mapped : s.phase l = .mapped f)
      (sent : msgs = (s.view l).toMaster ∨ msgs = (s.view l).toMaster ++ [System.request]) :
      Change s l a { s.view l with phase := .waiting f, toMaster := msgs } s.used
  | receives (a : Action) {f : LcoreId} {msg : BridgeMsg} {rest : List BridgeMsg}
      (waiting : s.phase l = .waiting f) (first : (s.view l).toSlave = msg :: rest) :
      Change s l a
        { s.view l with
          phase := if msg.cmd = .cfg then .running f (confId msg.msg) else .waiting f
          toSlave := rest } s.used
  | echoes (a : Action) {f : LcoreId} {conf : UInt8} {msg : BridgeMsg}
      {rest msgs : List BridgeMsg} {p : Phase} (running : s.phase l = .running f conf)
      (first : (s.view l).toSlave = msg :: rest) :
      Change s l a { s.view l with phase := p, toSlave := rest, toMaster := msgs } s.used
  | loses (a : Action) {msg : BridgeMsg} {rest : List BridgeMsg}
      (alive : (s.phase l).alive = true) (first : (s.view l).toSlave = msg :: rest) :
      Change s l a { s.view l with phase := .dead, toSlave := rest } s.used
  | polled (a : Action) {msg : BridgeMsg} {rest : List BridgeMsg} (idle : s.pending = none)
      (first : (s.view l).toMaster = msg :: rest) :
      Change s l a { s.view l with toMaster := rest, pending := decide (msg.cmd = .cfg) } s.used
  | refused (a : Action) (pending : s.pending = some l) :
      Change s l a { s.view l with pending := false } s.used
  | answered (k : ℕ) {c : LcoreId} (pending : s.pending = some l)
      (enabled : (s.procConfig c).enabled ≠ 0) (unused : s.used c ≠ 1)
      (allocated : s.mem.free ≠ []) :
      Change s l (.answer k)
        { s.view l with
          pending := false
          toSlave := (s.view l).toSlave ++ [System.reply c]
          configId := c } (Function.update s.used c 1)
  | reaped (dead : s.phase l = .dead) :
      Change s l (.exitCb l) { s.view l with phase := .reaped }
        (Function.update s.used (s.view l).configId 0)
  | recreated {p : Phase} (reaped : s.phase l = .reaped) (idle : s.pending = none)
      (launched : p = .launched ∨ p = .reaped) :
      Change s l (.recreate l) { s.view l with phase := p, toSlave := [], toMaster := [] }
        (s.usedAfterReset l)

/-- The action `a` leads from `s` to `t` and concerns `l`. -/
structure Changed (s t : System) (a : Action) (l : LcoreId) : Prop where
  exclusive : t.mem.Exclusive
  enabled : ∀ c, (t.procConfig c).enabled = (s.procConfig c).enabled
  others : ∀ l', l' ≠ l → t.view l' = s.view l'
  change : Change s l a (t.view l) t.used

variable {eal : Eal} {s t : System}

/-- No step registers an lcore. -/
theorem Change.registered {l : LcoreId} {a : Action} {v : View} {used : LcoreId → ℤ}
    (change : Change s l a v used) :
    v.registered = (s.view l).registered := by
  cases change <;> rfl

/-- Where there is a slave after a step, there was one before. -/
theorem Change.present {l : LcoreId} {a : Action} {v : View} {used : LcoreId → ℤ}
    (change : Change s l a v used)
    (present : v.phase ≠ .stopped) : s.phase l ≠ .stopped := by
  intro stopped
  cases change with
  | nothing | polled | refused | answered => exact present stopped
  | proceeds _ allowed =>
      rw [stopped] at allowed
      cases allowed with
      | die alive => exact absurd alive nofun
  | unregistered _ _ dead | reaped dead => exact absurd (stopped.symm.trans dead) nofun
  | requests _ mapped => exact absurd (stopped.symm.trans mapped) nofun
  | receives _ waiting => exact absurd (stopped.symm.trans waiting) nofun
  | echoes _ running => exact absurd (stopped.symm.trans running) nofun
  | loses _ alive =>
      rw [stopped] at alive
      exact absurd alive nofun
  | recreated reaped => exact absurd (stopped.symm.trans reaped) nofun

/-! ## Every action changes one view -/

theorem System.view_eq {l : LcoreId} (phase : t.phase l = s.phase l)
    (queue : ∀ fd, t.mem.queue (l, fd) = s.mem.queue (l, fd))
    (pending : (t.pending == some l) = (s.pending == some l))
    (configId : (t.lcoreResource l).configId = (s.lcoreResource l).configId)
    (enabled : (t.lcoreResource l).enabled = (s.lcoreResource l).enabled) :
    t.view l = s.view l :=
  View.ext phase (queue 0) (queue 1) pending configId (by simp [System.view, enabled])

/-- A step that changes no message, no flag and only the phase of `l`. -/
theorem Changed.setPhase (exclusive : s.mem.Exclusive) (a : Action) {l : LcoreId} {p : Phase}
    (allowed : (s.phase l).Proceeds p) (mem : t.mem = s.mem)
    (procConfig : t.procConfig = s.procConfig) (lcoreResource : t.lcoreResource = s.lcoreResource)
    (pending : t.pending = s.pending) (phase : t.phase = Function.update s.phase l p) :
    Changed s t a l where
  exclusive := mem ▸ exclusive
  enabled c := by rw [procConfig]
  others l' other := by
    refine System.view_eq ?_ (fun fd => by rw [mem]) (by rw [pending]) (by rw [lcoreResource])
      (by rw [lcoreResource])
    rw [phase, Function.update_of_ne other]
  change := by
    have view : t.view l = { s.view l with phase := p } := by
      refine View.ext ?_ ?_ ?_ ?_ ?_ ?_
      · simp [System.view, phase]
      · simp [System.view, mem]
      · simp [System.view, mem]
      · simp [System.view, pending]
      · simp [System.view, lcoreResource]
      · simp [System.view, lcoreResource]
    have used : t.used = s.used := by
      funext c
      rw [System.used, procConfig, System.used]
    rw [view, used]
    exact .proceeds a allowed

/-- A step that does something to the rings and the phase of `l`, and to no flag. -/
theorem Changed.messages {l : LcoreId} {a : Action} (toSlave toMaster : List BridgeMsg)
    (exclusive : t.mem.Exclusive) (procConfig : t.procConfig = s.procConfig)
    (lcoreResource : t.lcoreResource = s.lcoreResource)
    (phase : ∀ l', l' ≠ l → t.phase l' = s.phase l')
    (pending : ∀ l', l' ≠ l → (t.pending == some l') = (s.pending == some l'))
    (queue : t.mem.queue = Function.update (Function.update s.mem.queue (l, 0) toSlave) (l, 1)
      toMaster)
    (change : Change s l a
      { s.view l with
        phase := t.phase l, toSlave, toMaster, pending := t.pending == some l } s.used) :
    Changed s t a l where
  exclusive := exclusive
  enabled c := by rw [procConfig]
  others l' other := by
    refine System.view_eq (phase l' other) (fun fd => ?_) (pending l' other)
      (by rw [lcoreResource]) (by rw [lcoreResource])
    rw [queue, Function.update_of_ne (fun same => other (congrArg Prod.fst same)),
      Function.update_of_ne (fun same => other (congrArg Prod.fst same))]
  change := by
    have view : t.view l =
        { s.view l with
          phase := t.phase l, toSlave, toMaster, pending := t.pending == some l } := by
      refine View.ext rfl ?_ ?_ rfl ?_ ?_
      · simp [System.view, queue]
      · simp [System.view, queue]
      · simp [System.view, lcoreResource]
      · simp [System.view, lcoreResource]
    have used : t.used = s.used := by
      funext c
      rw [System.used, procConfig, System.used]
    rw [view, used]
    exact change

/-- The two rings of `l`, when one of them is updated. -/
theorem queue_update_toMaster (queue : Ring → List BridgeMsg) (l : LcoreId)
    (msgs : List BridgeMsg) :
    Function.update queue (l, 1) msgs =
      Function.update (Function.update queue (l, 0) (queue (l, 0))) (l, 1) msgs := by
  rw [Function.update_eq_self]

theorem queue_update_toSlave (queue : Ring → List BridgeMsg) (l : LcoreId)
    (msgs : List BridgeMsg) :
    Function.update queue (l, 0) msgs =
      Function.update (Function.update queue (l, 0) msgs) (l, 1) (queue (l, 1)) := by
  have different : ((l, 1) : Ring) ≠ (l, 0) := by simp
  conv_rhs => rw [← Function.update_of_ne different msgs queue, Function.update_eq_self]

theorem queue_update_none (queue : Ring → List BridgeMsg) (l : LcoreId) :
    queue = Function.update (Function.update queue (l, 0) (queue (l, 0))) (l, 1)
      (queue (l, 1)) := by
  rw [Function.update_eq_self, Function.update_eq_self]

/-! ### The slave's actions -/

/-- The shared memory after a `send_cmd` of the slave. -/
theorem slaveSend_queue (table : IpcTable) {mem : IpcMem} (exclusive : mem.Exclusive)
    (l : LcoreId) (msg : BridgeMsg) (k : ℕ) :
    ∃ msgs, (msgs = mem.queue (l, 1) ∨ msgs = mem.queue (l, 1) ++ [msg]) ∧
      (sendCmd table mem l msg false k).2.Exclusive ∧
      (sendCmd table mem l msg false k).2.queue = Function.update mem.queue (l, 1) msgs := by
  obtain ⟨ret, mem', sent, kept, ⟨-, queue⟩ | ⟨-, queue, -, -⟩⟩ :=
    sendCmd_spec table exclusive l msg false k
  · rw [sent]
    exact ⟨_, .inr rfl, exclusive.perm kept, queue⟩
  · rw [sent]
    exact ⟨_, .inl rfl, exclusive.perm kept, by rw [queue, Function.update_eq_self]⟩

theorem changed_request (exclusive : s.mem.Exclusive) {l f : LcoreId} (k : ℕ)
    (mapped : s.phase l = .mapped f) :
    Changed s ({ s with mem := (sendCmd s.table s.mem l System.request false k).2 }.setPhase l
      (.waiting f)) (.request l k) l := by
  obtain ⟨msgs, sent, exclusive', queue⟩ := slaveSend_queue s.table exclusive l System.request k
  refine .messages (s.mem.queue (l, 0)) msgs exclusive' rfl rfl
    (fun l' other => Function.update_of_ne other _ _) (fun _ _ => rfl) ?_ ?_
  · rw [← queue_update_toMaster]
    exact queue
  · have phase : (Function.update s.phase l (.waiting f)) l = .waiting f :=
      Function.update_self ..
    simp only [System.setPhase, phase]
    exact .requests _ mapped sent

/-- A step that leaves everything the protocol sees as it is. -/
theorem Changed.nothing (exclusive : s.mem.Exclusive) (a : Action) (l : LcoreId) :
    Changed s s a l := ⟨exclusive, fun _ => rfl, fun _ _ => rfl, .nothing a⟩

theorem changed_receive (exclusive : s.mem.Exclusive) {l f : LcoreId}
    (waiting : s.phase l = .waiting f) : Changed s (s.slaveReceive l f) (.receive l) l := by
  unfold System.slaveReceive
  obtain ⟨msg, rest, mem, got, first, kept, queue⟩ | ⟨e, got⟩ := getCmd_spec s.table s.mem l false
  · rw [got]
    have change := Change.receives (s := s) (l := l) (.receive l) waiting first
    by_cases config : msg.cmd = .cfg
    · have asked : msg.cmd = System.request.cmd := config
      simp only [if_pos config] at change
      simp only [if_pos asked]
      refine .messages rest (s.mem.queue (l, 1)) (exclusive.perm kept) rfl
        rfl (fun l' other => Function.update_of_ne other _ _) (fun _ _ => rfl) ?_ ?_
      · rw [← queue_update_toSlave]
        exact queue
      · have phase : (Function.update s.phase l (.running f (confId msg.msg))) l =
            .running f (confId msg.msg) := Function.update_self ..
        simp only [System.setPhase, phase]
        exact change
    · have other : ¬msg.cmd = System.request.cmd := config
      simp only [if_neg config] at change
      simp only [if_neg other]
      refine .messages rest (s.mem.queue (l, 1)) (exclusive.perm kept) rfl
        rfl (fun _ _ => rfl) (fun _ _ => rfl) ?_ ?_
      · rw [← queue_update_toSlave]
        exact queue
      · rw [← waiting] at change
        exact change
  · rw [got]
    exact .nothing exclusive _ l

theorem changed_echo (exclusive : s.mem.Exclusive) {l f : LcoreId} {conf : UInt8} (k : ℕ)
    (running : s.phase l = .running f conf) :
    Changed s (s.slaveEcho l f conf k) (.echo l k) l := by
  unfold System.slaveEcho
  obtain ⟨msg, rest, mem, got, first, kept, queue⟩ | ⟨e, got⟩ := getCmd_spec s.table s.mem l false
  · rw [got]
    obtain ⟨msgs, -, exclusive', sent⟩ :=
      slaveSend_queue s.table (exclusive.perm kept) l msg k
    have queue' : (sendCmd s.table mem l msg false k).2.queue =
        Function.update (Function.update s.mem.queue (l, 0) rest) (l, 1) msgs := by
      rw [sent, queue]
      rfl
    by_cases stop : msg.cmd = .stop
    · simp only [if_pos stop]
      exact .messages rest msgs exclusive' rfl rfl
        (fun l' other => Function.update_of_ne other _ _) (fun _ _ => rfl) queue'
        (.echoes _ running first)
    · simp only [if_neg stop]
      exact .messages rest msgs exclusive' rfl rfl (fun _ _ => rfl)
        (fun _ _ => rfl) queue' (.echoes _ running first)
  · rw [got]
    exact .nothing exclusive _ l

theorem changed_crashAllocated (exclusive : s.mem.Exclusive) {l : LcoreId} {k : ℕ} {b : BufPtr}
    {mem : IpcMem} (alive : (s.phase l).alive = true) (got : s.mem.mempoolGet k = some (b, mem)) :
    Changed s ({ s with mem }.setPhase l .dead) (.crashAllocated l k) l := by
  obtain ⟨taken, same⟩ := IpcMem.mempoolGet_eq_some got
  have exclusive' : mem.Exclusive := by
    have nodup : (b :: mem.free ++ s.mem.queued).Nodup :=
      (taken.append_right _).nodup_iff.mp exclusive
    have sameQueued : mem.queued = s.mem.queued := by rw [same]; rfl
    rw [IpcMem.Exclusive, sameQueued]
    exact (List.nodup_cons.mp nodup).2
  have queue : mem.queue = s.mem.queue := by rw [same]; rfl
  refine .messages (s.mem.queue (l, 0)) (s.mem.queue (l, 1)) exclusive' rfl
    rfl (fun l' other => Function.update_of_ne other _ _) (fun _ _ => rfl) ?_ ?_
  · rw [← queue_update_none]
    exact queue
  · have phase : (Function.update s.phase l .dead) l = .dead := Function.update_self ..
    simp only [System.setPhase, phase]
    exact .proceeds _ (.die alive)

theorem changed_crashDequeued (exclusive : s.mem.Exclusive) {l : LcoreId} {b : BufPtr}
    {mem : IpcMem} (alive : (s.phase l).alive = true)
    (got : s.mem.ringDequeue (getRing l false) = some (b, mem)) :
    Changed s ({ s with mem }.setPhase l .dead) (.crashDequeued l) l := by
  obtain ⟨rest, holds, same⟩ := IpcMem.ringDequeue_eq_some got
  obtain ⟨first, others⟩ := IpcMem.queue_dequeue holds
  have exclusive' : mem.Exclusive := by
    have removed := IpcMem.queued_dequeue holds
    rw [← same] at removed
    have sameFree : mem.free = s.mem.free := by rw [same]
    have nodup : (b :: (mem.free ++ mem.queued)).Nodup := by
      rw [sameFree]
      exact (List.perm_middle.symm.trans (removed.symm.append_left _)).nodup_iff.mpr exclusive
    exact (List.nodup_cons.mp nodup).2
  refine .messages (rest.map s.mem.content) (s.mem.queue (l, 1)) exclusive'
    rfl rfl (fun l' other => Function.update_of_ne other _ _) (fun _ _ => rfl) ?_ ?_
  · rw [← queue_update_toSlave, same]
    exact others
  · have phase : (Function.update s.phase l .dead) l = .dead := Function.update_self ..
    simp only [System.setPhase, phase]
    exact .loses _ alive first

/-! ### The master's actions -/

theorem changed_poll (exclusive : s.mem.Exclusive) (l : LcoreId) (idle : s.pending = none) :
    Changed s (s.masterPoll l) (.poll l) l := by
  unfold System.masterPoll
  obtain ⟨msg, rest, mem, got, first, kept, queue⟩ | ⟨e, got⟩ := getCmd_spec s.table s.mem l true
  · rw [got]
    have change := Change.polled (s := s) (l := l) (.poll l) idle first
    by_cases config : msg.cmd = .cfg
    · simp only [config, decide_true] at change ⊢
      refine .messages (s.mem.queue (l, 0)) rest (exclusive.perm kept) rfl
        rfl (fun _ _ => rfl) (fun l' other => ?_) ?_ ?_
      · simp [idle, Ne.symm other]
      · rw [← queue_update_toMaster]
        exact queue
      · simpa [System.view] using change
    · simp only [config, decide_false] at change ⊢
      refine .messages (s.mem.queue (l, 0)) rest (exclusive.perm kept) rfl
        rfl (fun _ _ => rfl) (fun _ _ => rfl) ?_ ?_
      · rw [← queue_update_toMaster]
        exact queue
      · simpa [System.view, idle] using change
  · rw [got]
    exact .nothing exclusive _ l

/-- The entry that `main_set_lcore_cfg` picks is enabled and not used. -/
theorem System.findFreeProc_spec {c : LcoreId} (found : s.findFreeProc = some c) :
    (s.procConfig c).enabled ≠ 0 ∧ s.used c ≠ 1 := by
  have free := List.find?_some found
  simp only [Bool.not_eq_true', Bool.or_eq_false_iff, beq_eq_false_iff_ne] at free
  exact ⟨free.2, free.1⟩

/-- A `send_cmd` that returns 0 has found a free buffer. -/
theorem free_ne_nil_of_sendCmd {table : IpcTable} {mem mem' : IpcMem} {l : LcoreId}
    {msg : BridgeMsg} {isMaster : Bool} {k : ℕ}
    (sent : sendCmd table mem l msg isMaster k = (0, mem')) : mem.free ≠ [] := by
  intro empty
  unfold sendCmd at sent
  rw [IpcMem.mempoolGet_eq_none.mpr empty] at sent
  split at sent
  · simp at sent
  · split at sent <;> simp at sent

theorem changed_answer (exclusive : s.mem.Exclusive) {l : LcoreId} (k : ℕ)
    (pending : s.pending = some l) :
    Changed s { (s.mainSetLcoreCfg l k).2 with pending := none } (.answer k) l := by
  have others (l' : LcoreId) (other : l' ≠ l) : ((none : Option LcoreId) == some l') =
      (s.pending == some l') := by
    simp [pending, Ne.symm other]
  have refusal (mem : IpcMem) (exclusive' : mem.Exclusive) (queue : mem.queue = s.mem.queue) :
      Changed s { s with mem, pending := none } (.answer k) l :=
    .messages (s.mem.queue (l, 0)) (s.mem.queue (l, 1)) exclusive' rfl rfl
      (fun _ _ => rfl) others (by rw [← queue_update_none]; exact queue)
      (.refused _ pending)
  unfold System.mainSetLcoreCfg
  cases found : s.findFreeProc with
  | none => exact refusal s.mem exclusive rfl
  | some c =>
      obtain ⟨ret, mem, sent, kept, ⟨rfl, queue⟩ | ⟨rfl, queue, -, -⟩⟩ :=
        sendCmd_spec s.table exclusive l (System.reply c) true k
      · have allocated := free_ne_nil_of_sendCmd sent
        simp only [sent]
        obtain ⟨enabled, unused⟩ := s.findFreeProc_spec found
        have ring : sendRing l true = (l, 0) := rfl
        rw [ring] at queue
        refine ⟨exclusive.perm kept, fun c' => ?_, fun l' other => ?_, ?_⟩
        · by_cases same : c' = c
          · subst same
            simp [System.setUsed, System.setConfigId]
          · simp [System.setUsed, System.setConfigId, Function.update_of_ne same]
        · refine System.view_eq rfl (fun fd => ?_) (others l' other) ?_ ?_
          · have different : ((l', fd) : Ring) ≠ (l, 0) := fun same =>
              other (congrArg Prod.fst same)
            exact (congrFun queue (l', fd)).trans (Function.update_of_ne different _ _)
          · simp [System.setUsed, System.setConfigId, Function.update_of_ne other]
          · simp [System.setUsed, System.setConfigId, Function.update_of_ne other]
        · have answered := Change.answered (s := s) k pending enabled unused allocated
          have view : System.view { (((({ s with mem } : System).setUsed c 1).setConfigId l c)) with
              procConfigUsedNb := s.procConfigUsedNb + 1, pending := none } l =
              { s.view l with
                pending := false
                toSlave := (s.view l).toSlave ++ [System.reply c]
                configId := c } := by
            refine View.ext rfl ?_ ?_ rfl ?_ ?_
            · exact (congrFun queue (l, 0)).trans (Function.update_self ..)
            · exact (congrFun queue (l, 1)).trans
                (Function.update_of_ne (by simp) _ _)
            · simp [System.view, System.setConfigId, System.setUsed]
            · simp [System.view, System.setConfigId, System.setUsed]
          have used : System.used { (((({ s with mem } : System).setUsed c 1).setConfigId l c)) with
              procConfigUsedNb := s.procConfigUsedNb + 1, pending := none } =
              Function.update s.used c 1 := by
            funext c'
            by_cases same : c' = c
            · subst same
              simp [System.used, System.setConfigId, System.setUsed]
            · simp [System.used, System.setConfigId, System.setUsed, Function.update_of_ne same]
          rw [← view, ← used] at answered
          exact answered
      · simp only [sent]
        exact refusal mem (exclusive.perm kept) queue

theorem changed_exitCb (exclusive : s.mem.Exclusive) {l : LcoreId} (dead : s.phase l = .dead) :
    Changed s ((s.slaveExitCb l).setPhase l .reaped) (.exitCb l) l := by
  unfold System.slaveExitCb
  by_cases disabled : (s.lcoreResource l).enabled = 0
  · simp only [if_pos disabled]
    have unknown : (s.view l).registered = false := by simp [System.view, disabled]
    refine .messages (s.mem.queue (l, 0)) (s.mem.queue (l, 1)) exclusive
      rfl rfl (fun l' other => Function.update_of_ne other _ _) (fun _ _ => rfl)
      (queue_update_none _ l) ?_
    have phase : (Function.update s.phase l .reaped) l = .reaped := Function.update_self ..
    simp only [System.setPhase, phase]
    exact .unregistered _ unknown dead
  · simp only [if_neg disabled]
    have change := Change.reaped (s := s) dead
    -- The flags are not part of the view.
    have concludes (t : System) (mem : t.mem = s.mem) (pending : t.pending = s.pending)
        (phase : t.phase = s.phase)
        (procConfig : t.procConfig = (s.setUsed (s.lcoreResource l).configId 0).procConfig)
        (configId : ∀ l', (t.lcoreResource l').configId = (s.lcoreResource l').configId)
        (enabled : ∀ l', (t.lcoreResource l').enabled = (s.lcoreResource l').enabled) :
        Changed s (t.setPhase l .reaped) (.exitCb l) l := by
      have view : (t.setPhase l .reaped).view l = { s.view l with phase := .reaped } := by
        refine View.ext ?_ ?_ ?_ ?_ (configId l) (by simp [System.view, System.setPhase, enabled])
        · simp [System.view, System.setPhase]
        · simp [System.view, System.setPhase, mem]
        · simp [System.view, System.setPhase, mem]
        · simp [System.view, System.setPhase, pending]
      have used : (t.setPhase l .reaped).used =
          Function.update s.used (s.view l).configId 0 := by
        funext c
        by_cases same : c = (s.lcoreResource l).configId
        · subst same
          simp [System.used, System.setPhase, procConfig, System.setUsed, System.view]
        · simp [System.used, System.setPhase, procConfig, System.setUsed, System.view,
            Function.update_of_ne same]
      refine ⟨mem ▸ exclusive, fun c => ?_, fun l' other => ?_, ?_⟩
      · by_cases same : c = (s.lcoreResource l).configId
        · subst same
          simp [System.setPhase, procConfig, System.setUsed]
        · simp [System.setPhase, procConfig, System.setUsed, Function.update_of_ne same]
      · refine System.view_eq ?_ (fun fd => ?_) ?_ (configId l') (enabled l')
        · simp [System.setPhase, Function.update_of_ne other, phase]
        · simp [System.setPhase, mem]
        · simp [System.setPhase, pending]
      · rw [view, used]
        exact change
    split
    · refine concludes _ rfl rfl rfl rfl (fun l' => ?_) (fun l' => ?_) <;>
        by_cases same : l' = l
      · subst same
        simp [System.setFlags, System.setUsed]
      · simp [System.setFlags, System.setUsed, Function.update_of_ne same]
      · subst same
        simp [System.setFlags, System.setUsed]
      · simp [System.setFlags, System.setUsed, Function.update_of_ne same]
    · exact concludes _ rfl rfl rfl rfl (fun _ => rfl) fun _ => rfl

/-- An allowed `get_cmd` fails only on an empty ring. -/
theorem queue_eq_nil_of_getCmd {table : IpcTable} {mem mem' : IpcMem} {l : LcoreId}
    {isMaster : Bool} {e : ℤ} (enabled : table.enabled l = true)
    (created : table.created (getRing l isMaster) = true)
    (failed : getCmd table mem l isMaster = (.error e, mem')) :
    mem.queue (getRing l isMaster) = [] := by
  unfold getCmd at failed
  rw [if_neg (by simp [enabled]), if_neg (by simp [created])] at failed
  cases dequeued : mem.ringDequeue (getRing l isMaster) with
  | none => rw [IpcMem.queue, IpcMem.ringDequeue_eq_none.mp dequeued, List.map_nil]
  | some r => simp [dequeued] at failed

/-- **A drain empties its ring.** By induction on the length of the ring. -/
theorem drain_spec {table : IpcTable} {l : LcoreId} {isMaster : Bool}
    (enabled : table.enabled l = true) (created : table.created (getRing l isMaster) = true)
    {n : ℕ} {mem : IpcMem} (exclusive : mem.Exclusive)
    (length : (mem.ring (getRing l isMaster)).length = n) :
    (System.drain table l isMaster n mem).Exclusive ∧
      (System.drain table l isMaster n mem).queue =
        Function.update mem.queue (getRing l isMaster) [] := by
  induction n generalizing mem with
  | zero =>
      have empty : mem.queue (getRing l isMaster) = [] := by
        rw [IpcMem.queue, List.length_eq_zero_iff.mp length, List.map_nil]
      rw [← empty, Function.update_eq_self]
      exact ⟨exclusive, rfl⟩
  | succ n inductionHypothesis =>
      have queueLength : (mem.queue (getRing l isMaster)).length = n + 1 := by
        rw [IpcMem.queue, List.length_map, length]
      rw [System.drain]
      obtain ⟨msg, rest, mem', got, first, kept, queue⟩ | ⟨e, got⟩ :=
        getCmd_spec table mem l isMaster
      · simp only [got]
        have shorter : (mem'.ring (getRing l isMaster)).length = n := by
          have taken : (mem'.queue (getRing l isMaster)).length = n := by
            rw [first, List.length_cons] at queueLength
            rw [queue, Function.update_self]
            omega
          rwa [IpcMem.queue, List.length_map] at taken
        obtain ⟨exclusive', drained⟩ := inductionHypothesis (exclusive.perm kept) shorter
        exact ⟨exclusive', by rw [drained, queue, Function.update_idem]⟩
      · rw [queue_eq_nil_of_getCmd enabled created got] at queueLength
        exact absurd queueLength (by simp)

/-- `init_slave_res` empties both rings of an enabled lcore. -/
theorem initSlaveRes_spec (exclusive : s.mem.Exclusive) {l : LcoreId}
    (enabled : (s.lcoreResource l).enabled ≠ 0) :
    ∃ mem, s.initSlaveRes l = (0, { s.createMsRing l with mem }) ∧ mem.Exclusive ∧
      mem.queue = Function.update (Function.update s.mem.queue (l, 0) []) (l, 1) [] := by
  have enabled' : (s.createMsRing l).table.enabled l = true := by
    simp [System.table, System.createMsRing, enabled]
  have created (isMaster : Bool) :
      (s.createMsRing l).table.created (getRing l isMaster) = true := by
    simp [System.table, System.createMsRing, getRing]
  obtain ⟨exclusive₁, queue₁⟩ := drain_spec enabled' (created true) exclusive rfl
  obtain ⟨exclusive₂, queue₂⟩ := drain_spec enabled' (created false) exclusive₁ rfl
  refine ⟨_, ?_, exclusive₂, ?_⟩
  · rw [System.initSlaveRes, if_neg enabled]
    rfl
  · rw [queue₂, queue₁]
    exact Function.update_comm (by simp [getRing]) _ _ _

/-- What `reset_lcore`, called for a slave to be recreated, does to the protocol. -/
theorem recreate_spec (eal : Eal) (exclusive : s.mem.Exclusive) {l : LcoreId}
    (must : s.mustRecreate l = true) (reaped : s.phase l = .reaped) :
    ∃ p, (p = .launched ∨ p = .reaped) ∧ (s.recreate eal l).mem.Exclusive ∧
      (s.recreate eal l).mem.queue =
        Function.update (Function.update s.mem.queue (l, 0) []) (l, 1) [] ∧
      (s.recreate eal l).phase = Function.update s.phase l p ∧
      (s.recreate eal l).pending = s.pending ∧
      (s.recreate eal l).procConfig = (s.returnMappingId eal l).procConfig ∧
      (∀ l', ((s.recreate eal l).lcoreResource l').configId = (s.lcoreResource l').configId) ∧
      ∀ l', ((s.recreate eal l).lcoreResource l').enabled = (s.lcoreResource l').enabled := by
  have enabled : (s.lcoreResource l).enabled = 1 := by
    simp only [System.mustRecreate, Bool.and_eq_true, beq_iff_eq] at must
    exact must.1
  obtain ⟨mem, lcoreResource, phase, pending⟩ :
      (s.returnMappingId eal l).mem = s.mem ∧
      (s.returnMappingId eal l).lcoreResource = s.lcoreResource ∧
      (s.returnMappingId eal l).phase = s.phase ∧
      (s.returnMappingId eal l).pending = s.pending := by
    obtain ⟨procConfig, mappingId, lcoreCfg, written⟩ := returnMappingId_writes eal s l
    rw [written]
    exact ⟨rfl, rfl, rfl, rfl⟩
  have unfolded : s.recreate eal l = (let r := (s.returnMappingId eal l).recreateOneSlave eal l
      if r.1 ≠ 0 then r.2
      else (r.2.setFlags l 0).setFlags l
        (((r.2.setFlags l 0).lcoreResource l).flags &&& ~~~slaveRecreateFlag)) := by
    have reset : s.resetLcore eal l = (let r := (s.returnMappingId eal l).recreateOneSlave eal l
        if r.1 ≠ 0 then (-1, r.2) else (0, r.2.setFlags l 0)) := by
      have enabled' : ((s.returnMappingId eal l).lcoreResource l).enabled = 1 := by
        rw [lcoreResource, enabled]
      unfold System.resetLcore
      simp only [floatProc, if_true]
      exact if_pos enabled'
    rw [System.recreate, reset]
    by_cases failed : ((s.returnMappingId eal l).recreateOneSlave eal l).1 ≠ 0
    · simp [failed]
    · simp [failed]
  rw [unfolded]
  generalize s.returnMappingId eal l = s₁ at mem lcoreResource phase pending ⊢
  have enabled₁ : (s₁.lcoreResource l).enabled ≠ 0 := by
    rw [lcoreResource, enabled]
    decide
  obtain ⟨mem', initialized, exclusive', queue⟩ := initSlaveRes_spec (mem ▸ exclusive) enabled₁
  have launches : s₁.recreateOneSlave eal l =
      ({ s₁.createMsRing l with mem := mem' } : System).flibRemoteLaunch eal l := by
    simp [System.recreateOneSlave, initialized]
  have sameConfigId (l' : LcoreId) (flags flags' : BitVec 32) :
      ((((s₁.createMsRing l).setFlags l flags).setFlags l flags').lcoreResource l').configId =
        (s.lcoreResource l').configId := by
    by_cases same : l' = l
    · subst same
      simp [System.setFlags, System.createMsRing, lcoreResource]
    · simp [System.setFlags, System.createMsRing, lcoreResource, Function.update_of_ne same]
  have sameEnabled (l' : LcoreId) (flags flags' : BitVec 32) :
      ((((s₁.createMsRing l).setFlags l flags).setFlags l flags').lcoreResource l').enabled =
        (s.lcoreResource l').enabled := by
    by_cases same : l' = l
    · subst same
      simp [System.setFlags, System.createMsRing, lcoreResource]
    · simp [System.setFlags, System.createMsRing, lcoreResource, Function.update_of_ne same]
  rw [launches, System.flibRemoteLaunch, mem] at *
  by_cases lcoreEnabled : eal.lcoreIsEnabled l = true
  · simp only [if_pos lcoreEnabled]
    refine ⟨.launched, .inl rfl, exclusive', queue, ?_, pending, rfl, fun l' => ?_, fun l' => ?_⟩
    · exact congrArg (fun f => Function.update f l Phase.launched) phase
    · exact sameConfigId l' _ _
    · exact sameEnabled l' _ _
  · simp only [if_neg lcoreEnabled]
    refine ⟨.reaped, .inr rfl, exclusive', queue, ?_, pending, rfl, fun l' => ?_, fun l' => ?_⟩
    · rw [← reaped, Function.update_eq_self]
      exact phase
    · by_cases same : l' = l
      · subst same
        simp [System.createMsRing, lcoreResource]
      · simp [System.createMsRing, lcoreResource, Function.update_of_ne same]
    · by_cases same : l' = l
      · subst same
        simp [System.createMsRing, lcoreResource]
      · simp [System.createMsRing, lcoreResource, Function.update_of_ne same]

theorem changed_recreate (exclusive : s.mem.Exclusive) {l : LcoreId} (idle : s.pending = none)
    (must : s.mustRecreate l = true) (reaped : s.phase l = .reaped) :
    Changed s (s.recreate eal l) (.recreate l) l := by
  obtain ⟨p, launched, exclusive', queue, phase, pending, procConfig, configId, registered⟩ :=
    recreate_spec eal exclusive must reaped
  have change := Change.recreated reaped idle launched
  have view : (s.recreate eal l).view l =
      { s.view l with phase := p, toSlave := [], toMaster := [] } := by
    refine View.ext ?_ ?_ ?_ ?_ (configId l) (by simp [System.view, registered])
    · simp [System.view, phase]
    · simp [System.view, queue]
    · simp [System.view, queue]
    · simp [System.view, pending]
  obtain ⟨used, enabled⟩ : (s.recreate eal l).used = s.usedAfterReset l ∧
      ∀ c, ((s.recreate eal l).procConfig c).enabled = (s.procConfig c).enabled := by
    unfold System.used
    rw [procConfig]
    unfold System.returnMappingId System.usedAfterReset
    cases s.mappingId l with
    | none => exact ⟨rfl, fun _ => rfl⟩
    | some mapId =>
        obtain ⟨lcoreCfg, -, written⟩ := flibFreeLcoreId_writes eal s mapId
        simp only [written]
        refine ⟨funext fun c => ?_, fun c => ?_⟩ <;> by_cases same : c = mapId
        · subst same
          simp [System.setUsed]
        · simp [System.setUsed, Function.update_of_ne same, System.used]
        · subst same
          simp [System.setUsed]
        · simp [System.setUsed, Function.update_of_ne same]
  refine ⟨exclusive', enabled, fun l' other => ?_, ?_⟩
  · refine System.view_eq ?_ (fun fd => ?_) (by rw [pending]) (configId l') (registered l')
    · rw [phase, Function.update_of_ne other]
    · rw [queue, Function.update_of_ne (fun same => other (congrArg Prod.fst same)),
        Function.update_of_ne (fun same => other (congrArg Prod.fst same))]
  · rw [view, used]
    exact change

/-- **Every step of the system changes the view of one lcore.** -/
theorem step_changed (exclusive : s.mem.Exclusive) {a : Action} (taken : s.step eal a = some t) :
    ∃ l, Changed s t a l := by
  cases happens_of_step taken with
  | @fork l launched =>
      exact ⟨l, .setPhase exclusive _ (launched ▸ .fork) rfl rfl rfl rfl rfl⟩
  | @forkFails l launched =>
      exact ⟨l, .setPhase exclusive _ (launched ▸ .forkFails) rfl rfl rfl rfl rfl⟩
  | @scanOn l i scanning =>
      exact ⟨l, .setPhase exclusive _ (scanning ▸ .scan i (i + 1)) rfl rfl rfl rfl rfl⟩
  | @scanFinds l i scanning inside =>
      exact ⟨l, .setPhase exclusive _ (scanning ▸ .found i ⟨i, inside⟩) rfl rfl rfl rfl rfl⟩
  | @scanFails l i scanning =>
      exact ⟨l, .setPhase exclusive _ (scanning ▸ .die rfl) rfl rfl rfl rfl rfl⟩
  | @claim l f claiming =>
      exact ⟨l, .setPhase exclusive _ (claiming ▸ .claim f) rfl rfl rfl rfl rfl⟩
  | @claimFails l f claiming =>
      exact ⟨l, .setPhase exclusive _ (claiming ▸ .rescan f) rfl rfl rfl rfl rfl⟩
  | @map l f assigned =>
      exact ⟨l, .setPhase exclusive _ (assigned ▸ .map f) rfl rfl rfl rfl rfl⟩
  | @request l f k mapped => exact ⟨l, changed_request exclusive k mapped⟩
  | @receive l f waiting => exact ⟨l, changed_receive exclusive waiting⟩
  | @echo l f conf k running => exact ⟨l, changed_echo exclusive k running⟩
  | @leave l f conf running =>
      exact ⟨l, .setPhase exclusive _ (running ▸ .leave f conf) rfl rfl rfl rfl rfl⟩
  | @free l f conf leaving =>
      obtain ⟨lcoreCfg, -, written⟩ := flibFreeLcoreId_writes eal s f
      rw [written]
      exact ⟨l, .setPhase exclusive _ (leaving ▸ .free f conf) rfl rfl rfl rfl rfl⟩
  | @unmap l conf freed =>
      exact ⟨l, .setPhase exclusive _ (freed ▸ .unmap conf) rfl rfl rfl rfl rfl⟩
  | @exit l conf unmapped =>
      exact ⟨l, .setPhase exclusive _ (unmapped ▸ .die rfl) rfl rfl rfl rfl rfl⟩
  | @crash l alive => exact ⟨l, .setPhase exclusive _ (.die alive) rfl rfl rfl rfl rfl⟩
  | @crashAllocated l k b mem alive got => exact ⟨l, changed_crashAllocated exclusive alive got⟩
  | @crashDequeued l b mem alive got => exact ⟨l, changed_crashDequeued exclusive alive got⟩
  | @exitCb l dead => exact ⟨l, changed_exitCb exclusive dead⟩
  | poll l idle => exact ⟨l, changed_poll exclusive l idle⟩
  | @answer l k pending => exact ⟨l, changed_answer exclusive k pending⟩
  | @recreate l idle must reaped => exact ⟨l, changed_recreate exclusive idle must reaped⟩

end DdosFiltering.Control
