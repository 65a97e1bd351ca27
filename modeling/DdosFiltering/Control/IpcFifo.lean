import DdosFiltering.Control.IpcReturns

/-!
# The rings are queues of messages, in every interleaving

`Intact` is the invariant of the interleaved calls: every buffer of the pool is free, queued
or held by one call (`custody`); the messages sent on a ring are those taken from it
followed by those queued (`fifo`); and a call that holds a buffer knows what is in it
(`calls`). One step of any call keeps it (`Intact.step`), so that it holds in every run
(`Intact.steps`).
-/

set_option autoImplicit false

namespace DdosFiltering.Control

open Foundation
open scoped List

/-- What a call in progress relies on. -/
def Call.Valid (s : State) (c : Call) : Prop :=
  match c.stage with
  | .allocating _ => c.effect = .none
  | .copyingIn _ _ => c.effect = ⟨-1, false⟩
  | .enqueueing a b => s.mem.content b = a.msg2send ∧ c.effect = ⟨-1, false⟩
  | .puttingBack _ _ => c.effect = ⟨-1, false⟩
  | .dequeueing _ => True
  | .copyingOut a b place => (s.sent a.ring)[place]? = some (s.mem.content b)
  | .releasing a _ place msg => (s.sent a.ring)[place]? = some msg

/-- The invariant of the interleaved calls, on a pool of buffers. -/
structure Intact (pool : List BufPtr) (s : State) : Prop where
  custody : s.mem.free ++ s.mem.queued ++ s.held ~ pool
  fifo : ∀ r, (s.got r).length ≤ (s.sent r).length ∧
    s.mem.queue r = (s.sent r).drop (s.got r).length
  bounded : ∀ r, (s.mem.queue r).length ≤ ringCapacity
  calls : ∀ c ∈ s.calls, c.Valid s
  filled : ∀ r (place : ℕ) msg, (s.got r)[place]? = some (some msg) →
    (s.sent r)[place]? = some msg
  pending : ∀ r (place : ℕ), (s.got r)[place]? = some none → ∃ c ∈ s.calls, c.stage.Fills r place
  failed : ∀ a ret e, Return.send a ret e ∈ s.returns → ret ≠ 0 → e = .none

theorem Intact.initial (pool : List BufPtr) (content : BufPtr → BridgeMsg) :
    Intact pool (State.initial pool content) where
  custody := by
    have noneQueued : (State.initial pool content).mem.queued = [] :=
      List.flatMap_eq_nil_iff.mpr fun _ _ => rfl
    rw [noneQueued]
    simp [State.initial, State.held]
  fifo r := ⟨Nat.le_refl _, rfl⟩
  bounded r := Nat.zero_le _
  calls c member := absurd member List.not_mem_nil
  filled r place msg found := by simp [State.initial] at found
  pending r place found := by simp [State.initial] at found
  failed a ret e member := absurd member List.not_mem_nil

/-! ## What a step leaves alone -/

/-- The returns of a step do not take messages back, and it does not write into the buffers
that other calls hold. -/
structure Frame (s s' : State) (others : List Call) : Prop where
  content : ∀ c ∈ others, ∀ b ∈ c.stage.held, s'.mem.content b = s.mem.content b
  sent : ∀ r, s.sent r <+: s'.sent r

theorem getElem?_of_prefix {α : Type*} {front whole : List α} (before : front <+: whole) {i : ℕ}
    {x : α} (found : front[i]? = some x) : whole[i]? = some x := by
  obtain ⟨back, rfl⟩ := before
  obtain ⟨inside, -⟩ := List.getElem?_eq_some_iff.mp found
  rw [List.getElem?_append_left inside, found]

theorem Call.Valid.frame {s s' : State} (others : List Call) {c : Call} (valid : c.Valid s)
    (frame : Frame s s' others) (other : c ∈ others) : c.Valid s' := by
  unfold Call.Valid at valid ⊢
  have content := frame.content c other
  cases stage : c.stage with
  | allocating a => simpa [stage] using valid
  | copyingIn a b => simpa [stage] using valid
  | enqueueing a b =>
      simp only [stage, Stage.held, List.mem_singleton, forall_eq] at valid content ⊢
      rwa [content]
  | puttingBack a b => simpa [stage] using valid
  | dequeueing a => trivial
  | copyingOut a b place =>
      simp only [stage, Stage.held, List.mem_singleton, forall_eq] at valid content ⊢
      rw [content]
      exact getElem?_of_prefix (frame.sent a.ring) valid
  | releasing a b place msg =>
      simp only [stage] at valid ⊢
      exact getElem?_of_prefix (frame.sent a.ring) valid

/-- The buffers that a list of calls holds. -/
def heldBy (calls : List Call) : List BufPtr := calls.flatMap fun c => c.stage.held

theorem heldBy_append (front back : List Call) :
    heldBy (front ++ back) = heldBy front ++ heldBy back := List.flatMap_append

theorem heldBy_cons (c : Call) (calls : List Call) :
    heldBy (c :: calls) = c.stage.held ++ heldBy calls := List.flatMap_cons

theorem perm_pull_middle {α : Type*} (rest front middle back : List α) :
    rest ++ (front ++ (middle ++ back)) ~ rest ++ middle ++ (front ++ back) := by
  rw [List.append_assoc]
  refine List.Perm.append_left _ ?_
  rw [← List.append_assoc, ← List.append_assoc]
  exact List.perm_append_comm.append_right _

/-- The custody of a call `c` and of the calls around it. -/
theorem Intact.custody_split {pool : List BufPtr} {s : State} (intact : Intact pool s)
    {pre post : List Call} {c : Call} (inProgress : s.calls = pre ++ c :: post) :
    s.mem.free ++ s.mem.queued ++ c.stage.held ++ heldBy (pre ++ post) ~ pool := by
  have held : s.held = heldBy pre ++ (c.stage.held ++ heldBy post) := by
    change heldBy s.calls = _
    rw [inProgress, heldBy_append, heldBy_cons]
  have custody := intact.custody
  rw [held] at custody
  rw [heldBy_append]
  exact (perm_pull_middle _ _ _ _).symm.trans custody

/-- **A step of the call `c`.** It keeps the invariant when it only moves buffers between the
pool, the rings and the call, keeps what the other calls rely on, and accounts for the
messages. `new` is what becomes of the call: at most one call. -/
theorem Intact.replace {pool : List BufPtr} {s s' : State} (intact : Intact pool s)
    (new : List Call) {pre post : List Call} {c : Call} (inProgress : s.calls = pre ++ c :: post)
    (calls : s'.calls = pre ++ (new ++ post))
    (custody : s'.mem.free ++ s'.mem.queued ++ heldBy new ~
      s.mem.free ++ s.mem.queued ++ c.stage.held)
    (frame : Frame s s' (pre ++ post))
    (fifo : ∀ r, (s'.got r).length ≤ (s'.sent r).length ∧
      s'.mem.queue r = (s'.sent r).drop (s'.got r).length)
    (bounded : ∀ r, (s'.mem.queue r).length ≤ ringCapacity)
    (valid : ∀ n ∈ new, n.Valid s')
    (filled : ∀ r (place : ℕ) msg, (s'.got r)[place]? = some (some msg) →
      (s'.sent r)[place]? = some msg)
    (pending : ∀ r (place : ℕ), (s'.got r)[place]? = some none →
      ((s.got r)[place]? = some none ∧ ¬c.stage.Fills r place) ∨ ∃ n ∈ new, n.stage.Fills r place)
    (failed : ∀ a ret e, Return.send a ret e ∈ s'.returns → ret ≠ 0 → e = .none) :
    Intact pool s' where
  custody := by
    have held : s'.held = heldBy pre ++ (heldBy new ++ heldBy post) := by
      change heldBy s'.calls = _
      rw [calls, heldBy_append, heldBy_append]
    rw [held]
    calc s'.mem.free ++ s'.mem.queued ++ (heldBy pre ++ (heldBy new ++ heldBy post))
      _ ~ s'.mem.free ++ s'.mem.queued ++ heldBy new ++ (heldBy pre ++ heldBy post) :=
          perm_pull_middle _ _ _ _
      _ ~ s.mem.free ++ s.mem.queued ++ c.stage.held ++ (heldBy pre ++ heldBy post) :=
          custody.append_right _
      _ ~ pool := by
          rw [← heldBy_append]
          exact intact.custody_split inProgress
  fifo := fifo
  bounded := bounded
  calls c' member := by
    rw [calls, List.mem_append, List.mem_append] at member
    have others : c' ∈ new ∨ c' ∈ pre ++ post := by
      rw [List.mem_append]
      tauto
    obtain here | other := others
    · exact valid c' here
    · have before : c' ∈ s.calls := by
        rw [inProgress, List.mem_append, List.mem_cons]
        rw [List.mem_append] at other
        tauto
      exact (intact.calls c' before).frame _ frame other
  filled := filled
  pending r place found := by
    obtain ⟨old, notFilled⟩ | ⟨n, member, fills⟩ := pending r place found
    · obtain ⟨c', member, fills⟩ := intact.pending r place old
      have other : c' ≠ c := fun same => notFilled (same ▸ fills)
      refine ⟨c', ?_, fills⟩
      rw [inProgress, List.mem_append, List.mem_cons] at member
      rw [calls, List.mem_append, List.mem_append]
      tauto
    · refine ⟨n, ?_, fills⟩
      rw [calls, List.mem_append, List.mem_append]
      exact .inr (.inl member)
  failed := failed

/-- A step of the call `c` that changes no queue and takes no message. -/
theorem Intact.quiet {pool : List BufPtr} {s s' : State} (intact : Intact pool s)
    (new : List Call) {pre post : List Call} {c : Call} (inProgress : s.calls = pre ++ c :: post)
    (calls : s'.calls = pre ++ (new ++ post))
    (custody : s'.mem.free ++ s'.mem.queued ++ heldBy new ~
      s.mem.free ++ s.mem.queued ++ c.stage.held)
    (content : ∀ c' ∈ pre ++ post, ∀ b ∈ c'.stage.held, s'.mem.content b = s.mem.content b)
    (sent : ∀ r, s'.sent r = s.sent r) (got : s'.got = s.got)
    (queue : ∀ r, s'.mem.queue r = s.mem.queue r) (valid : ∀ n ∈ new, n.Valid s')
    (fills : ∀ r place, c.stage.Fills r place → ∃ n ∈ new, n.stage.Fills r place)
    (failed : ∀ a ret e, Return.send a ret e ∈ s'.returns → ret ≠ 0 → e = .none) :
    Intact pool s' := by
  refine intact.replace new inProgress calls custody ⟨content, fun r => ?_⟩ (fun r => ?_)
    (fun r => queue r ▸ intact.bounded r) valid (fun r place msg found => ?_)
    (fun r place found => ?_) failed
  · rw [sent]
  · rw [got, sent, queue]
    exact intact.fifo r
  · rw [got] at found
    rw [sent]
    exact intact.filled r place msg found
  · rw [got] at found
    by_cases filling : c.stage.Fills r place
    · exact .inr (fills r place filling)
    · exact .inl ⟨found, filling⟩

/-! ## The effects of single steps -/

@[simp] theorem Effect.of_self (mem : IpcMem) : Effect.of mem mem = .none := by
  simp [Effect.of, Effect.none]

@[simp] theorem Effect.add_none (e : Effect) : e.add .none = e := by
  simp [Effect.add, Effect.none]

@[simp] theorem Effect.none_add (e : Effect) : Effect.none.add e = e := by
  simp [Effect.add, Effect.none]

theorem Effect.of_write (mem : IpcMem) (b : BufPtr) (msg : BridgeMsg) :
    Effect.of mem (mem.write b msg) = .none := by
  simp [Effect.of, Effect.none, IpcMem.write]

theorem Effect.of_free (mem : IpcMem) (free : List BufPtr) :
    Effect.of mem { mem with free } = ⟨free.length - mem.free.length, false⟩ := by
  simp [Effect.of]

@[simp] theorem State.sent_returnSend (s : State) (pre post : List Call) (c : Call)
    (mem : IpcMem) (a : SendArgs) (ret : ℤ) (r : Ring) :
    (s.returnSend pre post c mem a ret).sent r =
      s.sent r ++ if a.ring = r ∧ ret = 0 then [a.msg2send] else [] := by
  unfold State.sent State.returnSend
  rw [List.filterMap_append]
  split <;> rename_i sentNow <;> simp [Return.sentOn, sentNow]

@[simp] theorem State.sent_returnGet (s : State) (pre post : List Call) (mem : IpcMem)
    (a : GetArgs) (result : Except ℤ BridgeMsg) (r : Ring) :
    (s.returnGet pre post mem a result).sent r = s.sent r := by
  simp [State.sent, State.returnGet, Return.sentOn]

/-- A failed `send_cmd` returns without an effect. -/
theorem Intact.failed_returnSend {pool : List BufPtr} {s : State} (intact : Intact pool s)
    (pre post : List Call) (c : Call) (mem : IpcMem) (a : SendArgs) (ret : ℤ)
    (effect : ret ≠ 0 → c.effect.add (.of s.mem mem) = .none) :
    ∀ a' ret' e, Return.send a' ret' e ∈ (s.returnSend pre post c mem a ret).returns →
      ret' ≠ 0 → e = .none := by
  intro a' ret' e member nonzero
  rcases List.mem_append.mp member with old | new
  · exact intact.failed a' ret' e old nonzero
  · simp only [List.mem_singleton, Return.send.injEq] at new
    obtain ⟨rfl, rfl, rfl⟩ := new
    exact effect nonzero

theorem Intact.failed_returnGet {pool : List BufPtr} {s : State} (intact : Intact pool s)
    (pre post : List Call) (mem : IpcMem) (a : GetArgs) (result : Except ℤ BridgeMsg) :
    ∀ a' ret' e, Return.send a' ret' e ∈ (s.returnGet pre post mem a result).returns →
      ret' ≠ 0 → e = .none := by
  intro a' ret' e member nonzero
  rcases List.mem_append.mp member with old | new
  · exact intact.failed a' ret' e old nonzero
  · simp at new

/-! ## The steps of `send_cmd` -/

section Steps

variable {pool : List BufPtr} {s : State} {pre post : List Call} {c : Call}

theorem Intact.valid (intact : Intact pool s) (inProgress : s.calls = pre ++ c :: post) :
    c.Valid s :=
  intact.calls c (inProgress ▸ List.mem_append_right _ List.mem_cons_self)

/-- `rte_mempool_get`. -/
theorem Intact.allocating (intact : Intact pool s) (inProgress : s.calls = pre ++ c :: post)
    {a : SendArgs} (stage : c.stage = .allocating a) (k : ℕ) :
    Intact pool (s.advance pre c post k) := by
  have effect : c.effect = .none := by
    have valid := intact.valid inProgress
    simpa [Call.Valid, stage] using valid
  unfold State.advance
  simp only [stage]
  cases allocated : s.mem.mempoolGet k with
  | none =>
      refine intact.quiet [] inProgress rfl ?_ (fun _ _ _ _ => rfl) (fun r => ?_) rfl
        (fun _ => rfl) (fun _ member => absurd member List.not_mem_nil) ?_ ?_
      · simp [heldBy, stage, Stage.held, State.returnSend]
      · simp
      · simp [stage, Stage.Fills]
      · exact intact.failed_returnSend pre post c s.mem a (-1) fun _ => by simp [effect]
  | some r =>
      obtain ⟨b, mem⟩ := r
      obtain ⟨taken, same⟩ := IpcMem.mempoolGet_eq_some allocated
      have sameQueued : mem.queued = s.mem.queued := by rw [same]; rfl
      refine intact.quiet [⟨.copyingIn a b, _⟩] inProgress rfl ?_ (fun _ _ b' _ => ?_)
        (fun _ => rfl) rfl (fun r => ?_) (fun n member => ?_) ?_ intact.failed
      · simp only [State.goOn, sameQueued, heldBy, stage, Stage.held, List.flatMap_cons,
          List.flatMap_nil, List.append_nil]
        calc mem.free ++ s.mem.queued ++ [b]
          _ ~ b :: mem.free ++ s.mem.queued := List.perm_append_singleton b _
          _ ~ s.mem.free ++ s.mem.queued := taken.symm.append_right _
      · exact congrFun (congrArg IpcMem.content same) b'
      · exact congrFun (congrArg IpcMem.queue same) r
      · obtain rfl := List.mem_singleton.mp member
        have drawn : (mem.free.length : ℤ) - s.mem.free.length = -1 := by
          have length := taken.length_eq
          simp only [List.length_cons] at length
          omega
        simp only [Call.Valid, effect, Effect.none_add]
        rw [same, Effect.of_free, drawn]
      · simp [stage, Stage.Fills]

/-- `*(struct bridge_msg_s *)bridge_msg_void = *msg2send`. -/
theorem Intact.copyingIn (intact : Intact pool s) (distinct : pool.Nodup)
    (inProgress : s.calls = pre ++ c :: post) {a : SendArgs} {b : BufPtr}
    (stage : c.stage = .copyingIn a b) (k : ℕ) : Intact pool (s.advance pre c post k) := by
  have effect : c.effect = ⟨-1, false⟩ := by
    have valid := intact.valid inProgress
    simpa [Call.Valid, stage] using valid
  -- The buffer is held by this call, so no ring and no other call has it.
  have once := (intact.custody_split inProgress).nodup_iff.mpr distinct
  simp only [stage, Stage.held, List.append_assoc] at once
  have notElsewhere := (List.nodup_cons.mp
    (List.perm_middle.nodup_iff.mp once.of_append_right)).1
  have notQueued : b ∉ s.mem.queued := fun queued =>
    notElsewhere (List.mem_append_left _ queued)
  have notHeld : b ∉ heldBy (pre ++ post) := fun held =>
    notElsewhere (List.mem_append_right _ held)
  unfold State.advance
  simp only [stage]
  refine intact.quiet [⟨.enqueueing a b, _⟩] inProgress rfl ?_
    (fun c' other b' held => ?_) (fun _ => rfl) rfl
    (IpcMem.queue_write notQueued a.msg2send) (fun n member => ?_) ?_ intact.failed
  · simp only [heldBy, stage, Stage.held, List.flatMap_cons, List.flatMap_nil, List.append_nil]
    exact .refl _
  · have different : b' ≠ b := fun same =>
      notHeld (same ▸ List.mem_flatMap.mpr ⟨c', other, held⟩)
    exact Function.update_of_ne different _ _
  · obtain rfl := List.mem_singleton.mp member
    refine ⟨Function.update_self .., ?_⟩
    rw [Effect.of_write, Effect.add_none, effect]
  · simp [stage, Stage.Fills]

/-- `rte_ring_enqueue`. -/
theorem Intact.enqueueing (intact : Intact pool s) (inProgress : s.calls = pre ++ c :: post)
    {a : SendArgs} {b : BufPtr} (stage : c.stage = .enqueueing a b) (k : ℕ) :
    Intact pool (s.advance pre c post k) := by
  obtain ⟨written, effect⟩ : s.mem.content b = a.msg2send ∧ c.effect = ⟨-1, false⟩ := by
    have valid := intact.valid inProgress
    simpa [Call.Valid, stage] using valid
  unfold State.advance
  simp only [stage]
  cases enqueued : s.mem.ringEnqueue a.ring b with
  | none =>
      refine intact.quiet [⟨.puttingBack a b, _⟩] inProgress rfl ?_
        (fun _ _ _ _ => rfl) (fun _ => rfl) rfl (fun _ => rfl) (fun n member => ?_) ?_
        intact.failed
      · simp only [heldBy, stage, Stage.held, List.flatMap_cons, List.flatMap_nil,
          List.append_nil]
        exact .refl _
      · obtain rfl := List.mem_singleton.mp member
        simp [Call.Valid, effect]
      · simp [stage, Stage.Fills]
  | some mem =>
      have same := IpcMem.ringEnqueue_eq_some enqueued
      have queue : mem.queue = Function.update s.mem.queue a.ring
          (s.mem.queue a.ring ++ [a.msg2send]) := by
        rw [same, IpcMem.queue_enqueue, written]
      refine intact.replace [] inProgress rfl ?_ ⟨fun _ _ b' _ => ?_, fun r => ?_⟩
        (fun r => ?_) (fun r => ?_) (fun _ member => absurd member List.not_mem_nil)
        (fun r place msg found => ?_) (fun r place found => ?_)
        (intact.failed_returnSend pre post c mem a 0 fun nonzero => absurd rfl nonzero)
      · have added := IpcMem.queued_enqueue s.mem a.ring b
        simp only [State.returnSend, heldBy, stage, Stage.held, List.flatMap_nil, List.append_nil]
        rw [same]
        calc s.mem.free ++ _
          _ ~ s.mem.free ++ b :: s.mem.queued := added.append_left _
          _ ~ s.mem.free ++ s.mem.queued ++ [b] := by
              rw [List.append_assoc]
              exact (List.perm_append_singleton b _).symm.append_left _
      · simp [State.returnSend, same]
      · rw [State.sent_returnSend]
        exact List.prefix_append _ _
      · obtain ⟨fewer, inOrder⟩ := intact.fifo r
        rw [State.sent_returnSend]
        simp only [State.returnSend, queue]
        by_cases here : a.ring = r
        · subst here
          rw [if_pos ⟨rfl, trivial⟩, Function.update_self, inOrder,
            List.drop_append_of_le_length fewer]
          exact ⟨by simp only [List.length_append]; omega, rfl⟩
        · rw [if_neg (fun both => here both.1), Function.update_of_ne (Ne.symm here)]
          simpa using And.intro fewer inOrder
      · change (mem.queue r).length ≤ ringCapacity
        rw [queue]
        by_cases here : r = a.ring
        · have room := IpcMem.length_lt_of_ringEnqueue enqueued
          subst here
          rw [Function.update_self, List.length_append, List.length_singleton]
          rw [IpcMem.queue, List.length_map]
          exact room
        · rw [Function.update_of_ne here]
          exact intact.bounded r
      · rw [State.sent_returnSend]
        exact getElem?_of_prefix (List.prefix_append _ _) (intact.filled r place msg found)
      · exact .inl ⟨found, by simp [stage, Stage.Fills]⟩

/-- `rte_mempool_put` after a failed enqueue. -/
theorem Intact.puttingBack (intact : Intact pool s) (inProgress : s.calls = pre ++ c :: post)
    {a : SendArgs} {b : BufPtr} (stage : c.stage = .puttingBack a b) (k : ℕ) :
    Intact pool (s.advance pre c post k) := by
  have effect : c.effect = ⟨-1, false⟩ := by
    have valid := intact.valid inProgress
    simpa [Call.Valid, stage] using valid
  unfold State.advance
  simp only [stage]
  refine intact.quiet [] inProgress rfl ?_ (fun _ _ _ _ => rfl) (fun r => ?_) rfl
    (fun _ => rfl) (fun _ member => absurd member List.not_mem_nil) ?_ ?_
  · simp only [State.returnSend, IpcMem.mempoolPut, heldBy, stage, Stage.held, List.flatMap_nil,
      List.append_nil]
    exact (List.perm_append_singleton b _).symm
  · simp
  · simp [stage, Stage.Fills]
  · apply intact.failed_returnSend pre post c _ a (-1)
    intro _
    rw [effect, IpcMem.mempoolPut, Effect.of_free]
    simp [Effect.add, Effect.none]

/-! ## The steps of `get_cmd` -/

/-- `rte_ring_dequeue`. -/
theorem Intact.dequeueing (intact : Intact pool s) (inProgress : s.calls = pre ++ c :: post)
    {a : GetArgs} (stage : c.stage = .dequeueing a) (k : ℕ) :
    Intact pool (s.advance pre c post k) := by
  unfold State.advance
  simp only [stage]
  cases dequeued : s.mem.ringDequeue a.ring with
  | none =>
      refine intact.quiet [] inProgress rfl ?_ (fun _ _ _ _ => rfl) (fun r => ?_) rfl
        (fun _ => rfl) (fun _ member => absurd member List.not_mem_nil) ?_
        (intact.failed_returnGet pre post s.mem a _)
      · simp [heldBy, stage, Stage.held, State.returnGet]
      · simp
      · simp [stage, Stage.Fills]
  | some r =>
      obtain ⟨b, mem⟩ := r
      obtain ⟨rest, holds, same⟩ := IpcMem.ringDequeue_eq_some dequeued
      obtain ⟨first, others⟩ := IpcMem.queue_dequeue holds
      obtain ⟨fewer, inOrder⟩ := intact.fifo a.ring
      -- The message taken is the first one sent and not yet taken.
      have next : (s.sent a.ring)[(s.got a.ring).length]? = some (s.mem.content b) := by
        have head : (s.mem.queue a.ring)[0]? = some (s.mem.content b) := by simp [first]
        rwa [inOrder, List.getElem?_drop, Nat.add_zero] at head
      have tail : rest.map s.mem.content = (s.sent a.ring).drop ((s.got a.ring).length + 1) := by
        have dropOne := congrArg List.tail (first.symm.trans inOrder)
        rwa [List.tail_cons, List.tail_drop] at dropOne
      have queue : mem.queue = Function.update s.mem.queue a.ring (rest.map s.mem.content) := by
        rw [same, others]
      refine intact.replace [⟨.copyingOut a b (s.got a.ring).length, _⟩] inProgress rfl
        ?_ ⟨fun _ _ b' _ => ?_, fun r => List.prefix_rfl⟩ (fun r => ?_) (fun r => ?_)
        (fun n member => ?_) (fun r place msg found => ?_) (fun r place found => ?_) intact.failed
      · have removed := IpcMem.queued_dequeue holds
        simp only [State.goOn, heldBy, stage, Stage.held, List.flatMap_cons, List.flatMap_nil,
          List.append_nil]
        rw [same, List.append_assoc]
        refine List.Perm.append_left _ ?_
        exact (List.perm_append_singleton b _).trans removed.symm
      · exact congrFun (congrArg IpcMem.content same) b'
      · change (Function.update s.got a.ring (s.got a.ring ++ [none]) r).length ≤
            (s.sent r).length ∧ mem.queue r =
              (s.sent r).drop (Function.update s.got a.ring (s.got a.ring ++ [none]) r).length
        rw [queue]
        by_cases here : r = a.ring
        · subst here
          rw [Function.update_self, Function.update_self, List.length_append, List.length_singleton]
          obtain ⟨inside, -⟩ := List.getElem?_eq_some_iff.mp next
          exact ⟨inside, tail⟩
        · rw [Function.update_of_ne here, Function.update_of_ne here]
          exact intact.fifo r
      · change (mem.queue r).length ≤ ringCapacity
        rw [queue]
        have before := intact.bounded r
        by_cases here : r = a.ring
        · subst here
          rw [first] at before
          rw [Function.update_self]
          exact (Nat.le_succ _).trans before
        · rwa [Function.update_of_ne here]
      · obtain rfl := List.mem_singleton.mp member
        change (s.sent a.ring)[(s.got a.ring).length]? = some (mem.content b)
        rw [next, same]
      · change (Function.update s.got a.ring (s.got a.ring ++ [none]) r)[place]? =
          some (some msg) at found
        change (s.sent r)[place]? = some msg
        by_cases here : r = a.ring
        · subst here
          rw [Function.update_self, List.getElem?_append] at found
          split at found
          · exact intact.filled _ place msg found
          · simp only [List.getElem?_singleton] at found
            split at found <;> simp at found
        · rw [Function.update_of_ne here] at found
          exact intact.filled r place msg found
      · change (Function.update s.got a.ring (s.got a.ring ++ [none]) r)[place]? = some none
          at found
        have notFilled : ¬c.stage.Fills r place := by simp [stage, Stage.Fills]
        by_cases here : r = a.ring
        · subst here
          rw [Function.update_self, List.getElem?_append] at found
          split at found
          · exact .inl ⟨found, notFilled⟩
          · rename_i outside
            simp only [List.getElem?_singleton] at found
            split at found
            · rename_i last
              exact .inr ⟨_, List.mem_singleton_self _, rfl, by omega⟩
            · simp at found
        · rw [Function.update_of_ne here] at found
          exact .inl ⟨found, notFilled⟩

/-- `*msg2rcv = *(struct bridge_msg_s *)bridge_msg_void`. -/
theorem Intact.copyingOut (intact : Intact pool s) (inProgress : s.calls = pre ++ c :: post)
    {a : GetArgs} {b : BufPtr} {place : ℕ} (stage : c.stage = .copyingOut a b place) (k : ℕ) :
    Intact pool (s.advance pre c post k) := by
  have known : (s.sent a.ring)[place]? = some (s.mem.content b) := by
    have valid := intact.valid inProgress
    simpa [Call.Valid, stage] using valid
  unfold State.advance
  simp only [stage]
  refine intact.quiet [⟨.releasing a b place (s.mem.content b), _⟩] inProgress rfl ?_
    (fun _ _ _ _ => rfl) (fun _ => rfl) rfl (fun _ => rfl) (fun n member => ?_)
    (fun r i fills => ?_) intact.failed
  · simp only [heldBy, stage, Stage.held, List.flatMap_cons, List.flatMap_nil, List.append_nil]
    exact .refl _
  · obtain rfl := List.mem_singleton.mp member
    exact known
  · rw [stage] at fills
    exact ⟨_, List.mem_singleton_self _, fills⟩

/-- `rte_mempool_put` and the return of `get_cmd`. -/
theorem Intact.releasing (intact : Intact pool s) (inProgress : s.calls = pre ++ c :: post)
    {a : GetArgs} {b : BufPtr} {place : ℕ} {msg : BridgeMsg}
    (stage : c.stage = .releasing a b place msg) (k : ℕ) :
    Intact pool (s.advance pre c post k) := by
  have known : (s.sent a.ring)[place]? = some msg := by
    have valid := intact.valid inProgress
    simpa [Call.Valid, stage] using valid
  unfold State.advance
  simp only [stage]
  have sent (r : Ring) : ((s.returnGet pre post (s.mem.mempoolPut b) a (.ok msg)).fill a.ring
      place msg).sent r = s.sent r :=
    State.sent_returnGet s pre post (s.mem.mempoolPut b) a (.ok msg) r
  refine intact.replace [] inProgress rfl ?_ ⟨fun _ _ _ _ => rfl, fun r => ?_⟩
    (fun r => ?_) intact.bounded (fun _ member => absurd member List.not_mem_nil)
    (fun r i msg' found => ?_)
    (fun r i found => ?_) (intact.failed_returnGet pre post (s.mem.mempoolPut b) a (.ok msg))
  · simp only [State.returnGet, IpcMem.mempoolPut, heldBy, stage, Stage.held, List.flatMap_nil,
      List.append_nil]
    exact (List.perm_append_singleton b _).symm
  · rw [sent]
  · rw [sent]
    have length : (Function.update s.got a.ring ((s.got a.ring).set place (some msg)) r).length =
        (s.got r).length := by
      by_cases here : r = a.ring
      · subst here
        rw [Function.update_self, List.length_set]
      · rw [Function.update_of_ne here]
    change (Function.update s.got a.ring ((s.got a.ring).set place (some msg)) r).length ≤
      (s.sent r).length ∧ s.mem.queue r = (s.sent r).drop
        (Function.update s.got a.ring ((s.got a.ring).set place (some msg)) r).length
    rw [length]
    exact intact.fifo r
  · rw [sent]
    change (Function.update s.got a.ring ((s.got a.ring).set place (some msg)) r)[i]? =
      some (some msg') at found
    by_cases here : r = a.ring
    · subst here
      rw [Function.update_self, List.getElem?_set] at found
      by_cases same : place = i
      · subst same
        rw [if_pos rfl] at found
        split at found
        · obtain rfl : msg = msg' := by simpa using found
          exact known
        · simp at found
      · rw [if_neg same] at found
        exact intact.filled _ i msg' found
    · rw [Function.update_of_ne here] at found
      exact intact.filled r i msg' found
  · change (Function.update s.got a.ring ((s.got a.ring).set place (some msg)) r)[i]? =
      some none at found
    refine .inl ?_
    by_cases here : r = a.ring
    · subst here
      rw [Function.update_self, List.getElem?_set] at found
      by_cases same : place = i
      · rw [if_pos same] at found
        split at found <;> simp at found
      · rw [if_neg same] at found
        exact ⟨found, by simp [stage, Stage.Fills, same]⟩
    · rw [Function.update_of_ne here] at found
      exact ⟨found, by simp [stage, Stage.Fills, Ne.symm here]⟩

end Steps

/-! ## Runs -/

/-- A call that returns at once, or a call that begins. -/
theorem Intact.begin {pool : List BufPtr} {s s' : State} (intact : Intact pool s)
    (new : List Call) (ret : List Return) (calls : s'.calls = s.calls ++ new)
    (returns : s'.returns = s.returns ++ ret) (mem : s'.mem = s.mem) (got : s'.got = s.got)
    (holdsNothing : heldBy new = []) (valid : ∀ c ∈ new, c.Valid s')
    (noMessage : ∀ r, ret.filterMap (Return.sentOn r) = [])
    (noEffect : ∀ a i e, Return.send a i e ∈ ret → e = .none) : Intact pool s' := by
  have sent (r : Ring) : s'.sent r = s.sent r := by
    rw [State.sent, returns, List.filterMap_append, noMessage, List.append_nil, State.sent]
  refine
    { custody := ?_
      fifo := fun r => ?_
      bounded := fun r => mem ▸ intact.bounded r
      calls := fun c member => ?_
      filled := fun r place msg found => ?_
      pending := fun r place found => ?_
      failed := fun a i e member nonzero => ?_ }
  · have held : s'.held = s.held := by
      change heldBy s'.calls = heldBy s.calls
      rw [calls, heldBy_append, holdsNothing, List.append_nil]
    rw [mem, held]
    exact intact.custody
  · rw [sent, got, mem]
    exact intact.fifo r
  · rw [calls, List.mem_append] at member
    obtain old | here := member
    · refine (intact.calls c old).frame s.calls ⟨fun _ _ _ _ => by rw [mem], ?_⟩ old
      intro r
      rw [sent]
    · exact valid c here
  · rw [got] at found
    rw [sent]
    exact intact.filled r place msg found
  · rw [got] at found
    obtain ⟨c, member, fills⟩ := intact.pending r place found
    exact ⟨c, calls ▸ List.mem_append_left _ member, fills⟩
  · rw [returns, List.mem_append] at member
    obtain old | here := member
    · exact intact.failed a i e old nonzero
    · exact noEffect a i e here

theorem Intact.beginSend {pool : List BufPtr} {s : State} (intact : Intact pool s)
    (table : IpcTable) (a : SendArgs) : Intact pool (s.beginSend table a) := by
  have refused : Intact pool { s with returns := s.returns ++ [.send a (-1) .none] } := by
    refine intact.begin [] _ (by simp) rfl rfl rfl rfl (by simp) (fun r => ?_) ?_
    · simp [Return.sentOn]
    · simp
  unfold State.beginSend
  split
  · exact refused
  · split
    · exact refused
    · refine intact.begin _ [] rfl (by simp) rfl rfl rfl (fun c member => ?_) (by simp)
        (by simp)
      obtain rfl := List.mem_singleton.mp member
      rfl

theorem Intact.beginGet {pool : List BufPtr} {s : State} (intact : Intact pool s)
    (table : IpcTable) (a : GetArgs) : Intact pool (s.beginGet table a) := by
  have refused : Intact pool { s with returns := s.returns ++ [.get a (.error (-1))] } := by
    refine intact.begin [] _ (by simp) rfl rfl rfl rfl (by simp) (fun r => ?_) ?_
    · simp [Return.sentOn]
    · simp
  unfold State.beginGet
  split
  · exact refused
  · split
    · exact refused
    · refine intact.begin _ [] rfl (by simp) rfl rfl rfl (fun c member => ?_) (by simp)
        (by simp)
      obtain rfl := List.mem_singleton.mp member
      trivial

/-- **Every step of every call keeps the invariant.** -/
theorem Intact.step {pool : List BufPtr} (distinct : pool.Nodup) {table : IpcTable}
    {s s' : State} (intact : Intact pool s) (step : Step table s s') : Intact pool s' := by
  cases step with
  | beginSend a => exact intact.beginSend table a
  | beginGet a => exact intact.beginGet table a
  | @advance pre post c k inProgress =>
      cases stage : c.stage with
      | allocating a => exact intact.allocating inProgress stage k
      | copyingIn a b => exact intact.copyingIn distinct inProgress stage k
      | enqueueing a b => exact intact.enqueueing inProgress stage k
      | puttingBack a b => exact intact.puttingBack inProgress stage k
      | dequeueing a => exact intact.dequeueing inProgress stage k
      | copyingOut a b place => exact intact.copyingOut inProgress stage k
      | releasing a b place msg => exact intact.releasing inProgress stage k

theorem Intact.steps {pool : List BufPtr} (distinct : pool.Nodup) {table : IpcTable}
    {s s' : State} (intact : Intact pool s) (run : Steps table s s') : Intact pool s' := by
  induction run with
  | refl => exact intact
  | tail _ step inductionHypothesis => exact inductionHypothesis.step distinct step

/-- The messages sent on a ring are those taken, of which some may still be copied out,
followed by those queued. -/
theorem Intact.taken {pool : List BufPtr} {s : State} (intact : Intact pool s) (r : Ring) :
    ∃ taken, s.sent r = taken ++ s.mem.queue r ∧
      List.Forall₂ (fun entry msg => entry = none ∨ entry = some msg) (s.got r) taken := by
  obtain ⟨fewer, inOrder⟩ := intact.fifo r
  refine ⟨(s.sent r).take (s.got r).length, ?_, List.forall₂_iff_get.mpr ⟨?_, ?_⟩⟩
  · rw [inOrder, List.take_append_drop]
  · rw [List.length_take, Nat.min_eq_left fewer]
  · intro i inside inside'
    simp only [List.get_eq_getElem, List.getElem_take]
    cases entry : (s.got r)[i] with
    | none => exact .inl rfl
    | some msg =>
        have found : (s.got r)[i]? = some (some msg) := by
          rw [List.getElem?_eq_getElem inside, entry]
        obtain ⟨_, value⟩ := List.getElem?_eq_some_iff.mp (intact.filled r i msg found)
        exact .inr (congrArg some value.symm)

theorem eq_map_some {α : Type*} {entries : List (Option α)} {values : List α}
    (agree : List.Forall₂ (fun entry v => entry = none ∨ entry = some v) entries values)
    (complete : none ∉ entries) : entries = values.map some := by
  induction agree with
  | nil => rfl
  | @cons entry v entries values first _ inductionHypothesis =>
      have here : entry = some v := first.resolve_left fun missing =>
        complete (missing ▸ List.mem_cons_self)
      have later : none ∉ entries := fun member => complete (List.mem_cons_of_mem _ member)
      rw [here, inductionHypothesis later, List.map_cons]

/-- When no call is in progress, every message taken has been returned. -/
theorem Intact.returned {pool : List BufPtr} {s : State} (intact : Intact pool s)
    (idle : s.calls = []) (r : Ring) :
    ∃ received, s.got r = received.map some ∧ s.sent r = received ++ s.mem.queue r := by
  obtain ⟨taken, sent, entries⟩ := intact.taken r
  refine ⟨taken, eq_map_some entries fun missing => ?_, sent⟩
  obtain ⟨place, inside, value⟩ := List.mem_iff_getElem.mp missing
  obtain ⟨c, inProgress, -⟩ :=
    intact.pending r place (by rw [List.getElem?_eq_getElem inside, value])
  rw [idle] at inProgress
  exact List.not_mem_nil inProgress

/-- **The IPC refines bounded FIFO queues.** In every run of interleaved calls from a pool of
distinct buffers:

* on every ring, the messages that `get_cmd` returned are those noted in `got`;
* the messages for which `send_cmd` returned 0 are those taken by `get_cmd`, in this order and with
  this content, followed by those still queued, and when no call is in progress all those
  taken have been returned;
* no ring holds more messages than its capacity;
* the steps of a `send_cmd` that failed have changed no ring and no pool level;
* every buffer is free, queued or held by a call in progress, and none is in two places. -/
theorem ipc_refines_fifo (table : IpcTable) {pool : List BufPtr} (distinct : pool.Nodup)
    (content : BufPtr → BridgeMsg) {s : State}
    (run : Steps table (State.initial pool content) s) :
    (∀ r, s.received r ~ (s.got r).reduceOption) ∧
    (∀ r, ∃ taken, s.sent r = taken ++ s.mem.queue r ∧
      List.Forall₂ (fun entry msg => entry = none ∨ entry = some msg) (s.got r) taken) ∧
    (s.calls = [] → ∀ r, ∃ received, s.got r = received.map some ∧
      s.sent r = received ++ s.mem.queue r) ∧
    (∀ r, (s.mem.queue r).length ≤ ringCapacity) ∧
    (∀ a ret effect, Return.send a ret effect ∈ s.returns → ret ≠ 0 →
      effect.freeBuffers = 0 ∧ effect.ringsChanged = false) ∧
    s.mem.free.length + s.mem.queued.length + s.held.length = pool.length ∧
    (s.mem.free ++ s.mem.queued ++ s.held).Nodup := by
  have intact := (Intact.initial pool content).steps distinct run
  have told := (Told.initial pool content).steps run
  refine ⟨told.messages, intact.taken, intact.returned, intact.bounded,
    fun a ret effect member nonzero => ?_, ?_, ?_⟩
  · rw [intact.failed a ret effect member nonzero]
    exact ⟨rfl, rfl⟩
  · have length := intact.custody.length_eq
    rwa [List.length_append, List.length_append] at length
  · exact intact.custody.nodup_iff.mpr distinct

/-- The first slave has sent two messages, and the master has received the first one. -/
theorem ipc_refines_fifo_twoMessages :
    let r : Ring := (1, 1)
    ∃ s : State, s.calls = [] ∧ s.sent r = [⟨.cfg, []⟩, ⟨.ping, []⟩] ∧
      s.received r = [⟨.cfg, []⟩] ∧ s.mem.queue r = [⟨.ping, []⟩] ∧ s.mem.free = [7] ∧
      (∀ r, s.received r ~ (s.got r).reduceOption) ∧
      (∀ r, ∃ taken, s.sent r = taken ++ s.mem.queue r ∧
        List.Forall₂ (fun entry msg => entry = none ∨ entry = some msg) (s.got r) taken) ∧
      (s.calls = [] → ∀ r, ∃ received, s.got r = received.map some ∧
        s.sent r = received ++ s.mem.queue r) ∧
      (∀ r, (s.mem.queue r).length ≤ ringCapacity) ∧
      (∀ a ret effect, Return.send a ret effect ∈ s.returns → ret ≠ 0 →
        effect.freeBuffers = 0 ∧ effect.ringsChanged = false) ∧
      s.mem.free.length + s.mem.queued.length + s.held.length = 2 ∧
      (s.mem.free ++ s.mem.queued ++ s.held).Nodup := by
  intro r
  let content : BufPtr → BridgeMsg := fun _ => ⟨.start, []⟩
  let table : IpcTable := ⟨fun _ => true, fun _ => true⟩
  let first : SendArgs := ⟨1, ⟨.cfg, []⟩, false⟩
  let second : SendArgs := ⟨1, ⟨.ping, []⟩, false⟩
  obtain ⟨mem₁, ret₁, effect₁, result₁, run₁⟩ :=
    Steps.sendCmd table (State.initial [7, 8] content) first 0
  obtain ⟨rfl, rfl⟩ := Prod.mk.inj result₁
  obtain ⟨mem₂, ret₂, effect₂, result₂, run₂⟩ := Steps.sendCmd table _ second 0
  obtain ⟨rfl, rfl⟩ := Prod.mk.inj result₂
  obtain ⟨mem₃, ret₃, result₃, run₃⟩ := Steps.getCmd table _ ⟨1, true⟩
  obtain ⟨rfl, rfl⟩ := Prod.mk.inj result₃
  exact ⟨_, rfl, rfl, rfl, rfl, rfl,
    ipc_refines_fifo table (by decide) content ((run₁.trans run₂).trans run₃)⟩

end DdosFiltering.Control
