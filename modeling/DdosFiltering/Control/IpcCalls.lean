import DdosFiltering.Control.Ipc
import Mathlib.Logic.Relation

/-!
# Interleaved calls of `send_cmd` and `get_cmd`

The master and the slaves call `send_cmd` and `get_cmd` concurrently, on one pool of
buffers. Here a call is executed step by step: the allocation, the copy into the buffer, the
enqueue, the put back; the dequeue, the copy out of the buffer, the put back. Between two
steps of one call any other call may take steps, or begin (`Step`). A call that nobody
interrupts computes `sendCmd` or `getCmd` (`Steps.sendCmd`, `Steps.getCmd`).

The state keeps what the calls have returned. `State.sent` lists the messages of one ring
for which `send_cmd` returned 0, and `State.received` those that `get_cmd` returned, in the order of
the returns. `State.got` has one entry for every dequeue, in their order, with the message once
`get_cmd` has returned it.
-/

set_option autoImplicit false

namespace DdosFiltering.Control

open Foundation
open scoped List

/-! ## Calls and their steps -/

/-- The arguments of a call of `send_cmd`. -/
structure SendArgs where
  slaveId : LcoreId
  msg2send : BridgeMsg
  isMaster : Bool
deriving DecidableEq

/-- The arguments of a call of `get_cmd`. -/
structure GetArgs where
  slaveId : LcoreId
  isMaster : Bool
deriving DecidableEq

abbrev SendArgs.ring (a : SendArgs) : Ring := sendRing a.slaveId a.isMaster

abbrev GetArgs.ring (a : GetArgs) : Ring := getRing a.slaveId a.isMaster

/-- The step that a call takes next. -/
inductive Stage where
  | allocating (a : SendArgs)
  | copyingIn (a : SendArgs) (b : BufPtr)
  | enqueueing (a : SendArgs) (b : BufPtr)
  | puttingBack (a : SendArgs) (b : BufPtr)
  | dequeueing (a : GetArgs)
  /-- `place` counts the earlier dequeues from the same ring. -/
  | copyingOut (a : GetArgs) (b : BufPtr) (place : ℕ)
  | releasing (a : GetArgs) (b : BufPtr) (place : ℕ) (msg : BridgeMsg)
deriving DecidableEq

/-- The buffer that a call holds. -/
def Stage.held : Stage → List BufPtr
  | .allocating _ | .dequeueing _ => []
  | .copyingIn _ b | .enqueueing _ b | .puttingBack _ b => [b]
  | .copyingOut _ b _ | .releasing _ b _ _ => [b]

/-- What the steps of one call have changed: the number of free buffers, and whether some
ring is another one. -/
structure Effect where
  freeBuffers : ℤ
  ringsChanged : Bool
deriving DecidableEq

def Effect.none : Effect := ⟨0, false⟩

/-- The change made by one step. -/
def Effect.of (before after : IpcMem) : Effect :=
  ⟨after.free.length - before.free.length, decide (∃ r, after.ring r ≠ before.ring r)⟩

def Effect.add (e e' : Effect) : Effect :=
  ⟨e.freeBuffers + e'.freeBuffers, e.ringsChanged || e'.ringsChanged⟩

/-- A call in progress. -/
structure Call where
  stage : Stage
  effect : Effect
deriving DecidableEq

/-- A call that has returned. -/
inductive Return where
  | send (a : SendArgs) (ret : ℤ) (effect : Effect)
  | get (a : GetArgs) (result : Except ℤ BridgeMsg)

/-- The message of a call of `send_cmd` on ring `r` that returned 0. -/
def Return.sentOn (r : Ring) : Return → Option BridgeMsg
  | .send a ret _ => if a.ring = r ∧ ret = 0 then some a.msg2send else none
  | .get _ _ => none

/-- The message of a call of `get_cmd` on ring `r` that returned one. -/
def Return.receivedOn (r : Ring) : Return → Option BridgeMsg
  | .send _ _ _ => none
  | .get a (.ok msg) => if a.ring = r then some msg else none
  | .get _ (.error _) => none

/-- The shared memory, the calls in progress and what the earlier ones returned. -/
structure State where
  mem : IpcMem
  calls : List Call
  returns : List Return
  got : Ring → List (Option BridgeMsg)

namespace State

/-- No call yet: all buffers are in the pool. -/
def initial (pool : List BufPtr) (content : BufPtr → BridgeMsg) : State where
  mem := ⟨pool, fun _ => [], content⟩
  calls := []
  returns := []
  got _ := []

/-- The messages of ring `r` for which `send_cmd` has returned 0. -/
def sent (s : State) (r : Ring) : List BridgeMsg := s.returns.filterMap (Return.sentOn r)

/-- The messages that `get_cmd` has returned from ring `r`. -/
def received (s : State) (r : Ring) : List BridgeMsg :=
  s.returns.filterMap (Return.receivedOn r)

/-- The buffers held by calls in progress. -/
def held (s : State) : List BufPtr := s.calls.flatMap fun c => c.stage.held

/-- `c`, between `pre` and `post`, has done a step and is not finished. -/
def goOn (s : State) (pre post : List Call) (c : Call) (mem : IpcMem) (stage : Stage) : State :=
  { s with mem, calls := pre ++ ⟨stage, c.effect.add (.of s.mem mem)⟩ :: post }

/-- `c` has returned from `send_cmd`. -/
def returnSend (s : State) (pre post : List Call) (c : Call) (mem : IpcMem) (a : SendArgs)
    (ret : ℤ) : State :=
  { s with
    mem
    calls := pre ++ post
    returns := s.returns ++ [.send a ret (c.effect.add (.of s.mem mem))] }

/-- A call has returned from `get_cmd`. -/
def returnGet (s : State) (pre post : List Call) (mem : IpcMem) (a : GetArgs)
    (result : Except ℤ BridgeMsg) : State :=
  { s with mem, calls := pre ++ post, returns := s.returns ++ [.get a result] }

/-- A message has been taken from ring `r`. -/
def reserve (s : State) (r : Ring) : State :=
  { s with got := Function.update s.got r (s.got r ++ [none]) }

/-- The message at `place` among those taken from ring `r` has been returned. -/
def fill (s : State) (r : Ring) (place : ℕ) (msg : BridgeMsg) : State :=
  { s with got := Function.update s.got r ((s.got r).set place (some msg)) }

/-- The next step of the call `c`; `k` chooses the buffer of an allocation. -/
def advance (s : State) (pre : List Call) (c : Call) (post : List Call) (k : ℕ) : State :=
  match c.stage with
  | .allocating a =>
      match s.mem.mempoolGet k with
      | none => s.returnSend pre post c s.mem a (-1)
      | some (b, mem) => s.goOn pre post c mem (.copyingIn a b)
  | .copyingIn a b => s.goOn pre post c (s.mem.write b a.msg2send) (.enqueueing a b)
  | .enqueueing a b =>
      match s.mem.ringEnqueue a.ring b with
      | none => s.goOn pre post c s.mem (.puttingBack a b)
      | some mem => s.returnSend pre post c mem a 0
  | .puttingBack a b => s.returnSend pre post c (s.mem.mempoolPut b) a (-1)
  | .dequeueing a =>
      match s.mem.ringDequeue a.ring with
      | none => s.returnGet pre post s.mem a (.error enoent)
      | some (b, mem) =>
          (s.goOn pre post c mem (.copyingOut a b (s.got a.ring).length)).reserve a.ring
  | .copyingOut a b place => s.goOn pre post c s.mem (.releasing a b place (s.mem.content b))
  | .releasing a b place msg =>
      (s.returnGet pre post (s.mem.mempoolPut b) a (.ok msg)).fill a.ring place msg

/-- A call of `send_cmd` begins. The checks of `lcore_resource[]` are its first step. -/
def beginSend (table : IpcTable) (s : State) (a : SendArgs) : State :=
  if a.isMaster && !table.enabled a.slaveId then
    { s with returns := s.returns ++ [.send a (-1) .none] }
  else if !table.created a.ring then
    { s with returns := s.returns ++ [.send a (-1) .none] }
  else
    { s with calls := s.calls ++ [⟨.allocating a, .none⟩] }

/-- A call of `get_cmd` begins. -/
def beginGet (table : IpcTable) (s : State) (a : GetArgs) : State :=
  if a.isMaster && !table.enabled a.slaveId then
    { s with returns := s.returns ++ [.get a (.error (-1))] }
  else if !table.created a.ring then
    { s with returns := s.returns ++ [.get a (.error (-1))] }
  else
    { s with calls := s.calls ++ [⟨.dequeueing a, .none⟩] }

end State

/-- One step of one party: a call begins, or any call in progress goes on. -/
inductive Step (table : IpcTable) : State → State → Prop where
  | beginSend (s : State) (a : SendArgs) : Step table s (s.beginSend table a)
  | beginGet (s : State) (a : GetArgs) : Step table s (s.beginGet table a)
  | advance {s : State} {pre post : List Call} {c : Call} (k : ℕ)
      (inProgress : s.calls = pre ++ c :: post) : Step table s (s.advance pre c post k)

/-- Any interleaving of any calls. -/
abbrev Steps (table : IpcTable) : State → State → Prop := Relation.ReflTransGen (Step table)

/-! ## Calls that nobody interrupts -/

/-- `s` with `c` as the last call in progress. -/
def State.running (s : State) (mem : IpcMem) (c : Call) : State :=
  { s with mem, calls := s.calls ++ [c] }

theorem Step.running (table : IpcTable) (s : State) (mem : IpcMem) (c : Call) (k : ℕ) :
    Step table (s.running mem c) ((s.running mem c).advance s.calls c [] k) :=
  .advance k rfl

/-- An uninterrupted call of `send_cmd`, from the enqueue on. -/
theorem Steps.enqueueing (table : IpcTable) (s : State) (mem : IpcMem) (a : SendArgs)
    (b : BufPtr) (e : Effect) :
    ∃ mem' ret effect,
      (match mem.ringEnqueue a.ring b with
        | some mem => ((0 : ℤ), mem)
        | none => (-1, mem.mempoolPut b)) = (ret, mem') ∧
      Steps table (s.running mem ⟨.enqueueing a b, e⟩)
        { s with mem := mem', returns := s.returns ++ [.send a ret effect] } := by
  have enqueue := Step.running table s mem ⟨.enqueueing a b, e⟩ 0
  cases enqueued : mem.ringEnqueue a.ring b with
  | some mem' =>
      refine ⟨_, _, e.add (.of mem mem'), rfl, .single ?_⟩
      simpa [State.advance, State.running, enqueued, State.returnSend] using enqueue
  | none =>
      have full : Step table (s.running mem ⟨.enqueueing a b, e⟩)
          (s.running mem ⟨.puttingBack a b, e.add (.of mem mem)⟩) := by
        simpa [State.advance, State.running, enqueued, State.goOn] using enqueue
      have putBack := Step.running table s mem ⟨.puttingBack a b, e.add (.of mem mem)⟩ 0
      refine ⟨_, _, (e.add (.of mem mem)).add (.of mem (mem.mempoolPut b)), rfl,
        .head full (.single ?_)⟩
      simpa [State.advance, State.running, State.returnSend] using putBack

/-- An uninterrupted call of `send_cmd`, from the allocation on. -/
theorem Steps.allocating (table : IpcTable) (s : State) (a : SendArgs) (k : ℕ) (e : Effect) :
    ∃ mem ret effect,
      (match s.mem.mempoolGet k with
        | none => (-1, s.mem)
        | some (b, mem) =>
            match (mem.write b a.msg2send).ringEnqueue a.ring b with
            | some mem => (0, mem)
            | none => (-1, (mem.write b a.msg2send).mempoolPut b)) = (ret, mem) ∧
      Steps table (s.running s.mem ⟨.allocating a, e⟩)
        { s with mem, returns := s.returns ++ [.send a ret effect] } := by
  have allocate := Step.running table s s.mem ⟨.allocating a, e⟩ k
  cases allocated : s.mem.mempoolGet k with
  | none =>
      refine ⟨_, _, e.add (.of s.mem s.mem), rfl, .single ?_⟩
      simpa [State.advance, State.running, allocated, State.returnSend] using allocate
  | some r =>
      obtain ⟨b, mem⟩ := r
      have taken : Step table (s.running s.mem ⟨.allocating a, e⟩)
          (s.running mem ⟨.copyingIn a b, e.add (.of s.mem mem)⟩) := by
        simpa [State.advance, State.running, allocated, State.goOn] using allocate
      have copyIn := Step.running table s mem ⟨.copyingIn a b, e.add (.of s.mem mem)⟩ k
      have written : Step table (s.running mem ⟨.copyingIn a b, e.add (.of s.mem mem)⟩)
          (s.running (mem.write b a.msg2send) ⟨.enqueueing a b,
            (e.add (.of s.mem mem)).add (.of mem (mem.write b a.msg2send))⟩) := by
        simpa [State.advance, State.running, State.goOn] using copyIn
      obtain ⟨mem', ret, effect, result, rest⟩ :=
        Steps.enqueueing table s (mem.write b a.msg2send) a b
          ((e.add (.of s.mem mem)).add (.of mem (mem.write b a.msg2send)))
      exact ⟨mem', ret, effect, result, .head taken (.head written rest)⟩

/-- **A call of `send_cmd` that runs alone computes `sendCmd`.** -/
theorem Steps.sendCmd (table : IpcTable) (s : State) (a : SendArgs) (k : ℕ) :
    ∃ mem ret effect, Control.sendCmd table s.mem a.slaveId a.msg2send a.isMaster k = (ret, mem) ∧
      Steps table s { s with mem, returns := s.returns ++ [.send a ret effect] } := by
  have begun : Step table s _ := .beginSend s a
  unfold Control.sendCmd
  unfold State.beginSend at begun
  by_cases disabled : (a.isMaster && !table.enabled a.slaveId) = true
  · rw [if_pos disabled] at begun ⊢
    exact ⟨_, _, _, rfl, .single begun⟩
  by_cases missing : (!table.created a.ring) = true
  · rw [if_neg disabled, if_pos missing] at begun ⊢
    exact ⟨_, _, _, rfl, .single begun⟩
  rw [if_neg disabled, if_neg missing] at begun ⊢
  obtain ⟨mem, ret, effect, result, run⟩ := Steps.allocating table s a k .none
  exact ⟨mem, ret, effect, result, run.head begun⟩

/-- What is noted behind a call of `get_cmd` that runs alone. -/
def State.noted (s : State) (a : GetArgs) : Except ℤ BridgeMsg → Ring → List (Option BridgeMsg)
  | .ok msg => Function.update s.got a.ring (s.got a.ring ++ [some msg])
  | .error _ => s.got

/-- **A call of `get_cmd` that runs alone computes `getCmd`.** -/
theorem Steps.getCmd (table : IpcTable) (s : State) (a : GetArgs) :
    ∃ mem result, Control.getCmd table s.mem a.slaveId a.isMaster = (result, mem) ∧
      Steps table s
        { s with mem, returns := s.returns ++ [.get a result], got := s.noted a result } := by
  have begun : Step table s _ := .beginGet s a
  unfold Control.getCmd
  unfold State.beginGet at begun
  by_cases disabled : (a.isMaster && !table.enabled a.slaveId) = true
  · rw [if_pos disabled] at begun ⊢
    exact ⟨_, _, rfl, .single begun⟩
  by_cases missing : (!table.created a.ring) = true
  · rw [if_neg disabled, if_pos missing] at begun ⊢
    exact ⟨_, _, rfl, .single begun⟩
  rw [if_neg disabled, if_neg missing] at begun ⊢
  have dequeue := Step.running table s s.mem ⟨.dequeueing a, .none⟩ 0
  cases dequeued : s.mem.ringDequeue a.ring with
  | none =>
      refine ⟨_, _, rfl, .head begun (.single ?_)⟩
      simpa [State.advance, State.running, dequeued, State.returnGet, State.noted] using dequeue
  | some r =>
      obtain ⟨b, mem⟩ := r
      have taken : Step table (s.running s.mem ⟨.dequeueing a, .none⟩)
          ((s.reserve a.ring).running mem ⟨.copyingOut a b (s.got a.ring).length,
            Effect.none.add (.of s.mem mem)⟩) := by
        simpa [State.advance, State.running, dequeued, State.goOn, State.reserve] using dequeue
      have copyOut := Step.running table (s.reserve a.ring) mem
        ⟨.copyingOut a b (s.got a.ring).length, Effect.none.add (.of s.mem mem)⟩ 0
      have release := Step.running table (s.reserve a.ring) mem
        ⟨.releasing a b (s.got a.ring).length (mem.content b),
          (Effect.none.add (.of s.mem mem)).add (.of mem mem)⟩ 0
      refine ⟨_, _, rfl, .head begun (.head taken (.head copyOut (.single ?_)))⟩
      simpa [State.advance, State.running, State.returnGet, State.goOn, State.reserve, State.fill,
        State.noted] using release

end DdosFiltering.Control
