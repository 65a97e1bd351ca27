import DdosFiltering.Control.IpcCalls
import Mathlib.Data.List.ReduceOption

/-!
# What `get_cmd` has returned

`State.got` has an entry for every dequeue, which is empty until the call returns the message. Each
empty entry is filled by one call in progress (`Told.places`). So no entry is filled twice, and the
messages that the calls have returned are those of the entries (`Told.messages`).
-/

set_option autoImplicit false

namespace DdosFiltering.Control

open scoped List

/-- The call will fill the entry `place` of `got r`. -/
def Stage.Fills (r : Ring) (place : ℕ) : Stage → Prop
  | .copyingOut a _ i | .releasing a _ i _ => a.ring = r ∧ i = place
  | _ => False

instance (r : Ring) (place : ℕ) : DecidablePred (Stage.Fills r place)
  | .copyingOut a _ i | .releasing a _ i _ => inferInstanceAs (Decidable (a.ring = r ∧ i = place))
  | .allocating _ | .copyingIn _ _ | .enqueueing _ _ | .puttingBack _ _ | .dequeueing _ =>
      .isFalse id

/-- How many calls will fill an entry. -/
def filling (r : Ring) (place : ℕ) (calls : List Call) : ℕ :=
  calls.countP fun c => c.stage.Fills r place

@[simp] theorem filling_append (r : Ring) (place : ℕ) (calls calls' : List Call) :
    filling r place (calls ++ calls') = filling r place calls + filling r place calls' :=
  List.countP_append

@[simp] theorem filling_cons (r : Ring) (place : ℕ) (c : Call) (calls : List Call) :
    filling r place (c :: calls) =
      filling r place calls + if c.stage.Fills r place then 1 else 0 := by
  simp [filling, List.countP_cons]

@[simp] theorem filling_nil (r : Ring) (place : ℕ) : filling r place [] = 0 := rfl

/-- What `get_cmd` has returned is what has been noted. -/
structure Told (s : State) : Prop where
  places : ∀ r place,
    filling r place s.calls = if (s.got r)[place]? = some none then 1 else 0
  messages : ∀ r, s.received r ~ (s.got r).reduceOption

theorem Told.initial (pool : List BufPtr) (content : BufPtr → BridgeMsg) :
    Told (State.initial pool content) where
  places r place := by simp [State.initial]
  messages r := by simp [State.initial, State.received]

/-- A step that takes no message, and returns none. -/
theorem Told.keeps {s s' : State} (told : Told s) (got : s'.got = s.got)
    (received : ∀ r, s'.received r = s.received r)
    (calls : ∀ r place, filling r place s'.calls = filling r place s.calls) : Told s' where
  places r place := by
    rw [calls, got]
    exact told.places r place
  messages r := by
    rw [received, got]
    exact told.messages r

/-! ## Entries -/

section Entries

variable {α : Type*} {entries : List (Option α)} {place : ℕ} {v : α}

/-- An empty entry is filled. -/
theorem reduceOption_set (empty : entries[place]? = some none) :
    (entries.set place (some v)).reduceOption ~ v :: entries.reduceOption := by
  induction entries generalizing place with
  | nil => cases empty
  | cons entry entries inductionHypothesis =>
      cases place with
      | zero =>
          obtain rfl := Option.some.inj empty
          exact .refl _
      | succ place =>
          have later := inductionHypothesis empty
          cases entry with
          | none => exact later
          | some w => exact (later.cons w).trans (.swap v w _)

theorem getElem?_set_eq_none_iff (inside : place < entries.length) {i : ℕ} :
    (entries.set place (some v))[i]? = some none ↔ entries[i]? = some none ∧ i ≠ place := by
  rw [List.getElem?_set]
  by_cases same : place = i
  · subst same
    rw [if_pos rfl, if_pos inside]
    simp
  · rw [if_neg same]
    exact (and_iff_left (Ne.symm same)).symm

theorem getElem?_concat_eq_none_iff {i : ℕ} :
    (entries ++ [none])[i]? = some none ↔ entries[i]? = some none ∨ i = entries.length := by
  rcases lt_trichotomy i entries.length with less | rfl | greater
  · rw [List.getElem?_append_left less]
    exact (or_iff_left less.ne).symm
  · simp
  · rw [List.getElem?_eq_none (by simp; omega), List.getElem?_eq_none greater.le]
    simp [greater.ne']

end Entries

/-! ## The steps -/

section Steps

variable {table : IpcTable} {s s' : State} {pre post : List Call} {c : Call}

@[simp] theorem State.received_returnSend (s : State) (pre post : List Call) (c : Call)
    (mem : IpcMem) (a : SendArgs) (ret : ℤ) (r : Ring) :
    (s.returnSend pre post c mem a ret).received r = s.received r := by
  simp [State.received, State.returnSend, Return.receivedOn]

@[simp] theorem State.received_returnGet (s : State) (pre post : List Call) (mem : IpcMem)
    (a : GetArgs) (result : Except ℤ BridgeMsg) (r : Ring) :
    (s.returnGet pre post mem a result).received r =
      s.received r ++ (Return.receivedOn r (.get a result)).toList := by
  simp only [State.received, State.returnGet, List.filterMap_append, List.filterMap_cons,
    List.filterMap_nil]
  cases Return.receivedOn r (.get a result) <;> rfl

/-- The call that is noted in an empty entry is the only one that will fill it. -/
theorem Told.empty (told : Told s) (inProgress : s.calls = pre ++ c :: post) {r : Ring}
    {place : ℕ} (fills : c.stage.Fills r place) :
    (s.got r)[place]? = some none ∧ filling r place (pre ++ post) = 0 := by
  have one := told.places r place
  rw [inProgress, filling_append, filling_cons, if_pos fills] at one
  split at one
  · rename_i isEmpty
    refine ⟨isEmpty, ?_⟩
    rw [filling_append]
    omega
  · omega

/-- `rte_ring_dequeue` returns a buffer: there is one more entry, and the call will fill it. -/
theorem Told.reserve (told : Told s) (inProgress : s.calls = pre ++ c :: post) (mem : IpcMem)
    {a : GetArgs} (stage : c.stage = .dequeueing a) (b : BufPtr) :
    Told ((s.goOn pre post c mem (.copyingOut a b (s.got a.ring).length)).reserve a.ring) where
  places r place := by
    have before := told.places r place
    rw [inProgress, filling_append, filling_cons, if_neg (by simp [stage, Stage.Fills])] at before
    change filling r place (pre ++ ⟨.copyingOut a b _, _⟩ :: post) =
      if (Function.update s.got a.ring (s.got a.ring ++ [none]) r)[place]? = some none then 1 else 0
    rw [filling_append, filling_cons]
    by_cases here : r = a.ring
    · subst here
      have beyond : (s.got a.ring)[(s.got a.ring).length]? ≠ some none := by simp
      simp only [Function.update_self, getElem?_concat_eq_none_iff]
      by_cases last : place = (s.got a.ring).length
      · subst last
        rw [if_neg beyond] at before
        rw [if_pos ⟨rfl, rfl⟩, if_pos (.inr rfl)]
        omega
      · rw [if_neg (fun fills => last fills.2.symm)]
        simp only [last, or_false]
        omega
    · rw [Function.update_of_ne here, if_neg (fun fills => here fills.1.symm)]
      omega
  messages r := by
    change s.received r ~ (Function.update s.got a.ring (s.got a.ring ++ [none]) r).reduceOption
    by_cases here : r = a.ring
    · subst here
      rw [Function.update_self, List.reduceOption_append]
      exact (List.append_nil (s.got a.ring).reduceOption).symm ▸ told.messages a.ring
    · rw [Function.update_of_ne here]
      exact told.messages r

/-- `get_cmd` returns a message, and its entry is filled. -/
theorem Told.fill (told : Told s) (inProgress : s.calls = pre ++ c :: post) (mem : IpcMem)
    {a : GetArgs} {b : BufPtr} {place : ℕ} {msg : BridgeMsg}
    (stage : c.stage = .releasing a b place msg) :
    Told ((s.returnGet pre post mem a (.ok msg)).fill a.ring place msg) := by
  have fills : c.stage.Fills a.ring place := by
    rw [stage]
    exact ⟨rfl, rfl⟩
  obtain ⟨isEmpty, onlyOne⟩ := told.empty inProgress fills
  obtain ⟨inside, -⟩ := List.getElem?_eq_some_iff.mp isEmpty
  constructor
  · intro r i
    have before := told.places r i
    have other (elsewhere : ¬(a.ring = r ∧ place = i)) : ¬c.stage.Fills r i := by
      rw [stage]
      exact elsewhere
    rw [inProgress, filling_append, filling_cons] at before
    change filling r i (pre ++ post) =
      if (Function.update s.got a.ring ((s.got a.ring).set place (some msg)) r)[i]? = some none
        then 1 else 0
    by_cases here : r = a.ring
    · subst here
      simp only [Function.update_self, getElem?_set_eq_none_iff inside]
      by_cases same : i = place
      · subst same
        rw [onlyOne, if_neg (fun both => both.2 rfl)]
      · rw [if_neg (other fun both => same both.2.symm)] at before
        simp only [ne_eq, same, not_false_iff, and_true]
        rw [filling_append]
        omega
    · rw [Function.update_of_ne here, filling_append]
      rw [if_neg (other fun both => here both.1.symm)] at before
      omega
  · intro r
    have received : ((s.returnGet pre post mem a (.ok msg)).fill a.ring place msg).received r =
        s.received r ++ (if a.ring = r then some msg else none).toList :=
      State.received_returnGet s pre post mem a (.ok msg) r
    rw [received]
    change _ ~ (Function.update s.got a.ring ((s.got a.ring).set place (some msg)) r).reduceOption
    by_cases here : r = a.ring
    · subst here
      rw [Function.update_self, if_pos rfl]
      calc s.received a.ring ++ [msg]
        _ ~ msg :: s.received a.ring := List.perm_append_singleton msg _
        _ ~ msg :: (s.got a.ring).reduceOption := (told.messages a.ring).cons msg
        _ ~ ((s.got a.ring).set place (some msg)).reduceOption := (reduceOption_set isEmpty).symm
    · rw [Function.update_of_ne here, if_neg (Ne.symm here)]
      exact (List.append_nil (s.received r)).symm ▸ told.messages r

/-- A step of a call that takes no message, and returns none. `new` is what becomes of the call. -/
theorem Told.quiet (told : Told s) (inProgress : s.calls = pre ++ c :: post) (new : List Call)
    (got : s'.got = s.got) (received : ∀ r, s'.received r = s.received r)
    (calls : s'.calls = pre ++ (new ++ post))
    (fills : ∀ r place, filling r place new = filling r place [c]) : Told s' := by
  refine told.keeps got received fun r place => ?_
  rw [calls, inProgress, filling_append, filling_append, fills, ← filling_append, ← filling_append]
  rfl

theorem Told.advance (told : Told s) (inProgress : s.calls = pre ++ c :: post) (k : ℕ) :
    Told (s.advance pre c post k) := by
  unfold State.advance
  cases stage : c.stage with
  | allocating a =>
      simp only
      cases s.mem.mempoolGet k with
      | none => exact told.quiet inProgress [] rfl (by simp) rfl (by simp [stage, Stage.Fills])
      | some r =>
          exact told.quiet inProgress [_] rfl (fun _ => rfl) rfl (by simp [stage, Stage.Fills])
  | copyingIn a b =>
      exact told.quiet inProgress [_] rfl (fun _ => rfl) rfl (by simp [stage, Stage.Fills])
  | enqueueing a b =>
      simp only
      cases s.mem.ringEnqueue a.ring b with
      | none =>
          exact told.quiet inProgress [_] rfl (fun _ => rfl) rfl (by simp [stage, Stage.Fills])
      | some mem =>
          exact told.quiet inProgress [] rfl (by simp) rfl (by simp [stage, Stage.Fills])
  | puttingBack a b =>
      exact told.quiet inProgress [] rfl (by simp) rfl (by simp [stage, Stage.Fills])
  | dequeueing a =>
      simp only
      cases s.mem.ringDequeue a.ring with
      | none =>
          refine told.quiet inProgress [] rfl ?_ rfl (by simp [stage, Stage.Fills])
          simp [Return.receivedOn]
      | some r => exact told.reserve inProgress r.2 stage r.1
  | copyingOut a b place =>
      refine told.quiet inProgress [_] rfl (fun _ => rfl) rfl fun r i => ?_
      rw [filling_cons, filling_cons, stage]
      rfl
  | releasing a b place msg => exact told.fill inProgress _ stage

/-- A call that returns at once, or a call that begins. -/
theorem Told.begin (told : Told s) (new : List Call) (ret : List Return)
    (calls : s'.calls = s.calls ++ new) (returns : s'.returns = s.returns ++ ret)
    (got : s'.got = s.got) (fills : ∀ r place, filling r place new = 0)
    (noMessage : ∀ r, ret.filterMap (Return.receivedOn r) = []) : Told s' := by
  refine told.keeps got (fun r => ?_) fun r place => ?_
  · rw [State.received, returns, List.filterMap_append, noMessage, List.append_nil, State.received]
  · rw [calls, filling_append, fills, Nat.add_zero]

theorem Told.beginSend (told : Told s) (a : SendArgs) : Told (s.beginSend table a) := by
  have refused : Told { s with returns := s.returns ++ [.send a (-1) .none] } :=
    told.begin [] _ (by simp) rfl rfl (fun _ _ => rfl) (by simp [Return.receivedOn])
  unfold State.beginSend
  split
  · exact refused
  · split
    · exact refused
    · exact told.begin _ [] rfl (by simp) rfl (by simp [Stage.Fills]) (by simp)

theorem Told.beginGet (told : Told s) (a : GetArgs) : Told (s.beginGet table a) := by
  have refused : Told { s with returns := s.returns ++ [.get a (.error (-1))] } :=
    told.begin [] _ (by simp) rfl rfl (fun _ _ => rfl) (by simp [Return.receivedOn])
  unfold State.beginGet
  split
  · exact refused
  · split
    · exact refused
    · exact told.begin _ [] rfl (by simp) rfl (by simp [Stage.Fills]) (by simp)

theorem Told.step (told : Told s) (step : Step table s s') : Told s' := by
  cases step with
  | beginSend a => exact told.beginSend a
  | beginGet a => exact told.beginGet a
  | advance k inProgress => exact told.advance inProgress k

/-- **In every run, what `get_cmd` has returned is what has been noted.** -/
theorem Told.steps (told : Told s) (run : Steps table s s') : Told s' := by
  induction run with
  | refl => exact told
  | tail _ step inductionHypothesis => exact inductionHypothesis.step step

end Steps

end DdosFiltering.Control
