import Mathlib.Data.List.Perm.Basic
import Mathlib.Data.List.Nodup
import Mathlib.Logic.Relation

/-!
# Custody of items that pass through a buffer

Items arrive in batches. Each item is judged, in the order of arrival: an item that is
refused leaves at once, and an item that passes joins the end of a buffer. A flush empties
the buffer: a prefix of it is handed over and the rest is discarded.

A `Ledger` keeps what became of every item, and `Move` is one step of the system. Whatever
the moves, the items that arrived are those handed over, discarded, refused, waiting in the
buffer or not yet judged, each as often as it arrived (`Kept.perm`), and the items handed
over followed by those waiting are a subsequence of those that passed (`Kept.order`).

Nothing here asks the items to be distinct.
-/

set_option autoImplicit false

namespace DdosFiltering.Foundation

open scoped List

variable {α : Type*}

/-- What became of every item so far. `judged` lists the judged items in order, with `true`
for an item that passed. -/
structure Ledger (α : Type*) where
  judged : List (α × Bool)
  inbox : List α
  waiting : List α
  handedOver : List α
  discarded : List α

namespace Ledger

/-- No item has arrived. -/
def empty : Ledger α := ⟨[], [], [], [], []⟩

/-- The items that arrived, in order. -/
def arrived (l : Ledger α) : List α := l.judged.map Prod.fst ++ l.inbox

/-- The items that passed, in order. -/
def passed (l : Ledger α) : List α := (l.judged.filter Prod.snd).map Prod.fst

/-- The items that were refused, in order. -/
def refused (l : Ledger α) : List α := (l.judged.filter fun j => !j.2).map Prod.fst

/-- A batch arrives. -/
def arrive (l : Ledger α) (batch : List α) : Ledger α := { l with inbox := l.inbox ++ batch }

/-- The first item of the inbox passes. -/
def pass (l : Ledger α) (a : α) (rest : List α) : Ledger α :=
  { l with judged := l.judged ++ [(a, true)], inbox := rest, waiting := l.waiting ++ [a] }

/-- The first item of the inbox is refused. -/
def refuse (l : Ledger α) (a : α) (rest : List α) : Ledger α :=
  { l with judged := l.judged ++ [(a, false)], inbox := rest }

/-- The buffer is emptied, and its first `k` items are handed over. -/
def flush (l : Ledger α) (k : ℕ) : Ledger α :=
  { l with
    waiting := []
    handedOver := l.handedOver ++ l.waiting.take k
    discarded := l.discarded ++ l.waiting.drop k }

variable (l : Ledger α) (batch rest : List α) (a : α) (k : ℕ)

@[simp] theorem arrived_arrive : (l.arrive batch).arrived = l.arrived ++ batch := by
  simp [arrived, arrive]

@[simp] theorem passed_arrive : (l.arrive batch).passed = l.passed := rfl

@[simp] theorem refused_arrive : (l.arrive batch).refused = l.refused := rfl

@[simp] theorem passed_pass : (l.pass a rest).passed = l.passed ++ [a] := by
  simp [passed, pass, List.filter_append]

@[simp] theorem refused_pass : (l.pass a rest).refused = l.refused := by
  simp [refused, pass, List.filter_append]

@[simp] theorem passed_refuse : (l.refuse a rest).passed = l.passed := by
  simp [passed, refuse, List.filter_append]

@[simp] theorem refused_refuse : (l.refuse a rest).refused = l.refused ++ [a] := by
  simp [refused, refuse, List.filter_append]

@[simp] theorem arrived_flush : (l.flush k).arrived = l.arrived := rfl

@[simp] theorem passed_flush : (l.flush k).passed = l.passed := rfl

@[simp] theorem refused_flush : (l.flush k).refused = l.refused := rfl

variable {l a rest}

/-- Judging an item does not change what arrived. -/
theorem arrived_pass (first : l.inbox = a :: rest) : (l.pass a rest).arrived = l.arrived := by
  simp [arrived, pass, first]

theorem arrived_refuse (first : l.inbox = a :: rest) : (l.refuse a rest).arrived = l.arrived := by
  simp [arrived, refuse, first]

end Ledger

/-- One step of the system. -/
inductive Move : Ledger α → Ledger α → Prop where
  | arrive (l : Ledger α) (batch : List α) : Move l (l.arrive batch)
  | pass {l : Ledger α} {a : α} {rest : List α} (first : l.inbox = a :: rest) :
      Move l (l.pass a rest)
  | refuse {l : Ledger α} {a : α} {rest : List α} (first : l.inbox = a :: rest) :
      Move l (l.refuse a rest)
  | flush (l : Ledger α) (k : ℕ) : Move l (l.flush k)

/-- Any number of steps. -/
abbrev Moves : Ledger α → Ledger α → Prop := Relation.ReflTransGen Move

/-- What every reachable ledger satisfies. -/
structure Kept (l : Ledger α) : Prop where
  perm : l.passed.Perm (l.handedOver ++ l.discarded ++ l.waiting)
  order : (l.handedOver ++ l.waiting).Sublist l.passed

theorem Kept.empty : Kept (Ledger.empty : Ledger α) where
  perm := .refl _
  order := .refl _

/-- One step keeps custody. -/
theorem Kept.move {l l' : Ledger α} (kept : Kept l) (move : Move l l') : Kept l' := by
  cases move with
  | arrive batch => exact ⟨kept.perm, kept.order⟩
  | @pass a rest first =>
      refine ⟨?_, ?_⟩
      · rw [Ledger.passed_pass]
        simpa [Ledger.pass] using kept.perm.append_right [a]
      · rw [Ledger.passed_pass]
        simpa [Ledger.pass] using kept.order.append (List.Sublist.refl [a])
  | @refuse a rest first =>
      have passed : (l.refuse a rest).passed = l.passed := Ledger.passed_refuse l rest a
      exact ⟨passed ▸ kept.perm, passed ▸ kept.order⟩
  | flush k =>
      have split : l.waiting.take k ++ l.waiting.drop k = l.waiting := List.take_append_drop k _
      refine ⟨?_, ?_⟩
      · calc l.passed
          _ ~ l.handedOver ++ l.discarded ++ (l.waiting.take k ++ l.waiting.drop k) := by
              rw [split]; exact kept.perm
          _ ~ l.handedOver ++ l.waiting.take k ++ (l.discarded ++ l.waiting.drop k) := by
              simp only [List.append_assoc]
              refine List.Perm.append_left _ ?_
              simp only [← List.append_assoc]
              exact List.perm_append_comm.append_right _
          _ ~ _ := by simp [Ledger.flush]
      · have prefix_sub : (l.handedOver ++ l.waiting.take k).Sublist l.passed :=
          ((List.take_sublist k _).append_left _).trans kept.order
        have handedOver : (l.flush k).handedOver ++ (l.flush k).waiting =
            l.handedOver ++ l.waiting.take k := by simp [Ledger.flush]
        exact handedOver ▸ prefix_sub

theorem Kept.moves {l l' : Ledger α} (kept : Kept l) (moves : Moves l l') : Kept l' := by
  induction moves with
  | refl => exact kept
  | tail _ move inductionHypothesis => exact inductionHypothesis.move move

namespace Ledger

/-- The judged items are those that passed and those refused. -/
theorem judged_perm (l : Ledger α) : (l.judged.map Prod.fst).Perm (l.passed ++ l.refused) := by
  rw [passed, refused, ← List.map_append]
  exact (List.filter_append_perm _ _).symm.map _

/-- Every arrival is in exactly one place. -/
theorem arrived_perm {l : Ledger α} (kept : Kept l) (judgedAll : l.inbox = []) :
    l.arrived.Perm (l.handedOver ++ l.refused ++ l.discarded ++ l.waiting) := by
  rw [arrived, judgedAll, List.append_nil]
  calc l.judged.map Prod.fst
    _ ~ l.passed ++ l.refused := l.judged_perm
    _ ~ l.handedOver ++ l.discarded ++ l.waiting ++ l.refused := kept.perm.append_right _
    _ ~ l.handedOver ++ l.refused ++ l.discarded ++ l.waiting := by
        simp only [List.append_assoc]
        refine List.Perm.append_left _ ?_
        calc l.discarded ++ (l.waiting ++ l.refused)
          _ ~ l.discarded ++ l.waiting ++ l.refused := by rw [List.append_assoc]
          _ ~ l.refused ++ (l.discarded ++ l.waiting) := List.perm_append_comm

end Ledger

end DdosFiltering.Foundation
