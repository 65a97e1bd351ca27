import Mathlib.Data.List.Basic
import Mathlib.Order.Nat

/-!
# Events that are far apart

Events happen at some positions of a list of readings. Successive events are far apart
(`Apart`), or any two of them are (`AllApart`). The second is the stronger property, and it
follows from the first where being far does not stop between two readings
(`apart_iff_allApart`).
-/

set_option autoImplicit false

namespace DdosFiltering.Foundation

variable {α : Type*} {far : α → α → Prop} {happens : ℕ → Prop} {readings : List α}

/-- Successive events happen at readings that are far apart. -/
def Apart (far : α → α → Prop) (happens : ℕ → Prop) (readings : List α) : Prop :=
  ∀ i j a b, i < j → happens i → happens j → (∀ k, i < k → k < j → ¬happens k) →
    readings[i]? = some a → readings[j]? = some b → far a b

/-- Any two events happen at readings that are far apart. -/
def AllApart (far : α → α → Prop) (happens : ℕ → Prop) (readings : List α) : Prop :=
  ∀ i j a b, i < j → happens i → happens j →
    readings[i]? = some a → readings[j]? = some b → far a b

/-- Readings of a sorted list are related as their positions. -/
theorem rel_of_pairwise {le : α → α → Prop} (refl : ∀ a, le a a) (sorted : readings.Pairwise le)
    {i j : ℕ} {a b : α} (before : i ≤ j) (first : readings[i]? = some a)
    (second : readings[j]? = some b) : le a b := by
  obtain ⟨inside, rfl⟩ := List.getElem?_eq_some_iff.mp first
  obtain ⟨inside', rfl⟩ := List.getElem?_eq_some_iff.mp second
  rcases Nat.lt_or_eq_of_le before with less | rfl
  · exact List.pairwise_iff_getElem.mp sorted i j inside inside' less
  · exact refl _

/-- Where all readings are far apart, events are. -/
theorem AllApart.of_pairwise (sorted : readings.Pairwise far) :
    AllApart far happens readings := by
  intro i j a b before _ _ first second
  obtain ⟨inside, rfl⟩ := List.getElem?_eq_some_iff.mp first
  obtain ⟨inside', rfl⟩ := List.getElem?_eq_some_iff.mp second
  exact List.pairwise_iff_getElem.mp sorted i j inside inside' before

/-- When later readings are farther away, successive events are far apart exactly if any two
are. -/
theorem apart_iff_allApart {le : α → α → Prop} (refl : ∀ a, le a a)
    (farther : ∀ {a c b}, le a c → le c b → far a c → far a b) (sorted : readings.Pairwise le)
    (inside : ∀ i, happens i → i < readings.length) :
    Apart far happens readings ↔ AllApart far happens readings := by
  classical
  constructor
  · intro apart i j a b before first second atFirst atSecond
    have some_later : ∃ k, i < k ∧ happens k := ⟨j, before, second⟩
    obtain ⟨later, happens_next⟩ := Nat.find_spec some_later
    have atMost : Nat.find some_later ≤ j := Nat.find_min' some_later ⟨before, second⟩
    have none_between : ∀ k, i < k → k < Nat.find some_later → ¬happens k :=
      fun k after earlier now => Nat.find_min some_later earlier ⟨after, now⟩
    obtain ⟨c, atNext⟩ : ∃ c, readings[Nat.find some_later]? = some c :=
      ⟨_, List.getElem?_eq_getElem (inside _ happens_next)⟩
    have up := rel_of_pairwise refl sorted (Nat.le_of_lt later) atFirst atNext
    have upAgain := rel_of_pairwise refl sorted atMost atNext atSecond
    exact farther up upAgain
      (apart i _ a c later first happens_next none_between atFirst atNext)
  · intro all i j a b before first second _ atFirst atSecond
    exact all i j a b before first second atFirst atSecond

end DdosFiltering.Foundation
