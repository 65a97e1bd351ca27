import Mathlib.Data.List.Basic

/-!
# Codes that tell where they end

A code is self-delimiting when the code of one value, with anything behind it, begins with the
code of no other value. What such a code writes one behind the other can be read back
(`SelfDelimiting.flatMap_injective`). A text with an end mark that it does not contain is
self-delimiting, and so is one code behind another.
-/

set_option autoImplicit false

namespace DdosFiltering.Foundation

variable {α β γ : Type*} {valid : β → Prop} {code : β → List α}

/-- Where the code of a valid value begins a list, the value and the rest are determined. -/
def SelfDelimiting (valid : β → Prop) (code : β → List α) : Prop :=
  ∀ a b back back', valid a → valid b → code a ++ back = code b ++ back' → a = b ∧ back = back'

/-- A text up to an end mark that it does not contain. -/
theorem SelfDelimiting.ended (mark : α) :
    SelfDelimiting (fun text : List α => mark ∉ text) fun text => text ++ [mark] := by
  intro a
  induction a with
  | nil =>
      intro b back back' _ noMark same
      cases b with
      | nil => exact ⟨rfl, List.cons.inj same |>.2⟩
      | cons c b =>
          obtain ⟨rfl, -⟩ := List.cons.inj same
          exact absurd List.mem_cons_self noMark
  | cons c a inductionHypothesis =>
      intro b back back' noMark noMark' same
      cases b with
      | nil =>
          obtain ⟨rfl, -⟩ := List.cons.inj same
          exact absurd List.mem_cons_self noMark
      | cons c' b =>
          obtain ⟨rfl, rest⟩ := List.cons.inj same
          obtain ⟨rfl, rfl⟩ := inductionHypothesis b back back'
            (fun member => noMark (List.mem_cons_of_mem _ member))
            (fun member => noMark' (List.mem_cons_of_mem _ member)) rest
          exact ⟨rfl, rfl⟩

/-- One code behind another. -/
theorem SelfDelimiting.append {valid' : γ → Prop} {code' : γ → List α}
    (delimits : SelfDelimiting valid code) (delimits' : SelfDelimiting valid' code') :
    SelfDelimiting (fun p : β × γ => valid p.1 ∧ valid' p.2) fun p => code p.1 ++ code' p.2 := by
  rintro ⟨a, c⟩ ⟨b, d⟩ back back' ⟨validA, validC⟩ ⟨validB, validD⟩ same
  simp only [List.append_assoc] at same
  obtain ⟨rfl, rest⟩ := delimits a b _ _ validA validB same
  obtain ⟨rfl, rfl⟩ := delimits' c d _ _ validC validD rest
  exact ⟨rfl, rfl⟩

/-- **A sequence of codes can be read back**, by induction on the values. -/
theorem SelfDelimiting.flatMap_injective (delimits : SelfDelimiting valid code)
    (writes : ∀ a, code a ≠ []) {as bs : List β} (validAs : ∀ a ∈ as, valid a)
    (validBs : ∀ b ∈ bs, valid b) (same : as.flatMap code = bs.flatMap code) : as = bs := by
  induction as generalizing bs with
  | nil =>
      cases bs with
      | nil => rfl
      | cons b bs =>
          rw [List.flatMap_nil, List.flatMap_cons] at same
          exact absurd (List.append_eq_nil_iff.mp same.symm).1 (writes b)
  | cons a as inductionHypothesis =>
      cases bs with
      | nil =>
          rw [List.flatMap_nil, List.flatMap_cons] at same
          exact absurd (List.append_eq_nil_iff.mp same).1 (writes a)
      | cons b bs =>
          rw [List.flatMap_cons, List.flatMap_cons] at same
          obtain ⟨validA, laterAs⟩ := List.forall_mem_cons.mp validAs
          obtain ⟨validB, laterBs⟩ := List.forall_mem_cons.mp validBs
          obtain ⟨rfl, rest⟩ := delimits a b _ _ validA validB same
          rw [inductionHypothesis laterAs laterBs rest]

end DdosFiltering.Foundation
