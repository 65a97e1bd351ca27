import Mathlib.Data.Finset.Card
import Mathlib.Data.Finset.Range
import Mathlib.Data.List.Perm.Basic
import Mathlib.Data.List.Range

/-!
# Initial segments

Things are numbered from 0 on without gaps, and some of them are selected. The numbers of the
selected ones are smaller than their count exactly when no number is left out below one that is
selected (`forall_lt_length_iff`).
-/

set_option autoImplicit false

namespace DdosFiltering.Foundation

variable {α : Type*} {l : List α} {f : α → ℕ} {k : ℕ}

/-- A number below the count of things has a thing. -/
theorem exists_numbered (dense : (l.map f).Perm (List.range k)) {n : ℕ} (below : n < k) :
    ∃ a ∈ l, f a = n :=
  List.mem_map.mp (dense.mem_iff.mpr (List.mem_range.mpr below))

theorem numbered_lt (dense : (l.map f).Perm (List.range k)) {a : α} (member : a ∈ l) : f a < k :=
  List.mem_range.mp (dense.mem_iff.mp (List.mem_map_of_mem member))

/-- A number has one thing only. -/
theorem eq_of_numbered (dense : (l.map f).Perm (List.range k)) {a b : α} (first : a ∈ l)
    (second : b ∈ l) (same : f a = f b) : a = b :=
  List.inj_on_of_nodup_map (dense.nodup_iff.mpr List.nodup_range) first second same

/-- **Selected numbers are below their count** exactly when they are an initial segment. -/
theorem forall_lt_length_iff (dense : (l.map f).Perm (List.range k)) (p : α → Bool) :
    (∀ a ∈ l.filter p, f a < (l.filter p).length) ↔
      ∀ a ∈ l, p a = true → ∀ b ∈ l, f b < f a → p b = true := by
  have distinct : ((l.filter p).map f).Nodup :=
    (dense.nodup_iff.mpr List.nodup_range).sublist (List.filter_sublist.map f)
  have card : ((l.filter p).map f).toFinset.card = (l.filter p).length := by
    rw [List.toFinset_card_of_nodup distinct, List.length_map]
  constructor
  · intro below a inList selected b inList' smaller
    have inside : ((l.filter p).map f).toFinset ⊆ Finset.range (l.filter p).length := by
      intro n member
      obtain ⟨c, isSelected, rfl⟩ := List.mem_map.mp (List.mem_toFinset.mp member)
      exact Finset.mem_range.mpr (below c isSelected)
    have all := Finset.eq_of_subset_of_card_le inside (by rw [card, Finset.card_range])
    have bound := below a (List.mem_filter.mpr ⟨inList, selected⟩)
    have member : f b ∈ ((l.filter p).map f).toFinset :=
      all ▸ Finset.mem_range.mpr (smaller.trans bound)
    obtain ⟨c, isSelected, same⟩ := List.mem_map.mp (List.mem_toFinset.mp member)
    obtain ⟨inList'', selected'⟩ := List.mem_filter.mp isSelected
    exact eq_of_numbered dense inList'' inList' same ▸ selected'
  · intro segment a isSelected
    obtain ⟨inList, selected⟩ := List.mem_filter.mp isSelected
    have inside : Finset.range (f a + 1) ⊆ ((l.filter p).map f).toFinset := by
      intro n member
      have small := Nat.lt_succ_iff.mp (Finset.mem_range.mp member)
      obtain ⟨b, inList', rfl⟩ :=
        exists_numbered dense (small.trans_lt (numbered_lt dense inList))
      refine List.mem_toFinset.mpr (List.mem_map_of_mem (List.mem_filter.mpr ⟨inList', ?_⟩))
      rcases small.lt_or_eq with smaller | same
      · exact segment a inList selected b inList' smaller
      · exact eq_of_numbered dense inList' inList same ▸ selected
    have size := Finset.card_le_card inside
    rw [Finset.card_range, card] at size
    exact size

end DdosFiltering.Foundation
