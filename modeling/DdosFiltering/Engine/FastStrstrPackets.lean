import DdosFiltering.Engine.FastStrstrExact

/-!
# Which packets decide the verdict

The bound of the packet holds only for the first byte of the pattern. From there on a search
reads to the next NUL, also behind the packet, where the buffer holds what earlier packets
left. So a verdict depends on the packet alone only if the search ends in the packet, or if no
bytes behind it could make a hit (`PacketDecides`, `verdict_decided_iff`).
-/

set_option autoImplicit false

namespace DdosFiltering.Engine

open Foundation

variable {needleChar : UInt8 → UInt32} {key : UInt32} {needle p packet : List UInt8}
  {pktLen : UInt32}

/-! ## Hits in longer texts -/

theorem hit_nil (key : UInt32) (text : List UInt8) : Hit key [] text := .inl List.nil_prefix

theorem Hit.append {text : List UInt8} (hit : Hit key p text) (more : List UInt8) :
    Hit key p (text ++ more) := by
  rcases List.eq_nil_or_concat' p with rfl | ⟨q, c, rfl⟩
  · exact hit_nil key _
  · rw [hit_iff] at hit ⊢
    rcases hit with starts | ⟨b, sum, occurs⟩
    · exact .inl (starts.trans (List.prefix_append text more))
    · have nonempty : text ≠ [] := by
        rintro rfl
        simp at occurs
      refine .inr ⟨b, sum, ?_⟩
      rw [List.tail_append_of_ne_nil nonempty]
      exact occurs.trans (List.prefix_append _ more).isInfix

/-- A text of no hit becomes one only by completing the pattern at its start, or by a later
window whose last byte makes up the sum. -/
theorem Hit.of_append {text more : List UInt8} (hit : Hit key p (text ++ more))
    (missed : ¬Hit key p text) (noNul : 0 ∉ text ++ more) :
    text <+: p ∨ ∃ b, b ≠ 0 ∧ weightSum charToUnsigned p.dropLast + charToUnsigned b = key := by
  rcases List.eq_nil_or_concat' p with rfl | ⟨q, c, rfl⟩
  · exact absurd (hit_nil key text) missed
  · rcases hit_iff.mp hit with starts | ⟨b, sum, occurs⟩
    · refine .inl ((List.prefix_or_prefix_of_prefix starts
        (List.prefix_append text more)).resolve_left fun shorter => missed (.inl shorter))
    · refine .inr ⟨b, fun nul => noNul ?_, ?_⟩
      · rw [← nul]
        have last : b ∈ q ++ [b] := List.mem_append_right _ (List.mem_singleton_self b)
        exact List.mem_of_mem_tail (occurs.subset last)
      · rw [List.dropLast_concat]
        exact sum

/-! ## The searched text of longer buffers -/

/-- A NUL in the packet ends the text. -/
theorem searchedText_of_nul (present : p.headD 0 ∈ packet) (nul : 0 ∈ candidate p packet)
    (back : List UInt8) : searchedText p (packet ++ back) = textOf (candidate p packet) := by
  rw [searchedText, candidate_append present, textOf, textOf, List.takeWhile_append,
    if_neg]
  exact (length_textOf_lt nul).ne

/-- Without a NUL in the packet, the text goes on behind it. -/
theorem searchedText_append (present : p.headD 0 ∈ packet) (noNul : 0 ∉ candidate p packet)
    (back : List UInt8) : searchedText p (packet ++ back) = candidate p packet ++ textOf back := by
  have all : ∀ b ∈ candidate p packet, decide (b ≠ 0) = true := fun b member =>
    decide_eq_true fun nul => noNul (nul ▸ member)
  rw [searchedText, candidate_append present, textOf, List.takeWhile_append_of_pos all, textOf]

/-! ## Verdicts -/

/-- The verdict is decided in the packet: the first byte of the pattern is not in it; or a NUL
ends the text in it; or the text in it is hit; or nothing behind it can make a hit, since the
packet does not end in the middle of the pattern and no byte makes up the sum. -/
def PacketDecides (key : UInt32) (p packet : List UInt8) : Prop :=
  p.headD 0 ∉ packet ∨ 0 ∈ candidate p packet ∨ Hit key p (candidate p packet) ∨
    (¬candidate p packet <+: p ∧
      ∀ b, b ≠ 0 → weightSum charToUnsigned p.dropLast + charToUnsigned b ≠ key)

theorem PacketDecides.matches_iff (decided : PacketDecides key p packet) (back back' : List UInt8) :
    Matches key p packet (packet ++ back) ↔ Matches key p packet (packet ++ back') := by
  unfold Matches
  apply and_congr_right
  intro present
  by_cases nul : 0 ∈ candidate p packet
  · rw [searchedText_of_nul present nul, searchedText_of_nul present nul]
  rw [searchedText_append present nul, searchedText_append present nul]
  by_cases hit : Hit key p (candidate p packet)
  · exact iff_of_true (hit.append _) (hit.append _)
  obtain ⟨noPrefix, noByte⟩ := ((decided.resolve_left (not_not_intro present)).resolve_left
    nul).resolve_left hit
  have missed (more : List UInt8) : ¬Hit key p (candidate p packet ++ textOf more) := by
    intro found
    have noNul : 0 ∉ candidate p packet ++ textOf more := fun member =>
      (List.mem_append.mp member).elim nul (not_mem_textOf more)
    rcases found.of_append hit noNul with starts | ⟨b, notNul, sum⟩
    · exact noPrefix starts
    · exact noByte b notNul sum
  exact iff_of_false (missed _) (missed _)

/-- Where the packet does not decide, some bytes behind it make a hit. -/
theorem exists_hit_of_undecided (noNul : 0 ∉ p) (undecided : ¬PacketDecides key p packet) :
    p.headD 0 ∈ packet ∧ 0 ∉ candidate p packet ∧ ¬Hit key p (candidate p packet) ∧
      ∃ more, 0 ∉ more ∧ Hit key p (candidate p packet ++ more) := by
  unfold PacketDecides at undecided
  simp only [not_or, not_not, not_and, not_forall] at undecided
  obtain ⟨present, nul, missed, completes⟩ := undecided
  refine ⟨present, nul, missed, ?_⟩
  rcases List.eq_nil_or_concat' p with rfl | ⟨q, c, rfl⟩
  · exact absurd (hit_nil key _) missed
  by_cases starts : candidate (q ++ [c]) packet <+: q ++ [c]
  · obtain ⟨rest, split⟩ := starts
    refine ⟨rest, fun member => noNul ?_, .inl ?_⟩
    · rw [← split]
      exact List.mem_append_right _ member
    · rw [split]
  · obtain ⟨b, notNul, sum⟩ := completes starts
    rw [List.dropLast_concat] at sum
    obtain ⟨rest, first⟩ := candidate_eq_cons present
    refine ⟨q ++ [b], ?_, hit_iff.mpr (.inr ⟨b, sum, ?_⟩)⟩
    · intro member
      rcases List.mem_append.mp member with front | last
      · exact noNul (List.mem_append_left _ front)
      · exact notNul (List.mem_singleton.mp last).symm
    · rw [first, List.cons_append, List.tail_cons]
      exact (List.suffix_append _ _).isInfix

/-- What a search returns for the packet, whatever lies behind it. -/
def DependsOnPacketOnly (f : List UInt8 → UInt32 → Option ℤ) (packet : List UInt8)
    (pktLen : UInt32) : Prop :=
  ∀ back back' ret ret', f (packet ++ back) pktLen = some ret →
    f (packet ++ back') pktLen = some ret' → ret = ret'

/-- **One search.** Its verdict depends on the packet only if and only if the packet decides. -/
theorem search_decided_iff (stores : Stores needle p) (positive : 1 ≤ pktLen.toNat)
    (length : pktLen.toNat = packet.length) :
    DependsOnPacketOnly (search needleChar key needle) packet pktLen ↔
      PacketDecides (soughtSum needleChar key p) p packet := by
  have fits (back : List UInt8) : pktLen.toNat ≤ (packet ++ back).length := by
    rw [length, List.length_append]
    exact Nat.le_add_right _ _
  have taken (back : List UInt8) : (packet ++ back).take pktLen.toNat = packet :=
    List.take_left' length.symm
  constructor
  · intro same
    by_contra undecided
    obtain ⟨present, nul, missed, more, moreNoNul, hit⟩ :=
      exists_hit_of_undecided stores.noNul undecided
    have nonempty : p ≠ [] := by
      rintro rfl
      exact missed (hit_nil _ _)
    have returns (front : List UInt8) := search_returns needleChar key stores nonempty positive
      (fits (front ++ [0])) (by
        rw [taken, candidate_append present]
        intro _
        simp)
    obtain ⟨ret, returned, verdict⟩ := returns more
    obtain ⟨ret', returned', verdict'⟩ := returns []
    have text (front : List UInt8) (noNul : 0 ∉ front) : textOf (front ++ [0]) = front := by
      have all : ∀ b ∈ front, decide (b ≠ 0) = true := fun b member =>
        decide_eq_true fun nul => noNul (nul ▸ member)
      rw [textOf, List.takeWhile_append_of_pos all]
      simp
    rw [taken] at verdict verdict'
    have agree := (verdict.eq_iff verdict').mp (same _ _ ret ret' returned returned')
    unfold Matches at agree
    rw [searchedText_append present nul, searchedText_append present nul, text more moreNoNul,
      text [] List.not_mem_nil, List.append_nil] at agree
    exact missed (agree.mp ⟨present, hit⟩).2
  · intro decided back back' ret ret' returned returned'
    have verdict := search_decides stores positive (fits back) returned
    have verdict' := search_decides stores positive (fits back') returned'
    rw [taken] at verdict verdict'
    exact (verdict.eq_iff verdict').mpr (decided.matches_iff back back')

/-! ## The engine -/

theorem fastStrstrFilterOne_eq {t : FastStr} (filled : t.Filled) (nonempty : 0 < t.strings.length) :
    Stores (t.strings.getD 0 []) (t.pattern 0) ∧
      fastStrstrFilterOne t = search charToUnsigned 0 (t.strings.getD 0 []) := by
  have needle : t.strings[0]? = some (t.strings.getD 0 []) := by
    rw [List.getD_eq_getElem?_getD, List.getElem?_eq_getElem nonempty]
    rfl
  refine ⟨filled.stores _ (List.mem_of_getElem? needle), ?_⟩
  funext buffer pktLen
  rw [fastStrstrFilterOne, needle]

/-- **When the string verdict depends on the packet only**, for a table of at least five
patterns: for the hashed search, and for the plain one. -/
theorem verdict_decided_iff {lib : StringLibrary} {file : Option (List UInt8)} {linesNb : ℤ}
    {t : FastStr} (compiled : fastStrCompile lib file linesNb = .returns t)
    (five : 5 ≤ t.strings.length) (positive : 1 ≤ pktLen.toNat)
    (length : pktLen.toNat = packet.length) :
    (DependsOnPacketOnly (fastStrstrFilterOneHashed t) packet pktLen ↔
        PacketDecides (t.keyOf 0) (t.pattern 4) packet) ∧
      (DependsOnPacketOnly (fastStrstrFilterOne t) packet pktLen ↔
        PacketDecides (weightSum charToUnsigned (t.pattern 0).tail) (t.pattern 0) packet) := by
  have filled := (fastStrCompile_filled compiled).1
  constructor
  · obtain ⟨stores, -⟩ := fastStrstrFilterOneHashed_eq filled five [] 0
    have engine : fastStrstrFilterOneHashed t =
        search (fun _ => 0) (t.keyOf 0) (t.strings.getD 4 []) := by
      funext buffer pktLen
      exact (fastStrstrFilterOneHashed_eq filled five buffer pktLen).2
    rw [engine, search_decided_iff stores positive length, soughtSum_zero]
  · obtain ⟨stores, engine⟩ := fastStrstrFilterOne_eq filled (by omega)
    rw [engine, search_decided_iff stores positive length, plainSum]

/-- The file with the lines 41, 42, 43, 44 and 4142. -/
def fiveLines : List UInt8 :=
  [53, 10, 52, 49, 10, 52, 50, 10, 52, 51, 10, 52, 52, 10, 52, 49, 52, 50, 10]

/-- The fifth pattern is `AB`: the packet `AC` and a NUL decides. -/
theorem verdict_decided_iff_nul :
    ∃ t, fastStrCompile glibcLibrary (some fiveLines) 0 = .returns t ∧
      DependsOnPacketOnly (fastStrstrFilterOneHashed t) [65, 67, 0] 3 := by
  obtain ⟨t, compiled, five, nul⟩ : ∃ t,
      fastStrCompile glibcLibrary (some fiveLines) 0 = .returns t ∧ 5 ≤ t.strings.length ∧
        0 ∈ candidate (t.pattern 4) [65, 67, 0] :=
    ⟨_, rfl, by decide, by decide⟩
  exact ⟨t, compiled, (verdict_decided_iff compiled five (by decide) rfl).1.mpr (.inr (.inl nul))⟩

/-- The fifth pattern is `AB`: behind the packet `A`, the bytes `B` and NUL make a match that a NUL
does not. -/
theorem verdict_reads_behind :
    ¬∀ (file : Option (List UInt8)) (linesNb : ℤ) (t : FastStr),
      fastStrCompile glibcLibrary file linesNb = .returns t → 5 ≤ t.strings.length →
      ∀ (packet : List UInt8) (pktLen : UInt32), 1 ≤ pktLen.toNat → pktLen.toNat = packet.length →
        DependsOnPacketOnly (fastStrstrFilterOneHashed t) packet pktLen := by
  intro claim
  obtain ⟨t, compiled, five, one, zero⟩ : ∃ t,
      fastStrCompile glibcLibrary (some fiveLines) 0 = .returns t ∧ 5 ≤ t.strings.length ∧
        fastStrstrFilterOneHashed t ([65] ++ [66, 0, 0]) 1 = some 1 ∧
          fastStrstrFilterOneHashed t ([65] ++ [0]) 1 = some 0 :=
    ⟨_, rfl, by decide, rfl, rfl⟩
  exact absurd (claim _ _ t compiled five [65] 1 (by decide) rfl _ _ _ _ one zero) (by decide)

end DdosFiltering.Engine
