import DdosFiltering.Engine.FastStrstrVerdicts
import Mathlib.Data.Int.ModEq

/-!
# The searches and the naive search

Both searches hit the pattern at the start of the text, and behind it every window that has
the bytes of the pattern but the last and a certain sum. `fast_strstr_filter_one_hashed` takes
the sum from its table; with the sum of the pattern it is the naive search
(`hashed_search_naive`). `fast_strstr_filter_one` counts the first byte of the packet but not
the first one of the pattern, so behind the first window it hits the pattern with another last
byte, the value of the last one less the value of the first one (`plain_search_exact_iff`).
Where the two search for the same pattern they differ for that reason only
(`searches_agree_iff`).
-/

set_option autoImplicit false

namespace DdosFiltering.Engine

open Foundation

/-! ## Sums of `char` -/

theorem toNat_ofInt (x : ℤ) : ((UInt32.ofInt x).toNat : ℤ) = x % 2 ^ 32 := by
  rw [UInt32.ofInt, UInt32.toNat_ofNat_of_lt' ?_]
  · exact Int.toNat_of_nonneg (Int.emod_nonneg x (by decide))
  · have small : x % 2 ^ 32 < 2 ^ 32 := Int.emod_lt_of_pos x (by decide)
    have nonneg : 0 ≤ x % 2 ^ 32 := Int.emod_nonneg x (by decide)
    have size : UInt32.size = 4294967296 := rfl
    omega

theorem ofInt_eq_ofInt_iff {a b : ℤ} : UInt32.ofInt a = UInt32.ofInt b ↔ a ≡ b [ZMOD 2 ^ 32] := by
  constructor
  · intro same
    change a % 2 ^ 32 = b % 2 ^ 32
    rw [← toNat_ofInt a, ← toNat_ofInt b, same]
  · intro same
    refine UInt32.toNat_inj.mp (Int.ofNat_inj.mp ?_)
    rw [toNat_ofInt, toNat_ofInt]
    exact same

theorem weightSum_charToUnsigned (l : List UInt8) :
    weightSum charToUnsigned l = UInt32.ofInt (weightSum charValue l) := by
  induction l with
  | nil => rfl
  | cons c l inductionHypothesis =>
      rw [weightSum_cons, weightSum_cons, inductionHypothesis, UInt32.ofInt_add]
      rfl

theorem charValue_bounds (c : UInt8) : -128 ≤ charValue c ∧ charValue c ≤ 127 := by
  have below := c.toInt8.le_toInt
  have above := c.toInt8.toInt_lt
  unfold charValue
  omega

theorem charValue_injective : Function.Injective charValue := by
  intro a b same
  have := Int8.toInt_inj.mp same
  simpa using congrArg Int8.toUInt8 this

theorem charToUnsigned_eq_iff {a : UInt8} {n : ℤ} (small : -256 ≤ n ∧ n ≤ 255) :
    charToUnsigned a = UInt32.ofInt n ↔ charValue a = n := by
  rw [charToUnsigned, ofInt_eq_ofInt_iff, Int.modEq_iff_dvd]
  have bounds := charValue_bounds a
  constructor
  · rintro ⟨m, difference⟩
    omega
  · rintro rfl
    simp

theorem charToUnsigned_injective : Function.Injective charToUnsigned := by
  intro a b same
  have bounds := charValue_bounds b
  exact charValue_injective ((charToUnsigned_eq_iff (by omega)).mp same)

/-! ## What a search returns -/

/-- A verdict: 1 when the packet matches, and 0 when it does not. -/
def Decides (ret : ℤ) (matched : Prop) : Prop := (matched → ret = 1) ∧ (¬matched → ret = 0)

theorem Decides.eq_one_iff {ret : ℤ} {matched : Prop} (verdict : Decides ret matched) :
    ret = 1 ↔ matched := by
  constructor
  · intro one
    by_contra notMatched
    exact absurd (one.symm.trans (verdict.2 notMatched)) (by decide)
  · exact verdict.1

theorem Decides.eq_iff {ret ret' : ℤ} {matched matched' : Prop} (verdict : Decides ret matched)
    (verdict' : Decides ret' matched') : ret = ret' ↔ (matched ↔ matched') := by
  rw [← verdict.eq_one_iff, ← verdict'.eq_one_iff]
  constructor
  · rintro rfl
    rfl
  · intro same
    by_cases one : ret = 1
    · rw [one, same.mp one]
    · have other : ¬ret' = 1 := fun one' => one (same.mpr one')
      rw [verdict.2 (mt verdict.eq_one_iff.mpr one), verdict'.2 (mt verdict'.eq_one_iff.mpr other)]

variable {needleChar : UInt8 → UInt32} {key : UInt32} {needle p buffer : List UInt8}
  {pktLen : UInt32}

/-- The text that a search looks at in a buffer, from the first byte of the pattern on. -/
def searchedText (p buffer : List UInt8) : List UInt8 := textOf (candidate p buffer)

/-- What a search matches: its first byte is in the packet, and the text from there is hit. -/
def Matches (key : UInt32) (p packet buffer : List UInt8) : Prop :=
  p.headD 0 ∈ packet ∧ Hit key p (searchedText p buffer)

/-- **A search that returns** says whether it matches. -/
theorem search_decides (stores : Stores needle p) (positive : 1 ≤ pktLen.toNat)
    (fits : pktLen.toNat ≤ buffer.length) {ret : ℤ}
    (returns : search needleChar key needle buffer pktLen = some ret) :
    Decides ret (Matches (soughtSum needleChar key p) p (buffer.take pktLen.toNat) buffer) := by
  obtain ⟨absent, present⟩ := search_eq needleChar key stores positive fits
  constructor
  · rintro ⟨here, hit⟩
    have outcome := (present here).1 hit
    rw [returns] at outcome
    by_cases inside : max 1 p.length < (candidate p buffer).length
    · rw [if_pos inside] at outcome
      exact Option.some.inj outcome
    · rw [if_neg inside] at outcome
      exact absurd outcome (by simp)
  · intro missed
    by_cases here : p.headD 0 ∈ buffer.take pktLen.toNat
    · have outcome := (present here).2 fun hit => missed ⟨here, hit⟩
      rw [returns] at outcome
      by_cases inside : (textOf (candidate p buffer)).length < (candidate p buffer).length
      · rw [if_pos inside] at outcome
        exact Option.some.inj outcome
      · rw [if_neg inside] at outcome
        exact absurd outcome (by simp)
    · have outcome := absent here
      rw [returns] at outcome
      exact Option.some.inj outcome

theorem length_textOf_lt {mem : List UInt8} (terminated : 0 ∈ mem) :
    (textOf mem).length < mem.length := by
  have proper : textOf mem ≠ mem := fun same => not_mem_textOf mem (same.symm ▸ terminated)
  have shorter : (textOf mem).length ≤ mem.length := (List.takeWhile_prefix _).length_le
  refine lt_of_le_of_ne shorter fun same => proper ?_
  exact (List.takeWhile_prefix _).eq_of_length same

/-- A search in a buffer with a NUL behind the first byte of the pattern returns. -/
theorem search_returns (needleChar : UInt8 → UInt32) (key : UInt32) (stores : Stores needle p)
    (nonempty : p ≠ []) (positive : 1 ≤ pktLen.toNat) (fits : pktLen.toNat ≤ buffer.length)
    (terminated : p.headD 0 ∈ buffer.take pktLen.toNat → 0 ∈ candidate p buffer) :
    ∃ ret, search needleChar key needle buffer pktLen = some ret ∧
      Decides ret (Matches (soughtSum needleChar key p) p (buffer.take pktLen.toNat) buffer) := by
  obtain ⟨absent, present⟩ := search_eq needleChar key stores positive fits
  have returns : ∃ ret, search needleChar key needle buffer pktLen = some ret := by
    by_cases here : p.headD 0 ∈ buffer.take pktLen.toNat
    · have inside := length_textOf_lt (terminated here)
      obtain ⟨hit, missed⟩ := present here
      by_cases hits : Hit (soughtSum needleChar key p) p (textOf (candidate p buffer))
      · have fits := hits.length_le
        have long : 0 < p.length := List.length_pos_iff.mpr nonempty
        exact ⟨1, (hit hits).trans (if_pos (by omega))⟩
      · exact ⟨0, (missed hits).trans (if_pos inside)⟩
    · exact ⟨0, absent here⟩
  obtain ⟨ret, returns⟩ := returns
  exact ⟨ret, returns, search_decides stores positive fits returns⟩

/-! ## What the later windows match -/

theorem startsLike_append (q : List UInt8) (c : UInt8) : startsLike (q ++ [c]) = startsWith q := by
  funext mem
  simp [startsLike, startsWith]

theorem hit_iff {q text : List UInt8} {c : UInt8} :
    Hit key (q ++ [c]) text ↔
      q ++ [c] <+: text ∨
        ∃ b, weightSum charToUnsigned q + charToUnsigned b = key ∧ q ++ [b] <:+: text.tail := by
  rw [Hit, startsLike_append, List.length_append, List.length_singleton, foundAt_within]

theorem infix_iff_prefix_or_tail {text : List UInt8} (nonempty : p ≠ []) :
    p <:+: text ↔ p <+: text ∨ p <:+: text.tail := by
  cases text with
  | nil => simp [nonempty]
  | cons b text => exact List.infix_cons_iff

/-- With the sum of the pattern, the text is hit where the pattern occurs. -/
theorem hit_sum_iff {text : List UInt8} (nonempty : p ≠ []) :
    Hit (weightSum charToUnsigned p) p text ↔ p <:+: text := by
  obtain ⟨q, c, rfl⟩ := (List.eq_nil_or_concat' p).resolve_left nonempty
  rw [infix_iff_prefix_or_tail nonempty, Hit, startsLike_append, List.length_append,
    List.length_singleton, foundAt_pattern charToUnsigned_injective]

/-- The pattern with another last byte, whose value is the one of the last byte less the one of
the first, occurs in a text. -/
def ShiftedOccurs (p text : List UInt8) : Prop :=
  ∃ b, charValue b = charValue (p.getLastD 0) - charValue (p.headD 0) ∧
    p.dropLast ++ [b] <:+: text

/-- With the sum of all bytes of the pattern but the first, the later windows match the pattern
with another last byte. -/
theorem hit_tail_iff {text : List UInt8} (nonempty : p ≠ []) :
    Hit (weightSum charToUnsigned p.tail) p text ↔
      p <+: text ∨ ShiftedOccurs p text.tail := by
  obtain ⟨q, c, rfl⟩ := (List.eq_nil_or_concat' p).resolve_left nonempty
  have whole : charToUnsigned ((q ++ [c]).headD 0) + weightSum charToUnsigned (q ++ [c]).tail =
      weightSum charToUnsigned q + charToUnsigned c := by
    have split : (q ++ [c]).headD 0 :: (q ++ [c]).tail = q ++ [c] := by cases q <;> rfl
    rw [← weightSum_cons, split, weightSum_append, weightSum_cons, weightSum_nil, add_zero]
  have last (b : UInt8) :
      weightSum charToUnsigned q + charToUnsigned b = weightSum charToUnsigned (q ++ [c]).tail ↔
        charValue b = charValue c - charValue ((q ++ [c]).headD 0) := by
    have first := charValue_bounds ((q ++ [c]).headD 0)
    have second := charValue_bounds c
    rw [← charToUnsigned_eq_iff (by omega), sub_eq_add_neg, UInt32.ofInt_add, UInt32.ofInt_neg]
    change _ ↔ charToUnsigned b = charToUnsigned c + -charToUnsigned ((q ++ [c]).headD 0)
    constructor
    · intro sum
      grind
    · intro sum
      grind
  rw [hit_iff]
  simp only [last, ShiftedOccurs, List.dropLast_concat, List.getLastD_concat]

/-! ## The hashed search -/

/-- **The hashed search is the naive one**, for the key it finds in the table: the pattern at
the start of the text, or a later window with its bytes but the last and the key for its sum.
With the sum of the pattern for the key it finds the pattern wherever it occurs. -/
theorem hashed_search_naive {t : FastStr} {mem : List UInt8} {node : StringsTree}
    (slot : t.strings[4]? = some mem) (stores : Stores mem p) (nonempty : p ≠ [])
    (first : t.stringsTreeT[0]? = some node) (positive : 1 ≤ pktLen.toNat)
    (fits : pktLen.toNat ≤ buffer.length)
    (terminated : p.headD 0 ∈ buffer.take pktLen.toNat → 0 ∈ candidate p buffer) :
    ∃ ret, fastStrstrFilterOneHashed t buffer pktLen = some ret ∧
      (p.headD 0 ∉ buffer.take pktLen.toNat → ret = 0) ∧
      (p.headD 0 ∈ buffer.take pktLen.toNat →
        (ret = 1 ↔
          p <+: searchedText p buffer ∨
            ∃ k, 1 ≤ k ∧ k + p.length ≤ (searchedText p buffer).length ∧
              ((searchedText p buffer).drop k).take (p.length - 1) = p.take (p.length - 1) ∧
              weightSum charValue (((searchedText p buffer).drop k).take p.length) ≡ node.key
                [ZMOD 2 ^ 32]) ∧
          (node.key ≡ weightSum charValue p [ZMOD 2 ^ 32] →
            (ret = 1 ↔ p <:+: searchedText p buffer))) := by
  obtain ⟨ret, returns, verdict⟩ := search_returns (fun _ => 0) (UInt32.ofInt node.key)
    stores nonempty positive fits terminated
  rw [soughtSum_zero] at verdict
  refine ⟨ret, ?_, fun absent => verdict.2 fun matched => absent matched.1, fun present => ⟨?_, ?_⟩⟩
  · rw [fastStrstrFilterOneHashed, slot, first]
    exact returns
  · rw [verdict.eq_one_iff, Matches, and_iff_right present, Hit]
    refine or_congr_right (exists_congr fun k => and_congr_right fun _ => ?_)
    rw [FoundAt, weightSum_charToUnsigned, ofInt_eq_ofInt_iff, startsLike, decide_eq_true_iff]
    exact and_congr_right fun _ => and_comm
  · intro same
    have key : UInt32.ofInt node.key = weightSum charToUnsigned p := by
      rw [weightSum_charToUnsigned, ofInt_eq_ofInt_iff]
      exact same
    rw [verdict.eq_one_iff, Matches, and_iff_right present, key, hit_sum_iff nonempty]

/-- The patterns `B`, `B`, `B`, `B` and `AB`, in a packet `ACAB`. -/
theorem hashed_search_naive_secondWindow :
    ∃ ret, fastStrstrFilterOneHashed
        ⟨[[66, 0, 0], [66, 0, 0], [66, 0, 0], [66, 0, 0], [65, 66, 0, 0]], [],
          [⟨131, 0⟩], []⟩ [65, 67, 65, 66, 0] 4 = some ret ∧ ret = 1 := by
  have stores : Stores [65, 66, 0, 0] [65, 66] := ⟨by decide, [0], rfl, nofun⟩
  have fits : (4 : UInt32).toNat ≤ ([65, 67, 65, 66, 0] : List UInt8).length := by decide
  obtain ⟨ret, returns, -, present⟩ := hashed_search_naive
    (t := ⟨[[66, 0, 0], [66, 0, 0], [66, 0, 0], [66, 0, 0], [65, 66, 0, 0]], [], [⟨131, 0⟩], []⟩)
    (p := [65, 66]) rfl stores (by decide) rfl (by decide) fits (by decide)
  exact ⟨ret, returns, ((present (by decide)).2 (by decide)).mpr (by decide)⟩

/-! ## The plain search -/

/-- A pattern occurs in a packet from the first occurrence of its first byte on. -/
theorem infix_candidate_iff (nonempty : p ≠ []) (l : List UInt8) :
    p <:+: candidate p l ↔ p <:+: l := by
  induction l with
  | nil => rfl
  | cons b l inductionHypothesis =>
      by_cases first : b = p.headD 0
      · rw [candidate, List.dropWhile_cons_of_neg (by simpa using first)]
      · have notHere : ¬p <+: b :: l := by
          rintro ⟨rest, split⟩
          obtain ⟨a, q, rfl⟩ := List.exists_cons_of_ne_nil nonempty
          exact first (List.cons.inj split).1.symm
        rw [candidate, List.dropWhile_cons_of_pos (by simpa using first), List.infix_cons_iff,
          or_iff_right notHere]
        exact inductionHypothesis

theorem plainSum (p : List UInt8) :
    soughtSum charToUnsigned 0 p = weightSum charToUnsigned p.tail := zero_add _

/-- What the plain search matches. -/
theorem matches_plain_iff {packet : List UInt8} (nonempty : p ≠ []) :
    Matches (soughtSum charToUnsigned 0 p) p packet buffer ↔
      p.headD 0 ∈ packet ∧
        (p <+: searchedText p buffer ∨ ShiftedOccurs p (searchedText p buffer).tail) := by
  rw [Matches, plainSum, hit_tail_iff nonempty]

theorem candidate_eq_nil {l : List UInt8} (absent : p.headD 0 ∉ l) : candidate p l = [] := by
  apply List.dropWhile_eq_nil_iff.mpr
  intro b member
  exact decide_eq_true fun same => absent (same ▸ member)

/-- The text that is searched in a packet without a NUL that a NUL follows. -/
theorem searchedText_append_nul {packet : List UInt8} (noNul : 0 ∉ packet)
    (present : p.headD 0 ∈ packet) (behind : List UInt8) :
    searchedText p (packet ++ 0 :: behind) = candidate p packet := by
  have suffix : candidate p packet <:+ packet := List.dropWhile_suffix _
  have all : ∀ b ∈ candidate p packet, decide (b ≠ 0) = true := fun b member =>
    decide_eq_true fun nul => noNul (nul ▸ suffix.subset member)
  rw [searchedText, candidate_append present, textOf, List.takeWhile_append_of_pos all]
  simp

/-- **When the plain search is exact.** For a pattern and a packet without NULs, it is right if
and only if the pattern is where its first byte comes first, or the pattern and the pattern
with the shifted last byte both occur, or neither does. -/
theorem plain_search_exact_iff {t : FastStr} {mem packet : List UInt8}
    (slot : t.strings[0]? = some mem) (stores : Stores mem p) (nonempty : p ≠ [])
    (noNul : 0 ∉ packet) (positive : 1 ≤ pktLen.toNat) (length : pktLen.toNat = packet.length)
    (behind : List UInt8) :
    ∃ ret, fastStrstrFilterOne t (packet ++ 0 :: behind) pktLen = some ret ∧
      ((ret = 1 ↔ p <:+: packet) ↔
        p <+: candidate p packet ∨
          (p <:+: packet ↔ ShiftedOccurs p (candidate p packet).tail)) := by
  have fits : pktLen.toNat ≤ (packet ++ 0 :: behind).length := by
    rw [length, List.length_append]
    exact Nat.le_add_right _ _
  have taken : (packet ++ 0 :: behind).take pktLen.toNat = packet := List.take_left' length.symm
  have terminated : p.headD 0 ∈ (packet ++ 0 :: behind).take pktLen.toNat →
      0 ∈ candidate p (packet ++ 0 :: behind) := by
    rw [taken]
    intro present
    rw [candidate_append present]
    exact List.mem_append_right _ List.mem_cons_self
  obtain ⟨ret, returns, verdict⟩ := search_returns charToUnsigned 0 stores nonempty positive fits
    terminated
  refine ⟨ret, ?_, ?_⟩
  · rw [fastStrstrFilterOne, slot]
    exact returns
  · rw [verdict.eq_one_iff, taken, matches_plain_iff nonempty]
    by_cases present : p.headD 0 ∈ packet
    · rw [and_iff_right present, searchedText_append_nul noNul present]
      by_cases starts : p <+: candidate p packet
      · have occurs : p <:+: packet := (infix_candidate_iff nonempty packet).mp starts.isInfix
        simp [starts, occurs]
      · simp only [starts, false_or]
        exact ⟨Iff.symm, Iff.symm⟩
    · have absent : ¬p <:+: packet := by
        intro occurs
        obtain ⟨a, q, rfl⟩ := List.exists_cons_of_ne_nil nonempty
        exact present (occurs.subset List.mem_cons_self)
      have nothing : ¬ShiftedOccurs p (candidate p packet).tail := by
        rw [candidate_eq_nil present]
        rintro ⟨b, -, occurs⟩
        simp at occurs
      exact iff_of_true (iff_of_false (fun matched => present matched.1) absent)
        (.inr (iff_of_false absent nothing))

/-- The pattern `AB` in the packet `CAB`: it is where its first byte comes first. -/
theorem plain_search_exact_iff_firstWindow :
    ∃ ret, fastStrstrFilterOne ⟨[[65, 66, 0, 0]], [], [], []⟩ [67, 65, 66, 0] 3 = some ret ∧
      (ret = 1 ↔ ([65, 66] : List UInt8) <:+: [67, 65, 66]) := by
  have stores : Stores [65, 66, 0, 0] [65, 66] := ⟨by decide, [0], rfl, nofun⟩
  have noNul : 0 ∉ ([67, 65, 66] : List UInt8) := by decide
  obtain ⟨ret, returns, exact⟩ := plain_search_exact_iff (t := ⟨[[65, 66, 0, 0]], [], [], []⟩)
    rfl stores (by decide) noNul (by decide : 1 ≤ (3 : UInt32).toNat) rfl []
  exact ⟨ret, returns, exact.mpr (.inl (by decide))⟩

/-- The pattern `AB` in the packet `AAB` is missed. -/
theorem plain_search_misses :
    ¬∀ (t : FastStr) (mem p packet behind : List UInt8) (pktLen : UInt32),
      t.strings[0]? = some mem → Stores mem p → p ≠ [] → 0 ∉ packet → 1 ≤ pktLen.toNat →
        pktLen.toNat = packet.length →
          (fastStrstrFilterOne t (packet ++ 0 :: behind) pktLen = some 1 ↔ p <:+: packet) := by
  intro claim
  have missed := claim ⟨[[65, 66, 0, 0]], [], [], []⟩ [65, 66, 0, 0] [65, 66] [65, 65, 66] [] 3 rfl
    ⟨by decide, [0], rfl, nofun⟩ (by decide) (by decide) (by decide) rfl
  exact absurd (missed.mpr (by decide)) (by decide)

/-! ## The two searches -/

/-- `0` to `9` and `a` to `f`. -/
def hexDigit (n : ℕ) : UInt8 := UInt8.ofNat (if n < 10 then 48 + n else 87 + n)

/-- The line of a pattern: two digits for each byte. -/
def hexLine (p : List UInt8) : List UInt8 :=
  p.flatMap fun b => [hexDigit (b.toNat / 16), hexDigit (b.toNat % 16)]

theorem hexDigit_spec {n : ℕ} (small : n < 16) :
    hexDigit n ≠ newline ∧ getVal (hexDigit n) = n := by
  have all : ∀ i : Fin 16, hexDigit i ≠ newline ∧ getVal (hexDigit i) = (i : ℕ) := by decide
  exact all ⟨n, small⟩

/-- The key of a pattern is the sum of its bytes. -/
theorem readPattern_hexLine {room : ℕ} {p tmp tmp' rest rest' : List UInt8} {hash hash' : ℤ}
    (read : readPattern room (hexLine p ++ newline :: rest) tmp hash = some (tmp', hash', rest')) :
    hash' ≡ hash + weightSum (fun b => (b.toNat : ℤ)) p [ZMOD 2 ^ 32] := by
  induction p generalizing room tmp hash with
  | nil =>
      unfold readPattern at read
      simp only [hexLine, List.flatMap_nil, List.nil_append, fgetc, if_true] at read
      obtain ⟨-, same⟩ := Prod.mk.inj (Option.some.inj read)
      obtain ⟨rfl, -⟩ := Prod.mk.inj same
      rw [weightSum_nil, add_zero]
  | cons b p inductionHypothesis =>
      have byte := b.toNat_lt
      obtain ⟨high, highVal⟩ := hexDigit_spec (n := b.toNat / 16) (by omega)
      obtain ⟨low, lowVal⟩ := hexDigit_spec (n := b.toNat % 16) (by omega)
      have value : ((b.toNat / 16 : ℕ) : ℤ) * 16 + (b.toNat % 16 : ℕ) = b.toNat := by omega
      unfold readPattern at read
      simp only [hexLine, List.flatMap_cons, List.cons_append, List.nil_append, fgetc, if_neg high,
        if_neg low, highVal, lowVal, value] at read
      cases room with
      | zero => exact absurd read (by simp)
      | succ room =>
          simp only at read
          split at read
          · have sum := inductionHypothesis read
            refine sum.trans ?_
            rw [weightSum_cons, ← add_assoc]
            exact Int.ModEq.add_right _ Int.bmod_emod
          · exact absurd read (by simp)

/-- A packet whose buffer ends with a NUL has one behind the first byte of the pattern. -/
theorem terminated_of_getLast (stores : Stores needle p) (nonempty : p ≠ [])
    (nul : buffer.getLast? = some 0) (present : p.headD 0 ∈ buffer.take pktLen.toNat) :
    0 ∈ candidate p buffer := by
  obtain ⟨body, rfl⟩ := List.getLast?_eq_some_iff.mp nul
  obtain ⟨a, q, rfl⟩ := List.exists_cons_of_ne_nil nonempty
  have notNul : a ≠ 0 := fun nul => stores.noNul (nul ▸ List.mem_cons_self)
  have inBody : a ∈ body :=
    (List.mem_append.mp (List.mem_of_mem_take present)).resolve_right
      fun last => notNul (List.mem_singleton.mp last)
  rw [candidate_append (p := a :: q) inBody]
  exact List.mem_append_right _ List.mem_cons_self

/-- The key that is stored for a pattern of bytes below 0x80 is the sum the search computes. -/
theorem storedKey {line : List UInt8} {h : ℤ}
    (read : readPattern fastStrMaxStringSize (hexLine p ++ newline :: line) [] 0 =
      some (p, h, line)) (ascii : ∀ b ∈ p, b.toNat ≤ 127) :
    UInt32.ofInt h = weightSum charToUnsigned p := by
  have plain : weightSum (fun b => (b.toNat : ℤ)) p = weightSum charValue p := by
    refine congrArg List.sum (List.map_congr_left fun b member => ?_)
    have small : ∀ n : Fin 128, ((n : ℕ) : ℤ) = charValue (UInt8.ofNat n) := by decide
    have value := small ⟨b.toNat, Nat.lt_succ_of_le (ascii b member)⟩
    rwa [UInt8.ofNat_toNat] at value
  have sum := readPattern_hexLine read
  rw [zero_add, plain] at sum
  rw [weightSum_charToUnsigned]
  exact ofInt_eq_ofInt_iff.mpr sum

/-- **When the two searches agree.** For a pattern in both slots, with the key that is stored
for it, in a buffer that ends with a NUL: the first byte of the pattern is not in the packet,
or the pattern is where it comes first, or the pattern and the pattern with the shifted last
byte both occur behind it, or neither does. -/
theorem searches_agree_iff {t : FastStr} {mem mem' line : List UInt8} {h : ℤ} {v : ℕ}
    (slot : t.strings[0]? = some mem) (stores : Stores mem p)
    (slot' : t.strings[4]? = some mem') (stores' : Stores mem' p) (nonempty : p ≠ [])
    (ascii : ∀ b ∈ p, b.toNat ≤ 127) (first : t.stringsTreeT[0]? = some ⟨h, v⟩)
    (read : readPattern fastStrMaxStringSize (hexLine p ++ newline :: line) [] 0 =
      some (p, h, line))
    (positive : 1 ≤ pktLen.toNat) (fits : pktLen.toNat ≤ buffer.length)
    (nul : buffer.getLast? = some 0) :
    ∃ ret ret', fastStrstrFilterOne t buffer pktLen = some ret ∧
      fastStrstrFilterOneHashed t buffer pktLen = some ret' ∧
      (ret = ret' ↔
        p.headD 0 ∉ buffer.take pktLen.toNat ∨ p <+: searchedText p buffer ∨
          (p <:+: (searchedText p buffer).tail ↔
            ShiftedOccurs p (searchedText p buffer).tail)) := by
  obtain ⟨ret, returns, verdict⟩ := search_returns charToUnsigned 0 stores nonempty positive fits
    (terminated_of_getLast stores nonempty nul)
  obtain ⟨ret', returns', verdict'⟩ := search_returns (fun _ => 0) (UInt32.ofInt h) stores'
    nonempty positive fits (terminated_of_getLast stores' nonempty nul)
  refine ⟨ret, ret', ?_, ?_, ?_⟩
  · rw [fastStrstrFilterOne, slot]
    exact returns
  · rw [fastStrstrFilterOneHashed, slot', first]
    exact returns'
  · rw [verdict.eq_iff verdict', matches_plain_iff nonempty, soughtSum_zero,
      storedKey read ascii, Matches, hit_sum_iff nonempty, infix_iff_prefix_or_tail nonempty]
    by_cases present : p.headD 0 ∈ buffer.take pktLen.toNat
    · by_cases starts : p <+: searchedText p buffer
      · simp [starts]
      · rw [and_iff_right present, and_iff_right present, or_iff_right (not_not_intro present)]
        simp only [starts, false_or]
        exact ⟨Iff.symm, Iff.symm⟩
    · exact iff_of_true (iff_of_false (fun m => present m.1) fun m => present m.1) (.inl present)

/-- Five patterns `AB`, in the packet `CAB`. -/
theorem searches_agree_iff_firstWindow :
    ∃ ret ret',
      fastStrstrFilterOne ⟨List.replicate 5 [65, 66, 0, 0], [], [⟨131, 0⟩], []⟩ [67, 65, 66, 0] 3 =
        some ret ∧
      fastStrstrFilterOneHashed ⟨List.replicate 5 [65, 66, 0, 0], [], [⟨131, 0⟩], []⟩
        [67, 65, 66, 0] 3 = some ret' ∧ ret = ret' := by
  have stores : Stores [65, 66, 0, 0] [65, 66] := ⟨by decide, [0], rfl, nofun⟩
  have fits : (3 : UInt32).toNat ≤ ([67, 65, 66, 0] : List UInt8).length := by decide
  have read : readPattern fastStrMaxStringSize (hexLine [65, 66] ++ newline :: []) [] 0 =
      some ([65, 66], 131, []) := rfl
  obtain ⟨ret, ret', returns, returns', agree⟩ := searches_agree_iff
    (t := ⟨List.replicate 5 [65, 66, 0, 0], [], [⟨131, 0⟩], []⟩) rfl stores rfl stores (by decide)
    (by simp) rfl read (by decide) fits rfl
  exact ⟨ret, ret', returns, returns', agree.mpr (.inr (.inl (by decide)))⟩

/-- Five patterns `AB`, in the packet `AAB`: only the hashed search finds it. -/
theorem searches_differ :
    ¬∀ (t : FastStr) (mem mem' p line buffer : List UInt8) (h : ℤ) (v : ℕ) (pktLen : UInt32),
      t.strings[0]? = some mem → Stores mem p → t.strings[4]? = some mem' → Stores mem' p →
        p ≠ [] → (∀ b ∈ p, b.toNat ≤ 127) → t.stringsTreeT[0]? = some ⟨h, v⟩ →
          readPattern fastStrMaxStringSize (hexLine p ++ newline :: line) [] 0 =
            some (p, h, line) →
          1 ≤ pktLen.toNat → pktLen.toNat ≤ buffer.length → buffer.getLast? = some 0 →
            fastStrstrFilterOne t buffer pktLen = fastStrstrFilterOneHashed t buffer pktLen := by
  intro claim
  have stores : Stores [65, 66, 0, 0] [65, 66] := ⟨by decide, [0], rfl, nofun⟩
  have same := claim ⟨List.replicate 5 [65, 66, 0, 0], [], [⟨131, 0⟩], []⟩ [65, 66, 0, 0]
    [65, 66, 0, 0] [65, 66] [] [65, 65, 66, 0] 131 0 3 rfl stores rfl stores (by decide) (by simp)
    rfl rfl (by decide) (by decide) rfl
  exact absurd same (by decide)

end DdosFiltering.Engine
