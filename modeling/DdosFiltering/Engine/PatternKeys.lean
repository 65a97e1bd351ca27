import DdosFiltering.Engine.PatternFiles

/-!
# The keys of the patterns

The key of a pattern is the sum of all values of its line. The search adds up the bytes of the
string, as signed numbers and up to the first NUL. For the values of a line that is accepted the
difference is never negative, and it is far below `2 ^ 32`; so the two sums are the same exactly
when no value adds to it, that is for lines of ASCII characters (`stored_key_iff`).
-/

set_option autoImplicit false

namespace DdosFiltering.Engine

open Foundation

/-! ## Values and characters -/

/-- A number that is stored in a `char`. -/
theorem charValue_ofInt (v : ℤ) : charValue (UInt8.ofInt v) = (v + 128) % 256 - 128 := by
  have bits : (UInt8.ofInt v).toBitVec = BitVec.ofInt 8 v := by
    apply BitVec.eq_of_toNat_eq
    rw [BitVec.toNat_ofInt, UInt8.ofInt]
    simp
    omega
  have same : (UInt8.ofInt v).toInt8 = Int8.ofInt v := Int8.toBitVec_inj.mp bits
  have size : Int8.size = 256 := rfl
  rw [charValue, same, Int8.toInt_ofInt, size, Int.bmod_def]
  split <;> omega

theorem ofInt_eq_zero_iff (v : ℤ) : UInt8.ofInt v = 0 ↔ v % 256 = 0 := by
  have value := charValue_ofInt v
  have zero : charValue 0 = 0 := rfl
  rw [← charValue_injective.eq_iff, value, zero]
  omega

/-- ASCII characters, with NULs at the end only. -/
def PlainText (vals : List ℤ) : Prop :=
  (∀ v ∈ vals, v ≤ 127) ∧ ∀ v ∈ vals.dropWhile (· ≠ 0), v = 0

theorem plainText_cons_iff {v : ℤ} {vals : List ℤ} :
    PlainText (v :: vals) ↔
      if v = 0 then ∀ v ∈ vals, v = 0 else v ≤ 127 ∧ PlainText vals := by
  unfold PlainText
  split
  · rename_i zero
    subst zero
    rw [List.dropWhile_cons_of_neg (by simp), List.forall_mem_cons, List.forall_mem_cons]
    constructor
    · rintro ⟨-, -, zeros⟩
      exact zeros
    · intro zeros
      exact ⟨⟨by decide, fun v member => zeros v member ▸ by decide⟩, rfl, zeros⟩
  · rename_i nonzero
    rw [List.dropWhile_cons_of_pos (by simpa using nonzero), List.forall_mem_cons, and_assoc]

theorem sum_bounds {vals : List ℤ} (bounds : ∀ v ∈ vals, 0 ≤ v ∧ v ≤ maxPairVal) :
    0 ≤ vals.sum ∧ vals.sum ≤ maxPairVal * vals.length ∧ (vals.sum = 0 ↔ ∀ v ∈ vals, v = 0) := by
  induction vals with
  | nil => exact ⟨le_rfl, le_rfl, iff_of_true rfl nofun⟩
  | cons v vals inductionHypothesis =>
      obtain ⟨⟨nonneg, small⟩, later⟩ := List.forall_mem_cons.mp bounds
      obtain ⟨lower, upper, zeros⟩ := inductionHypothesis later
      rw [List.sum_cons, List.length_cons, Nat.cast_succ, List.forall_mem_cons, ← zeros]
      refine ⟨by omega, ?_, by omega⟩
      rw [mul_add, mul_one]
      omega

/-- How much larger the sum of the values is than the sum of the stored characters, by induction
on the values. -/
theorem excess_bounds {vals : List ℤ} (bounds : ∀ v ∈ vals, 0 ≤ v ∧ v ≤ maxPairVal) :
    0 ≤ vals.sum - weightSum charValue (textOf (vals.map UInt8.ofInt)) ∧
      vals.sum - weightSum charValue (textOf (vals.map UInt8.ofInt)) ≤ 808 * vals.length ∧
      (vals.sum - weightSum charValue (textOf (vals.map UInt8.ofInt)) = 0 ↔ PlainText vals) := by
  induction vals with
  | nil => exact ⟨le_rfl, le_rfl, iff_of_true rfl ⟨nofun, nofun⟩⟩
  | cons v vals inductionHypothesis =>
      obtain ⟨⟨nonneg, small⟩, later⟩ := List.forall_mem_cons.mp bounds
      have limit : maxPairVal = 680 := rfl
      have character := ofInt_eq_zero_iff v
      rw [plainText_cons_iff, List.map_cons, List.sum_cons, List.length_cons, Nat.cast_succ]
      by_cases nul : UInt8.ofInt v = 0
      · -- The string ends here, and the values that follow count in full.
        obtain ⟨lower, upper, zeros⟩ := sum_bounds later
        have ends : textOf (UInt8.ofInt v :: vals.map UInt8.ofInt) = [] := by
          rw [nul]
          rfl
        rw [ends, weightSum_nil, ← zeros]
        have whole := character.mp nul
        rw [limit] at upper
        split <;> omega
      · obtain ⟨lower, upper, exactly⟩ := inductionHypothesis later
        have value := charValue_ofInt v
        have nonzero := character.not.mp nul
        rw [textOf_cons nul, weightSum_cons, ← exactly, if_neg (by omega)]
        omega

/-- The sum of the values is the sum of the stored characters exactly for plain text. -/
theorem sum_values_iff {vals : List ℤ} (bounds : ∀ v ∈ vals, 0 ≤ v ∧ v ≤ maxPairVal)
    (short : vals.length ≤ fastStrMaxStringSize) :
    weightSum charToUnsigned (textOf (vals.map UInt8.ofInt)) = UInt32.ofInt vals.sum ↔
      PlainText vals := by
  obtain ⟨lower, upper, exactly⟩ := excess_bounds bounds
  have size : fastStrMaxStringSize = 1200 := rfl
  rw [weightSum_charToUnsigned, ofInt_eq_ofInt_iff, Int.modEq_iff_dvd, ← exactly]
  constructor
  · rintro ⟨m, difference⟩
    omega
  · intro same
    rw [same]
    exact dvd_zero _

/-! ## The sum of the first window -/

/-- `fast_strstr_filter_one_hashed` adds up, until it subtracts the key, the same sum as the key
when the window is the string that is stored in `mem`. The window begins where `mystrchr`
has found the first byte of the string. -/
def KeyAgrees (mem : List UInt8) (key : ℤ) : Prop :=
  ∀ haystack after, textOf mem <+: haystack → haystack.headD 0 = mem.headD 0 →
    compareLoop (fun _ => 0) haystack.tail mem.tail (charToUnsigned (haystack.headD 0)) true =
      some after →
    after.sumsDiff = UInt32.ofInt key

/-- The sum of the first window, when it is the pattern and there is memory behind it. -/
theorem window_sum {mem p behind : List UInt8} (stores : Stores mem p)
    (found : (p ++ behind).headD 0 = mem.headD 0) :
    (compareLoop (fun _ => 0) (p ++ behind).tail mem.tail
        (charToUnsigned ((p ++ behind).headD 0)) true).map Comparison.sumsDiff =
      if max p.length 1 < (p ++ behind).length then
        some (weightSum charToUnsigned p)
      else
        none := by
  have nothing (q : List UInt8) : weightSum (fun _ => (0 : UInt32)) q = 0 := by simp [weightSum]
  obtain ⟨noNul, more, rfl, second⟩ := stores
  cases p with
  | nil =>
      obtain ⟨rest, rfl⟩ := second rfl
      have compared := compareLoop_fits (fun _ => 0) behind.tail rest (p := [])
        (List.not_mem_nil : (0 : UInt8) ∉ []) List.not_mem_nil (Nat.le_refl _)
        (charToUnsigned 0) true
      simp only [List.nil_append, List.headD_cons] at found compared
      simp only [List.nil_append, List.tail_cons, found, compared, nothing, List.length_tail,
        List.length_nil, List.take_nil, weightSum_nil, add_zero, sub_zero]
      by_cases inside : 0 < behind.length - 1
      · rw [if_pos inside, if_pos (by omega)]
        rfl
      · rw [if_neg inside, if_neg (by omega)]
        rfl
  | cons c q =>
      rw [List.mem_cons, not_or] at noNul
      have compared := compareLoop_fits (fun _ => 0) behind more noNul.2 noNul.2
        (Nat.le_refl _) (charToUnsigned c) true
      simp only [List.cons_append, List.tail_cons, List.headD_cons, compared, List.take_length,
        nothing, sub_zero, List.length_cons]
      by_cases inside : q.length < (q ++ behind).length
      · simp only [if_pos inside, Option.map_some]
        rw [if_pos (by omega), weightSum_cons]
      · simp only [if_neg inside, Option.map_none]
        rw [if_neg (by omega)]

theorem keyAgrees_iff {mem p : List UInt8} (stores : Stores mem p) (key : ℤ) :
    KeyAgrees mem key ↔ weightSum charToUnsigned p = UInt32.ofInt key := by
  unfold KeyAgrees
  rw [stores.textOf_eq]
  constructor
  · intro agrees
    have found : (p ++ [0, 0]).headD 0 = mem.headD 0 := by
      obtain ⟨more, rfl, -⟩ := stores.bytes
      cases p <;> rfl
    have sum := window_sum stores found
    have inside : max p.length 1 < (p ++ [0, 0]).length := by
      rw [List.length_append, List.length_cons, List.length_singleton]
      omega
    rw [if_pos inside] at sum
    obtain ⟨after, compared, same⟩ := Option.map_eq_some_iff.mp sum
    rw [← same]
    exact agrees _ after (List.prefix_append _ _) found compared
  · rintro same haystack after ⟨behind, rfl⟩ found compared
    have sum := window_sum stores found
    rw [compared, Option.map_some] at sum
    split at sum
    · rw [Option.some.inj sum, same]
    · exact absurd sum nofun

/-- The tables hold, for each line, a string with its bytes and a node with their sum. -/
theorem FastStr.addLines_getElem? (t : FastStr) (ls : List (List (UInt8 × UInt8))) :
    (t.addLines ls).strings = t.strings ++
        ls.map (fun ps => strncpy (ps.map pairByte ++ [0]) ((ps.map pairByte).length + 1) ++ [0]) ∧
      (t.addLines ls).stringsTreeT.map StringsTree.key =
        t.stringsTreeT.map StringsTree.key ++ ls.map fun ps => (ps.map pairVal).sum := by
  induction ls generalizing t with
  | nil => simp [FastStr.addLines]
  | cons ps ls inductionHypothesis =>
      obtain ⟨strings, keys⟩ :=
        inductionHypothesis (t.addPattern (ps.map pairByte) (ps.map pairVal).sum)
      rw [t.addLines_cons, lineKey, strings, keys]
      simp [FastStr.addPattern]

/-- What an accepted file is read as. -/
theorem fastStrCompile_returns {lib : StringLibrary} {file : Option (List UInt8)} {linesNb : ℤ}
    {t : FastStr} (compiled : fastStrCompile lib file linesNb = .returns t) :
    ∃ buff text n, file.bind (fgets fastStrMaxNum) = some (buff, text) ∧ 1 ≤ n ∧
      compileLines lib n text = .returns t := by
  unfold fastStrCompile at compiled
  split at compiled
  · cases compiled
  · rename_i buff text first
    split at compiled
    · cases compiled
    · exact ⟨buff, text, linesNb, first, (compileLines_eq_returns_iff.mp compiled).1, compiled⟩
    · exact ⟨buff, text, _, first, (compileLines_eq_returns_iff.mp compiled).1, compiled⟩

/-- The lines of an accepted file, and the tables they leave. -/
theorem fastStrCompile_ofLines {lib : StringLibrary} {file : Option (List UInt8)} {linesNb : ℤ}
    {t : FastStr} (compiled : fastStrCompile lib file linesNb = .returns t) :
    ∃ buff text ls, file.bind (fgets fastStrMaxNum) = some (buff, text) ∧
      StartsWith t.strings.length ls text ∧ (∀ ps ∈ ls, Readable fastStrMaxStringSize ps) ∧
      t = .ofLines lib.qsort ls := by
  obtain ⟨buff, text, n, first, positive, lines⟩ := fastStrCompile_returns compiled
  obtain ⟨ls, starts, readable, -, -, rfl⟩ := (compileLines_returns_iff positive).mp lines
  obtain ⟨strings, -⟩ := FastStr.empty.addLines_getElem? ls
  have length : (FastStr.ofLines lib.qsort ls).strings.length = n.toNat := by
    rw [← starts.length]
    exact (congrArg List.length strings).trans (by simp [FastStr.empty])
  exact ⟨buff, text, ls, first, length ▸ starts, readable, rfl⟩

/-- **Stored keys are sums of the search** exactly for lines of plain text. For every file that
is accepted and every pattern: the key of the pattern is the sum that the search computes over
the stored string, if and only if the values of the line are ASCII characters, with zeros at
the end only. -/
theorem stored_key_iff {lib : StringLibrary} {file : Option (List UInt8)} {linesNb : ℤ}
    {t : FastStr} (compiled : fastStrCompile lib file linesNb = .returns t) :
    ∃ buff text ls, file.bind (fgets fastStrMaxNum) = some (buff, text) ∧
      StartsWith t.strings.length ls text ∧
        ∀ (i : ℕ) (ps : List (UInt8 × UInt8)), ls[i]? = some ps →
          ∃ mem node, t.strings[i]? = some mem ∧ t.stringsTreeT[i]? = some node ∧
            (KeyAgrees mem node.key ↔ PlainText (ps.map pairVal)) := by
  obtain ⟨buff, text, ls, first, starts, readable, rfl⟩ := fastStrCompile_ofLines compiled
  obtain ⟨strings, keys⟩ := FastStr.empty.addLines_getElem? ls
  refine ⟨buff, text, ls, first, starts, ?_⟩
  intro i ps line
  have readable := readable ps (List.mem_of_getElem? line)
  have slot : (FastStr.empty.addLines ls).strings[i]? =
      some (strncpy (ps.map pairByte ++ [0]) ((ps.map pairByte).length + 1) ++ [0]) := by
    rw [strings]
    simp [FastStr.empty, line]
  have key : ((FastStr.empty.addLines ls).stringsTreeT.map StringsTree.key)[i]? =
      some (ps.map pairVal).sum := by
    rw [keys]
    simp [FastStr.empty, line]
  rw [List.getElem?_map] at key
  obtain ⟨node, isNode, sum⟩ := Option.map_eq_some_iff.mp key
  refine ⟨_, node, slot, isNode, ?_⟩
  have bytes : ps.map pairByte = (ps.map pairVal).map UInt8.ofInt := by
    rw [List.map_map]
    rfl
  rw [keyAgrees_iff (stores_addPattern _), sum, bytes]
  apply sum_values_iff
  · intro v isValue
    obtain ⟨p, member, rfl⟩ := List.mem_map.mp isValue
    exact ⟨readable.nonneg p member, (pairVal_bounds p).2⟩
  · rw [List.length_map]
    exact readable.short

/-- The keys of the lines `4a4b4c` and `4b0000`. -/
theorem stored_key_iff_twoLines :
    ∃ t, fastStrCompile glibcLibrary
        (some [50, newline, 52, 97, 52, 98, 52, 99, newline, 52, 98, 48, 48, 48, 48, newline]) 0 =
        .returns t ∧
      ∀ i < 2, ∃ mem node, t.strings[i]? = some mem ∧ t.stringsTreeT[i]? = some node ∧
        KeyAgrees mem node.key := by
  let bytes : List (List UInt8) := [[0x4a, 0x4b, 0x4c], [0x4b, 0, 0]]
  have compiled : fastStrCompile glibcLibrary
      (some [50, newline, 52, 97, 52, 98, 52, 99, newline, 52, 98, 48, 48, 48, 48, newline]) 0 =
      .returns (.ofLines qsortStringsNb (bytes.map (·.map hexPair))) := rfl
  obtain ⟨buff, text, ls, first, starts, agrees⟩ := stored_key_iff compiled
  obtain ⟨-, rfl⟩ := Prod.mk.inj (Option.some.inj first)
  have lines : StartsWith 2 (bytes.map (·.map hexPair))
      [52, 97, 52, 98, 52, 99, newline, 52, 98, 48, 48, 48, 48, newline] := .ofBytes bytes
  obtain rfl := starts.unique lines
  have plain : ∀ ps ∈ bytes.map (·.map hexPair), PlainText (ps.map pairVal) := by
    unfold PlainText
    decide
  refine ⟨_, compiled, fun i inside => ?_⟩
  have line := List.getElem?_eq_getElem (l := bytes.map (·.map hexPair)) inside
  obtain ⟨mem, node, string, isNode, iff⟩ := agrees i _ line
  exact ⟨mem, node, string, isNode, iff.mpr (plain _ (List.getElem_mem inside))⟩

/-- The key of the line `ff` is 255, and the search adds up -1. -/
theorem stored_key_differs :
    ¬∀ (lib : StringLibrary) (file : Option (List UInt8)) (linesNb : ℤ) (t : FastStr) (i : ℕ)
      (mem : List UInt8) (node : StringsTree),
      fastStrCompile lib file linesNb = .returns t → t.strings[i]? = some mem →
        t.stringsTreeT[i]? = some node → KeyAgrees mem node.key := by
  intro claim
  have agrees := claim glibcLibrary (some [49, newline, 102, 102, newline]) 0
    (.ofLines qsortStringsNb [[hexPair 0xff]]) 0 _ _ rfl rfl rfl
  have sum := agrees [0xff, 0] ⟨[0], [0, 0], -1, true⟩ ⟨[0], rfl⟩ rfl rfl
  exact absurd sum (by decide)

end DdosFiltering.Engine
