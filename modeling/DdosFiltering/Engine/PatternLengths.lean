import DdosFiltering.Engine.PatternKeys

/-!
# The table of the lengths

`fast_str_compile` writes the length of each pattern into `strings_nb_t`, with the number of the
pattern, and sorts this table. A length is stored in one byte. So what the table holds, and what
it is sorted by, are the lengths modulo 256 (`stored_lengths`), and these are the lengths exactly if
all patterns have fewer than 256 bytes (`lengthTable_iff`).
-/

set_option autoImplicit false

namespace DdosFiltering.Engine

/-- What is asked of `qsort`: it puts a table in the order of `cmpfunc`. -/
structure Sorts (qsort : List StringsNb → List StringsNb) : Prop where
  perm : ∀ table, (qsort table).Perm table
  sorted : ∀ table, (qsort table).Pairwise fun a b => cmpfunc a b ≤ 0

theorem sorts_qsortStringsNb : Sorts qsortStringsNb where
  perm table := List.mergeSort_perm table _
  sorted table := by
    refine List.Pairwise.imp of_decide_eq_true (List.pairwise_mergeSort ?_ ?_ table)
    · intro a b c first second
      rw [decide_eq_true_iff, cmpfunc] at *
      omega
    · intro a b
      rw [Bool.or_eq_true, decide_eq_true_iff, decide_eq_true_iff, cmpfunc, cmpfunc]
      omega

/-- The length of each line, with the number of the line. -/
def lineLengths (ls : List (List (UInt8 × UInt8))) : List (ℕ × ℕ) := (ls.map List.length).zipIdx

/-- The table holds the length of every pattern once, in ascending order of the lengths. `ls` are
the lines of the patterns. -/
structure LengthTable (ls : List (List (UInt8 × UInt8))) (table : List StringsNb) : Prop where
  perm : (table.map fun n => (n.key.toNat, n.value)).Perm (lineLengths ls)
  sorted : table.Pairwise fun a b => (ls.getD a.value []).length ≤ (ls.getD b.value []).length

theorem mem_lineLengths_iff {ls : List (List (UInt8 × UInt8))} {length i : ℕ} :
    (length, i) ∈ lineLengths ls ↔ ∃ ps, ls[i]? = some ps ∧ ps.length = length := by
  rw [lineLengths, List.mk_mem_zipIdx_iff_getElem?, List.getElem?_map, Option.map_eq_some_iff]

theorem addLines_stringsNbT (t : FastStr) (ls : List (List (UInt8 × UInt8))) :
    (t.addLines ls).stringsNbT = t.stringsNbT ++
      ((ls.map List.length).zipIdx t.strings.length).map fun n => ⟨UInt8.ofNat n.1, n.2⟩ := by
  induction ls generalizing t with
  | nil => simp [FastStr.addLines]
  | cons ps ls inductionHypothesis =>
      rw [t.addLines_cons, inductionHypothesis]
      simp [FastStr.addPattern]

section LengthTable

variable {qsort : List StringsNb → List StringsNb}

/-- What the table holds, and what it is sorted by, whatever the lengths are. -/
theorem stored_lengths (sorts : Sorts qsort) (ls : List (List (UInt8 × UInt8))) :
    ((FastStr.ofLines qsort ls).stringsNbT.map fun n => (n.key.toNat, n.value)).Perm
        ((lineLengths ls).map fun n => (n.1 % 256, n.2)) ∧
      (FastStr.ofLines qsort ls).stringsNbT.Pairwise fun a b => a.key.toNat ≤ b.key.toNat := by
  have table : (FastStr.ofLines qsort ls).stringsNbT =
      qsort ((lineLengths ls).map fun n => ⟨UInt8.ofNat n.1, n.2⟩) :=
    congrArg qsort (addLines_stringsNbT .empty ls)
  rw [table]
  constructor
  · have same := (sorts.perm ((lineLengths ls).map fun n => ⟨UInt8.ofNat n.1, n.2⟩)).map
      fun n => (n.key.toNat, n.value)
    simpa [Function.comp_def] using same
  · apply (sorts.sorted _).imp
    intro a b ordered
    unfold cmpfunc at ordered
    omega

/-- The key of an entry is the length of its line, when it is stored in full. -/
theorem key_eq_length {ls : List (List (UInt8 × UInt8))} {table : List StringsNb}
    (perm : (table.map fun n => (n.key.toNat, n.value)).Perm (lineLengths ls)) {n : StringsNb}
    (entry : n ∈ table) : n.key.toNat = (ls.getD n.value []).length := by
  obtain ⟨ps, line, length⟩ :=
    mem_lineLengths_iff.mp (perm.mem_iff.mp (List.mem_map_of_mem entry))
  rw [List.getD_eq_getElem?_getD, line, Option.getD_some, length]

theorem lengthTable_ofLines_iff (sorts : Sorts qsort) (ls : List (List (UInt8 × UInt8))) :
    LengthTable ls (FastStr.ofLines qsort ls).stringsNbT ↔ ∀ ps ∈ ls, ps.length < 256 := by
  obtain ⟨stored, ordered⟩ := stored_lengths sorts ls
  constructor
  · rintro ⟨perm, -⟩ ps member
    obtain ⟨i, line⟩ := List.mem_iff_getElem?.mp member
    have isLength : (ps.length, i) ∈ lineLengths ls := mem_lineLengths_iff.mpr ⟨ps, line, rfl⟩
    obtain ⟨n, -, same⟩ := List.mem_map.mp (perm.mem_iff.mpr isLength)
    rw [← (Prod.mk.inj same).1]
    exact n.key.toNat_lt
  · intro short
    have whole : ∀ n ∈ lineLengths ls, (n.1 % 256, n.2) = id n := by
      rintro ⟨length, i⟩ member
      obtain ⟨ps, line, rfl⟩ := mem_lineLengths_iff.mp member
      rw [Nat.mod_eq_of_lt (short ps (List.mem_of_getElem? line)), id]
    rw [List.map_congr_left whole, List.map_id] at stored
    refine ⟨stored, ordered.imp_of_mem ?_⟩
    intro a b first second less
    rwa [key_eq_length stored first, key_eq_length stored second] at less

end LengthTable

/-- **When the table holds the lengths**: all patterns of the accepted file have fewer than 256
bytes. -/
theorem lengthTable_iff {lib : StringLibrary} (sorts : Sorts lib.qsort)
    {file : Option (List UInt8)} {linesNb : ℤ} {t : FastStr}
    (compiled : fastStrCompile lib file linesNb = .returns t) :
    ∃ buff text ls, file.bind (fgets fastStrMaxNum) = some (buff, text) ∧
      StartsWith t.strings.length ls text ∧
        (LengthTable ls t.stringsNbT ↔ ∀ ps ∈ ls, ps.length < 256) := by
  obtain ⟨buff, text, ls, first, starts, -, rfl⟩ := fastStrCompile_ofLines compiled
  exact ⟨buff, text, ls, first, starts, lengthTable_ofLines_iff sorts ls⟩

/-- The lines `6162` and `61`. -/
theorem lengthTable_iff_twoLines :
    ∃ ls t, fastStrCompile glibcLibrary
        (some [50, newline, 54, 49, 54, 50, newline, 54, 49, newline]) 0 = .returns t ∧
      LengthTable ls t.stringsNbT := by
  have compiled : fastStrCompile glibcLibrary
      (some [50, newline, 54, 49, 54, 50, newline, 54, 49, newline]) 0 =
      .returns (.ofLines qsortStringsNb [[hexPair 0x61, hexPair 0x62], [hexPair 0x61]]) := rfl
  obtain ⟨buff, text, ls, first, starts, table⟩ := lengthTable_iff sorts_qsortStringsNb compiled
  obtain ⟨-, rfl⟩ := Prod.mk.inj (Option.some.inj first)
  have lines : StartsWith 2 [[hexPair 0x61, hexPair 0x62], [hexPair 0x61]]
      [54, 49, 54, 50, newline, 54, 49, newline] := .ofBytes [[0x61, 0x62], [0x61]]
  obtain rfl := starts.unique lines
  exact ⟨_, _, compiled, table.mpr (by decide)⟩

/-- A line of 256 times `61` and the line `62`: the first pattern has the key 0, and is sorted
before the one of one byte. -/
theorem long_pattern_cut :
    ¬∀ (lib : StringLibrary), Sorts lib.qsort →
      ∀ (file : Option (List UInt8)) (linesNb : ℤ) (t : FastStr) (buff text : List UInt8)
        (ls : List (List (UInt8 × UInt8))),
      fastStrCompile lib file linesNb = .returns t →
      file.bind (fgets fastStrMaxNum) = some (buff, text) →
      StartsWith t.strings.length ls text → LengthTable ls t.stringsNbT := by
  intro claim
  let bytes : List (List UInt8) := [List.replicate 256 0x61, [0x62]]
  have starts : StartsWith 2 (bytes.map (·.map hexPair))
      (pairLines (bytes.map (·.map hexPair))) := .ofBytes bytes
  have readable : ∀ ps ∈ bytes.map (·.map hexPair), Readable fastStrMaxStringSize ps := by
    rw [List.forall_mem_map]
    intro bs member
    apply readable_hexPair
    simp only [bytes, List.mem_cons, List.not_mem_nil, or_false] at member
    obtain rfl | rfl := member
    · rw [List.length_replicate]
      decide
    · decide
  have first : fgets fastStrMaxNum (50 :: newline :: pairLines (bytes.map (·.map hexPair))) =
      some ([50, newline], pairLines (bytes.map (·.map hexPair))) := rfl
  have distinct : ((bytes.map (·.map hexPair)).map lineKey).Nodup := by
    simp only [bytes, List.map_cons, List.map_nil, List.map_replicate, lineKey,
      (hexPair_spec _).2, List.sum_replicate]
    decide
  have compiled : fastStrCompile glibcLibrary
      (some (50 :: newline :: pairLines (bytes.map (·.map hexPair)))) 0 =
        .returns (.ofLines qsortStringsNb (bytes.map (·.map hexPair))) := by
    rw [fastStrCompile_count first (k := 2) rfl, compileLines_returns_iff (by decide)]
    exact ⟨_, starts, readable, rfl, ⟨fun _ _ _ => rfl, fun _ => distinct⟩, rfl⟩
  have table := claim glibcLibrary sorts_qsortStringsNb _ _ _ _ _ _ compiled first starts
  have short := (lengthTable_ofLines_iff sorts_qsortStringsNb _).mp table _ List.mem_cons_self
  rw [List.length_map, List.length_replicate] at short
  exact absurd short (Nat.lt_irrefl _)

end DdosFiltering.Engine
