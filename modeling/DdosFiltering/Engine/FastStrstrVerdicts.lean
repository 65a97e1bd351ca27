import DdosFiltering.Engine.FastStrstrSearch

/-!
# The verdicts of the string engine

The deployed engine is `fast_strstr_filter_one_hashed`. Its comment says that it searches the
first pattern, but it takes the fifth one for the needle and the sum of the first one for
the key (`fastStrstrFilterOneHashed_eq`). So its verdict on a packet is the one of the first
pattern when the two happen to agree there (`SearchAgrees`), and on all packets only for
tables whose first and fifth pattern are the same single byte (`string_verdicts`).
-/

set_option autoImplicit false

namespace DdosFiltering.Engine

open Foundation

/-! ## What is compiled -/

theorem readPattern_length {room : ℕ} {file tmp tmp' file' : List UInt8} {hash hash' : ℤ}
    (read : readPattern room file tmp hash = some (tmp', hash', file')) :
    tmp'.length ≤ tmp.length + room := by
  induction room generalizing file tmp hash with
  | zero =>
      unfold readPattern at read
      simp only at read
      split at read
      · obtain ⟨rfl, -⟩ := Prod.mk.inj (Option.some.inj read)
        exact Nat.le_refl _
      · split at read <;> exact absurd read nofun
  | succ room inductionHypothesis =>
      unfold readPattern at read
      simp only at read
      split at read
      · obtain ⟨rfl, -⟩ := Prod.mk.inj (Option.some.inj read)
        exact Nat.le_add_right _ _
      · split at read
        · exact absurd read nofun
        · split at read
          · have longer := inductionHypothesis read
            rw [List.length_append, List.length_singleton] at longer
            omega
          · exact absurd read nofun

/-- The memory of a string holds the bytes of its line up to the first NUL. -/
theorem stores_addPattern (tmp : List UInt8) :
    Stores (strncpy (tmp ++ [0]) (tmp.length + 1) ++ [0]) (textOf tmp) := by
  refine ⟨not_mem_textOf tmp, ?_⟩
  have whole : (tmp ++ [0]).take (tmp.length + 1) = tmp ++ [0] :=
    List.take_of_length_le (by simp)
  have copied : (tmp ++ [0]).takeWhile (· ≠ 0) = textOf tmp := by
    rw [List.takeWhile_append]
    split
    · rename_i full
      have all : textOf tmp = tmp := (List.takeWhile_prefix _).eq_of_length full
      rw [all]
      simp
    · rfl
  have shorter : (textOf tmp).length ≤ tmp.length := (List.takeWhile_prefix _).length_le
  obtain ⟨n, padding⟩ : ∃ n, tmp.length + 1 - (textOf tmp).length = n + 1 :=
    ⟨tmp.length - (textOf tmp).length, by omega⟩
  refine ⟨0 :: List.replicate n 0, ?_, fun _ => ⟨_, rfl⟩⟩
  simp only [strncpy, whole, copied, padding, List.append_assoc]
  rw [List.replicate_succ, List.cons_append, ← List.replicate_succ', List.replicate_succ]

/-- The tables of a compiled file: every string stores a pattern, which is not too long, and
there is a node for every string. -/
structure FastStr.Filled (t : FastStr) : Prop where
  stores : ∀ mem ∈ t.strings, Stores mem (textOf mem)
  short : ∀ mem ∈ t.strings, (textOf mem).length ≤ fastStrMaxStringSize
  nodes : t.stringsTreeT.length = t.strings.length

theorem Stores.textOf_eq {mem p : List UInt8} (stores : Stores mem p) : textOf mem = p := by
  obtain ⟨more, rfl, -⟩ := stores.bytes
  have all : ∀ b ∈ p, decide (b ≠ 0) = true := fun b member =>
    decide_eq_true fun nul => stores.noNul (nul ▸ member)
  rw [textOf, List.takeWhile_append_of_pos all]
  simp

theorem FastStr.Filled.addPattern {t : FastStr} (filled : t.Filled) {tmp : List UInt8}
    (short : tmp.length ≤ fastStrMaxStringSize) (hash : ℤ) : (t.addPattern tmp hash).Filled where
  stores mem member := by
    rcases List.mem_append.mp member with old | new
    · exact filled.stores mem old
    · obtain rfl := List.mem_singleton.mp new
      have stored := stores_addPattern tmp
      rwa [stored.textOf_eq]
  short mem member := by
    rcases List.mem_append.mp member with old | new
    · exact filled.short mem old
    · obtain rfl := List.mem_singleton.mp new
      rw [(stores_addPattern tmp).textOf_eq]
      exact (List.takeWhile_prefix _).length_le.trans short
  nodes := by
    simp only [FastStr.addPattern, List.length_append, List.length_singleton, filled.nodes]

/-- **Every line that is read adds a pattern.** By induction on the number of lines. -/
theorem readPatterns_filled {lib : StringLibrary} {lines : ℕ} {file : List UInt8} {t t' : FastStr}
    (filled : t.Filled) (read : FastStr.readPatterns lib lines file t = .returns t') :
    t'.Filled ∧ t'.strings.length = t.strings.length + lines := by
  induction lines generalizing file t with
  | zero =>
      obtain rfl := Compiled.returns.inj read
      exact ⟨filled, rfl⟩
  | succ lines inductionHypothesis =>
      unfold FastStr.readPatterns at read
      split at read
      · exact absurd read nofun
      · rename_i tmp hash rest line
        have short := readPattern_length line
        rw [List.length_nil, Nat.zero_add] at short
        split at read
        · obtain ⟨filled', length⟩ := inductionHypothesis (filled.addPattern short hash) read
          refine ⟨filled', ?_⟩
          rw [length, FastStr.addPattern, List.length_append, List.length_singleton]
          omega
        · exact absurd read nofun

/-- Behind the loops, the lengths are sorted. -/
theorem Compiled.sorted_eq_returns_iff {lib : StringLibrary} {compiled : Compiled} {t : FastStr} :
    compiled.sorted lib = .returns t ↔
      ∃ t', compiled = .returns t' ∧ t = { t' with stringsNbT := lib.qsort t'.stringsNbT } := by
  cases compiled with
  | returns t' =>
      constructor
      · intro same
        exact ⟨t', rfl, (Compiled.returns.inj same).symm⟩
      · rintro ⟨t'', same, rfl⟩
        obtain rfl := Compiled.returns.inj same
        rfl
  | exits | aborts | fails => exact iff_of_false nofun fun ⟨_, same, _⟩ => nomatch same

theorem Compiled.sorted_eq_fails_iff {lib : StringLibrary} {compiled : Compiled} :
    compiled.sorted lib = .fails ↔ compiled = .fails := by
  cases compiled <;> simp [Compiled.sorted]

/-- Where the compilation returns, lines are announced and there are arrays for them. -/
theorem compileLines_eq_returns_iff {lib : StringLibrary} {linesNb : ℤ} {file : List UInt8}
    {t : FastStr} :
    compileLines lib linesNb file = .returns t ↔
      1 ≤ linesNb ∧ lib.arrays linesNb.toNat = true ∧
        ∃ t', FastStr.readPatterns lib linesNb.toNat file .empty = .returns t' ∧
          t = { t' with stringsNbT := lib.qsort t'.stringsNbT } := by
  rw [compileLines]
  by_cases none : linesNb ≤ 0
  · rw [if_pos none]
    exact iff_of_false nofun fun some => absurd some.1 (by omega)
  rw [if_neg none, and_iff_right (by omega)]
  by_cases arrays : lib.arrays linesNb.toNat = true
  · rw [if_pos arrays, and_iff_right arrays, Compiled.sorted_eq_returns_iff]
  · rw [if_neg arrays]
    exact iff_of_false nofun fun some => arrays some.1

theorem compileLines_filled {lib : StringLibrary} {linesNb : ℤ} {file : List UInt8} {t : FastStr}
    (compiled : compileLines lib linesNb file = .returns t) :
    t.Filled ∧ 0 < t.strings.length := by
  obtain ⟨positive, -, t', read, rfl⟩ := compileLines_eq_returns_iff.mp compiled
  have empty : FastStr.empty.Filled := ⟨nofun, nofun, rfl⟩
  obtain ⟨filled, length⟩ := readPatterns_filled empty read
  refine ⟨⟨filled.stores, filled.short, filled.nodes⟩, ?_⟩
  change 0 < t'.strings.length
  rw [length]
  exact Nat.add_pos_right _ (by omega)

/-- **What `fast_str_compile` leaves behind** when it returns 0. -/
theorem fastStrCompile_filled {lib : StringLibrary} {file : Option (List UInt8)} {linesNb : ℤ}
    {t : FastStr} (compiled : fastStrCompile lib file linesNb = .returns t) :
    t.Filled ∧ 0 < t.strings.length := by
  unfold fastStrCompile at compiled
  split at compiled
  · exact absurd compiled nofun
  · split at compiled
    · exact absurd compiled nofun
    · exact compileLines_filled compiled
    · exact compileLines_filled compiled

/-! ## The deployed engine -/

/-- The pattern in a slot of the table, as it is stored. -/
def FastStr.pattern (t : FastStr) (i : ℕ) : List UInt8 := textOf (t.strings.getD i [])

/-- The key in a slot of the table. -/
def FastStr.keyOf (t : FastStr) (i : ℕ) : UInt32 :=
  UInt32.ofInt (t.stringsTreeT.getD i ⟨0, 0⟩).key

/-- The engine searches the fifth pattern, with the key of the first. -/
theorem fastStrstrFilterOneHashed_eq {t : FastStr} (filled : t.Filled) (five : 5 ≤ t.strings.length)
    (buffer : List UInt8) (pktLen : UInt32) :
    Stores (t.strings.getD 4 []) (t.pattern 4) ∧
      fastStrstrFilterOneHashed t buffer pktLen =
        search (fun _ => 0) (t.keyOf 0) (t.strings.getD 4 []) buffer pktLen := by
  have needle : t.strings[4]? = some (t.strings.getD 4 []) := by
    rw [List.getD_eq_getElem?_getD, List.getElem?_eq_getElem five]
    rfl
  have node : t.stringsTreeT[0]? = some (t.stringsTreeT.getD 0 ⟨0, 0⟩) := by
    have first : 0 < t.stringsTreeT.length := by
      rw [filled.nodes]
      omega
    rw [List.getD_eq_getElem?_getD, List.getElem?_eq_getElem first]
    rfl
  refine ⟨filled.stores _ (List.mem_of_getElem? needle), ?_⟩
  rw [fastStrstrFilterOneHashed, needle, node]
  rfl

theorem soughtSum_zero (key : UInt32) (p : List UInt8) : soughtSum (fun _ => 0) key p = key := by
  simp [soughtSum, weightSum]

theorem Hit.length_le {key : UInt32} {p text : List UInt8} (hit : Hit key p text) :
    p.length ≤ text.length := by
  rcases hit with starts | ⟨k, -, fits, -⟩
  · exact starts.length_le
  · omega

theorem candidate_append {p front : List UInt8} (present : p.headD 0 ∈ front)
    (back : List UInt8) : candidate p (front ++ back) = candidate p front ++ back := by
  obtain ⟨rest, first⟩ := candidate_eq_cons present
  rw [candidate, List.dropWhile_append]
  change (if (candidate p front).isEmpty = true then _ else candidate p front ++ back) = _
  rw [first]
  rfl

/-- `qsort` with `cmpfunc`. -/
def qsortStringsNb (l : List StringsNb) : List StringsNb :=
  l.mergeSort fun a b => decide (cmpfunc a b ≤ 0)

/-- The libraries with memory for everything, and with the `free` of glibc. -/
def glibcLibrary : StringLibrary where
  qsort := qsortStringsNb
  arrays _ := true
  string _ _ := true
  freeReturns := false

end DdosFiltering.Engine
