import DdosFiltering.Engine.FastStrstrExact
import DdosFiltering.Engine.KeyTree
import Mathlib.Data.Nat.Size
import Mathlib.Data.Set.List

/-!
# Files of patterns

`fast_str_compile` takes the characters of a line in pairs and computes a value from each pair.
It does not look whether the characters are digits; a pair is refused only when its value is
negative, and then by the guard against an overflow of the sum. Behind a line the sum is inserted
into the tree, and the process does not survive a sum that is there already. So a file is
accepted exactly if its lines are made of pairs with values that are not negative, and the libraries
serve them (`compileLines_returns_iff`), and these pairs may have other characters than digits
(`patterns_decoded_iff`).
-/

set_option autoImplicit false

namespace DdosFiltering.Engine

open Foundation

/-! ## The guard against overflow -/

theorem size_div_two {n : ℕ} (positive : 0 < n) : n.size = (n / 2).size + 1 := by
  have same : Nat.bit n.bodd n.div2 = n := Nat.bit_bodd_div2 n
  have nonzero : Nat.bit n.bodd n.div2 ≠ 0 := by
    rw [same]
    exact Nat.ne_of_gt positive
  have size := Nat.size_bit nonzero
  rwa [same, Nat.div2_val] at size

/-- The loop of `lg` counts the bits of a number, in at least as many turns. -/
theorem lgLoop_eq_size {turns : ℕ} {a : UInt32} (enough : a.toNat < 2 ^ turns) (bits : ℕ) :
    lgLoop turns a bits = bits + a.toNat.size := by
  induction turns generalizing a bits with
  | zero =>
      rw [pow_zero, Nat.lt_one_iff] at enough
      rw [lgLoop, enough, Nat.size_zero, Nat.add_zero]
  | succ turns inductionHypothesis =>
      rw [lgLoop]
      split
      · rename_i nonzero
        have positive : 0 < a.toNat := Nat.pos_of_ne_zero fun none =>
          nonzero (UInt32.toNat_inj.mp none)
        have half : (a >>> 1).toNat = a.toNat / 2 := by
          rw [UInt32.toNat_shiftRight]
          exact Nat.shiftRight_eq_div_pow _ _
        rw [pow_succ] at enough
        rw [inductionHypothesis (by omega), half, size_div_two positive]
        omega
      · rename_i zero
        rw [not_not.mp zero, UInt32.toNat_zero, Nat.size_zero, Nat.add_zero]

theorem lg_eq_size (a : UInt32) : lg a = a.toNat.size := by
  rw [lg, lgLoop_eq_size a.toNat_lt, Nat.zero_add]

theorem additionOverflow_iff (a b : UInt32) :
    additionOverflow a b = true ↔ a.toNat < 2 ^ 31 ∧ b.toNat < 2 ^ 31 := by
  have lg_iff (a : UInt32) : lg a < 32 ↔ a.toNat < 2 ^ 31 := by
    rw [lg_eq_size, ← Nat.size_le, Nat.lt_succ_iff]
  rw [additionOverflow, Bool.and_eq_true, decide_eq_true_iff, decide_eq_true_iff, lg_iff, lg_iff]

/-- The guard is applied to the sum that is already wrapped. It passes only if nothing was. -/
theorem additionOverflow_bmod_iff {hash val : ℤ} (start : 0 ≤ hash) (fits : hash < 2 ^ 31)
    (lower : -2 ^ 31 ≤ val) (upper : val < 2 ^ 31) :
    additionOverflow (UInt32.ofInt ((hash + val).bmod (2 ^ 32))) (UInt32.ofInt val) = true ↔
      0 ≤ val ∧ hash + val < 2 ^ 31 := by
  have value := toNat_ofInt val
  have sum := toNat_ofInt ((hash + val).bmod (2 ^ 32))
  rw [show ((2 : ℤ) ^ 32) = ((2 ^ 32 : ℕ) : ℤ) from rfl, Int.bmod_emod] at sum
  rw [additionOverflow_iff]
  omega

/-! ## One line -/

/-- The value of a pair of characters. -/
def pairVal (p : UInt8 × UInt8) : ℤ := getVal p.1 * 16 + getVal p.2

/-- No pair has a value above this one. -/
def maxPairVal : ℤ := 680

theorem pairVal_bounds (p : UInt8 × UInt8) : -2 ^ 31 ≤ pairVal p ∧ pairVal p ≤ maxPairVal := by
  have digit (c : UInt8) : -225 ≤ getVal c ∧ getVal c ≤ 40 := by
    have bounds := charValue_bounds c
    unfold getVal
    split <;> omega
  have first := digit p.1
  have second := digit p.2
  unfold pairVal maxPairVal
  omega

/-- The characters of a line. -/
def pairLine (ps : List (UInt8 × UInt8)) : List UInt8 := ps.flatMap fun p => [p.1, p.2]

/-- The byte that is stored for a pair. -/
def pairByte (p : UInt8 × UInt8) : UInt8 := UInt8.ofInt (pairVal p)

/-- A line that `fast_str_compile` can read as pairs: no pair has a newline or a negative value,
and there are not too many. -/
structure Readable (room : ℕ) (ps : List (UInt8 × UInt8)) : Prop where
  noNewline : ∀ p ∈ ps, p.1 ≠ newline ∧ p.2 ≠ newline
  nonneg : ∀ p ∈ ps, 0 ≤ pairVal p
  short : ps.length ≤ room

theorem Readable.cons_iff {room : ℕ} {p : UInt8 × UInt8} {ps : List (UInt8 × UInt8)} :
    Readable (room + 1) (p :: ps) ↔
      (p.1 ≠ newline ∧ p.2 ≠ newline ∧ 0 ≤ pairVal p) ∧ Readable room ps := by
  constructor
  · rintro ⟨noNewline, nonneg, short⟩
    rw [List.forall_mem_cons] at noNewline nonneg
    exact ⟨⟨noNewline.1.1, noNewline.1.2, nonneg.1⟩, noNewline.2, nonneg.2,
      Nat.le_of_succ_le_succ short⟩
  · rintro ⟨⟨first, second, val⟩, noNewline, nonneg, short⟩
    exact ⟨List.forall_mem_cons.mpr ⟨⟨first, second⟩, noNewline⟩,
      List.forall_mem_cons.mpr ⟨val, nonneg⟩, Nat.succ_le_succ short⟩

section ReadPattern

variable {room : ℕ} {file rest tmp : List UInt8} {hash : ℤ}

theorem additionOverflow_pair_iff {p : UInt8 × UInt8} (start : 0 ≤ hash) (fits : hash < 2 ^ 31) :
    additionOverflow (UInt32.ofInt ((hash + pairVal p).bmod (2 ^ 32)))
        (UInt32.ofInt (pairVal p)) = true ↔ 0 ≤ pairVal p ∧ hash + pairVal p < 2 ^ 31 := by
  obtain ⟨lower, upper⟩ := pairVal_bounds p
  exact additionOverflow_bmod_iff start fits lower (upper.trans_lt (by decide))

/-- What a pair does to the sum, and that the guard refuses only negative values. -/
theorem sum_pair {p : UInt8 × UInt8} (start : 0 ≤ hash)
    (small : hash + maxPairVal * ((room + 1 : ℕ) : ℤ) < 2 ^ 31) :
    (additionOverflow (UInt32.ofInt ((hash + pairVal p).bmod (2 ^ 32)))
        (UInt32.ofInt (pairVal p)) = true ↔ 0 ≤ pairVal p) ∧
      (0 ≤ pairVal p → (hash + pairVal p).bmod (2 ^ 32) = hash + pairVal p ∧
        hash + pairVal p + maxPairVal * (room : ℤ) < 2 ^ 31) := by
  obtain ⟨-, upper⟩ := pairVal_bounds p
  have limit : (0 : ℤ) ≤ maxPairVal := by decide
  have room_nonneg : (0 : ℤ) ≤ maxPairVal * room :=
    Int.mul_nonneg limit (Int.natCast_nonneg room)
  rw [Nat.cast_succ, mul_add, mul_one] at small
  rw [additionOverflow_pair_iff start (by omega)]
  refine ⟨and_iff_left (by omega), fun nonneg => ⟨?_, by omega⟩⟩
  exact Int.bmod_eq_of_le (by omega) (by omega)

/-- A line that is readable is read. By induction on the pairs. -/
theorem readPattern_pairLine {ps : List (UInt8 × UInt8)} (readable : Readable room ps)
    (start : 0 ≤ hash) (small : hash + maxPairVal * room < 2 ^ 31) :
    readPattern room (pairLine ps ++ newline :: rest) tmp hash =
      some (tmp ++ ps.map pairByte, hash + (ps.map pairVal).sum, rest) := by
  induction ps generalizing room tmp hash with
  | nil =>
      unfold readPattern
      simp [pairLine, fgetc]
  | cons p ps inductionHypothesis =>
      cases room with
      | zero => exact absurd readable.short (by simp)
      | succ room =>
          obtain ⟨⟨first, second, nonneg⟩, readable⟩ := Readable.cons_iff.mp readable
          obtain ⟨guard, sum⟩ := sum_pair (p := p) start small
          obtain ⟨exact_sum, small⟩ := sum nonneg
          have text : pairLine (p :: ps) ++ newline :: rest =
              p.1 :: p.2 :: (pairLine ps ++ newline :: rest) := rfl
          have value : getVal p.1 * 16 + getVal p.2 = pairVal p := rfl
          rw [text, readPattern]
          simp only [fgetc, if_neg first, if_neg second, value]
          rw [if_pos (guard.mpr nonneg), exact_sum,
            inductionHypothesis readable (by omega) small]
          simp [pairByte, add_assoc]

theorem eq_cons_of_fgetc {c : UInt8} {behind : List UInt8} (read : fgetc file = (c, behind))
    (more : behind = [] → c = newline) : file = c :: behind := by
  cases file with
  | nil =>
      obtain ⟨rfl, rfl⟩ := Prod.mk.inj read
      exact absurd (more rfl) (by decide)
  | cons c' file =>
      obtain ⟨rfl, rfl⟩ := Prod.mk.inj read
      rfl

/-- **A line that is read** is readable, and its sum is exact: at the end of the file the loop reads
pairs of `(char) EOF`, and gets no further, and what is added without a wrap is refused or exact. By
induction on the turns of the loop. -/
theorem exists_readable {tmp' : List UInt8} {hash' : ℤ} (start : 0 ≤ hash) (fits : hash < 2 ^ 31)
    (read : readPattern room file tmp hash = some (tmp', hash', rest)) :
    ∃ ps, Readable room ps ∧ file = pairLine ps ++ newline :: rest ∧
      tmp' = tmp ++ ps.map pairByte ∧ hash' = hash + (ps.map pairVal).sum ∧ hash' < 2 ^ 31 := by
  fun_induction readPattern room file tmp hash with
  | case1 room file tmp hash behind first =>
      obtain ⟨rfl, same⟩ := Prod.mk.inj (Option.some.inj read)
      obtain ⟨rfl, rfl⟩ := Prod.mk.inj same
      refine ⟨[], ⟨nofun, nofun, Nat.zero_le room⟩, eq_cons_of_fgetc first fun _ => rfl, ?_⟩
      exact ⟨(List.append_nil _).symm, (Int.add_zero _).symm, fits⟩
  | case2 | case3 | case5 => exact absurd read nofun
  | case4 file tmp hash c behind first noNewline d file' second noNewline' val after room sum guard
      inductionHypothesis =>
      obtain ⟨nonneg, small⟩ := (additionOverflow_pair_iff (p := (c, d)) start fits).mp guard
      have notWrapped : (hash + pairVal (c, d)).bmod (2 ^ 32) = hash + pairVal (c, d) :=
        Int.bmod_eq_of_le (by omega) (by omega)
      have exact_sum : sum = hash + pairVal (c, d) := notWrapped
      obtain ⟨ps, readable, text, bytes, total, below⟩ :=
        inductionHypothesis (by omega) (by omega) read
      have more : file' ≠ [] := by
        rw [text]
        simp
      obtain rfl := eq_cons_of_fgetc second fun atEnd => absurd atEnd more
      obtain rfl := eq_cons_of_fgetc first nofun
      refine ⟨(c, d) :: ps, Readable.cons_iff.mpr ⟨⟨noNewline, noNewline', nonneg⟩, readable⟩,
        congrArg (c :: d :: ·) text, ?_, ?_, below⟩
      · rw [bytes, List.map_cons]
        exact List.append_assoc tmp [_] _
      · rw [total, exact_sum, List.map_cons, List.sum_cons, Int.add_assoc]

end ReadPattern

/-! ## All lines -/

/-- The text of lines. -/
def pairLines (ls : List (List (UInt8 × UInt8))) : List UInt8 :=
  ls.flatMap fun ps => pairLine ps ++ [newline]

/-- The key of a line. -/
def lineKey (ps : List (UInt8 × UInt8)) : ℤ := (ps.map pairVal).sum

/-- The tables after some lines. -/
def FastStr.addLines (t : FastStr) (ls : List (List (UInt8 × UInt8))) : FastStr :=
  ls.foldl (fun t ps => t.addPattern (ps.map pairByte) (ps.map pairVal).sum) t

theorem FastStr.addLines_cons (t : FastStr) (ps : List (UInt8 × UInt8))
    (ls : List (List (UInt8 × UInt8))) :
    t.addLines (ps :: ls) = (t.addPattern (ps.map pairByte) (lineKey ps)).addLines ls := rfl

/-- The tree after some lines. -/
theorem addLines_fastStrstrTree (t : FastStr) (ls : List (List (UInt8 × UInt8))) :
    (t.addLines ls).fastStrstrTree =
      insertKeys t.strings.length (ls.map lineKey) t.fastStrstrTree := by
  induction ls generalizing t with
  | nil => rfl
  | cons ps ls inductionHypothesis =>
      rw [t.addLines_cons, inductionHypothesis]
      simp [FastStr.addPattern, insertKeys]

theorem length_addLines_strings (t : FastStr) (ls : List (List (UInt8 × UInt8))) :
    (t.addLines ls).strings.length = t.strings.length + ls.length := by
  induction ls generalizing t with
  | nil => rfl
  | cons ps ls inductionHypothesis =>
      rw [t.addLines_cons, inductionHypothesis, FastStr.addPattern, List.length_append,
        List.length_singleton, List.length_cons]
      omega

/-- The process comes through some lines, one after the other. -/
def FastStr.ComesThrough (lib : StringLibrary) (t : FastStr)
    (ls : List (List (UInt8 × UInt8))) : Prop :=
  ∀ i ps, ls[i]? = some ps →
    (t.addLines (ls.take i)).comesThrough lib (ps.map pairByte) (lineKey ps) = true

/-- The libraries serve some lines: there is memory for the string of each, and if `free` does not
return, no two of them have the same key. -/
structure Served (lib : StringLibrary) (ls : List (List (UInt8 × UInt8))) : Prop where
  memory : ∀ i ps, ls[i]? = some ps → lib.string i (ps.length + 1) = true
  keys : lib.freeReturns = false → (ls.map lineKey).Nodup

section Lines

variable {lib : StringLibrary}

theorem comesThrough_cons_iff {t : FastStr} {ps : List (UInt8 × UInt8)}
    {ls : List (List (UInt8 × UInt8))} :
    t.ComesThrough lib (ps :: ls) ↔
      t.comesThrough lib (ps.map pairByte) (lineKey ps) = true ∧
        (t.addPattern (ps.map pairByte) (lineKey ps)).ComesThrough lib ls := by
  constructor
  · intro all
    exact ⟨all 0 ps rfl, fun i ps' line => all (i + 1) ps' line⟩
  · rintro ⟨first, later⟩ i ps' line
    cases i with
    | zero =>
        obtain rfl := Option.some.inj line
        exact first
    | succ i => exact later i ps' line

/-- Keys are pairwise different when none is among those before it. -/
theorem nodup_iff_notMem_take {keys : List ℤ} :
    keys.Nodup ↔ ∀ i key, keys[i]? = some key → key ∉ keys.take i := by
  rw [List.nodup_iff_getElem?_ne_getElem?]
  constructor
  · intro different i key here member
    obtain ⟨j, earlier⟩ := List.mem_iff_getElem?.mp member
    rw [List.getElem?_take] at earlier
    split at earlier
    · rename_i less
      obtain ⟨inside, -⟩ := List.getElem?_eq_some_iff.mp here
      exact different j i less inside (earlier.trans here.symm)
    · cases earlier
  · intro absent i j less inside same
    have here := List.getElem?_eq_getElem inside
    refine absent j _ here (List.mem_iff_getElem?.mpr ⟨i, ?_⟩)
    rw [List.getElem?_take, if_pos less, same, here]

/-- **When the process comes through all lines**: the libraries serve them. -/
theorem comesThrough_empty_iff {ls : List (List (UInt8 × UInt8))} :
    FastStr.empty.ComesThrough lib ls ↔ Served lib ls := by
  have turn (i : ℕ) (ps : List (UInt8 × UInt8)) (line : ls[i]? = some ps) :
      (FastStr.empty.addLines (ls.take i)).comesThrough lib (ps.map pairByte) (lineKey ps) = true ↔
        (lib.freeReturns = false → lineKey ps ∉ (ls.map lineKey).take i) ∧
          lib.string i (ps.length + 1) = true := by
    obtain ⟨inside, -⟩ := List.getElem?_eq_some_iff.mp line
    have number : (FastStr.empty.addLines (ls.take i)).strings.length = i := by
      rw [length_addLines_strings, List.length_take_of_le inside.le]
      exact Nat.zero_add i
    have freed : gTreeFrees (lineKey ps) (FastStr.empty.addLines (ls.take i)).fastStrstrTree =
        false ↔ lineKey ps ∉ (ls.map lineKey).take i := by
      rw [addLines_fastStrstrTree, gTreeFrees, Option.isSome_eq_false_iff,
        Option.isNone_iff_eq_none, gTreeLookup_insertKeys_eq_none_iff, List.map_take]
      exact and_iff_left rfl
    rw [FastStr.comesThrough, FastStr.insertReturns, number, List.length_map, Bool.and_eq_true,
      Bool.or_eq_true, Bool.not_eq_true', freed]
    cases lib.freeReturns <;> simp
  constructor
  · intro all
    refine ⟨fun i ps line => ((turn i ps line).mp (all i ps line)).2, fun ends => ?_⟩
    refine nodup_iff_notMem_take.mpr fun i key here => ?_
    rw [List.getElem?_map, Option.map_eq_some_iff] at here
    obtain ⟨ps, line, rfl⟩ := here
    exact ((turn i ps line).mp (all i ps line)).1 ends
  · intro served i ps line
    refine (turn i ps line).mpr ⟨fun ends => ?_, served.memory i ps line⟩
    refine nodup_iff_notMem_take.mp (served.keys ends) i _ ?_
    rw [List.getElem?_map, line]
    rfl

theorem pairLines_cons_append (ps : List (UInt8 × UInt8)) (ls : List (List (UInt8 × UInt8)))
    (behind : List UInt8) :
    pairLines (ps :: ls) ++ behind = pairLine ps ++ newline :: (pairLines ls ++ behind) := by
  simp [pairLines]

theorem readPattern_readable {ps : List (UInt8 × UInt8)} {rest : List UInt8}
    (readable : Readable fastStrMaxStringSize ps) :
    readPattern fastStrMaxStringSize (pairLine ps ++ newline :: rest) [] 0 =
      some (ps.map pairByte, lineKey ps, rest) := by
  have small : (0 : ℤ) + maxPairVal * fastStrMaxStringSize < 2 ^ 31 := by decide
  rw [readPattern_pairLine readable le_rfl small, List.nil_append, Int.zero_add, lineKey]

/-- What the outer loop does with a line that is read. -/
theorem readPatterns_readable {n : ℕ} {ps : List (UInt8 × UInt8)} {rest : List UInt8} {t : FastStr}
    (readable : Readable fastStrMaxStringSize ps) :
    FastStr.readPatterns lib (n + 1) (pairLine ps ++ newline :: rest) t =
      if t.comesThrough lib (ps.map pairByte) (lineKey ps) then
        FastStr.readPatterns lib n rest (t.addPattern (ps.map pairByte) (lineKey ps))
      else
        .aborts := by
  rw [FastStr.readPatterns, readPattern_readable readable]

/-- A line is read, or the outer loop ends here. -/
theorem readable_or_fails (lib : StringLibrary) (file : List UInt8) :
    (∃ ps rest, Readable fastStrMaxStringSize ps ∧ file = pairLine ps ++ newline :: rest) ∨
      ∀ n t, FastStr.readPatterns lib (n + 1) file t = .fails := by
  cases read : readPattern fastStrMaxStringSize file [] 0 with
  | none =>
      refine .inr fun n t => ?_
      rw [FastStr.readPatterns, read]
  | some result =>
      obtain ⟨tmp, hash, rest⟩ := result
      obtain ⟨ps, readable, text, -⟩ := exists_readable le_rfl (by decide) read
      exact .inl ⟨ps, rest, readable, text⟩

/-- **What so many lines are read as**, by induction on their number. -/
theorem readPatterns_eq_returns_iff {n : ℕ} {file : List UInt8} {t t' : FastStr} :
    FastStr.readPatterns lib n file t = .returns t' ↔
      ∃ ls behind, ls.length = n ∧ (∀ ps ∈ ls, Readable fastStrMaxStringSize ps) ∧
        file = pairLines ls ++ behind ∧ t.ComesThrough lib ls ∧ t' = t.addLines ls := by
  induction n generalizing file t with
  | zero =>
      rw [FastStr.readPatterns, Compiled.returns.injEq]
      constructor
      · rintro rfl
        exact ⟨[], file, rfl, List.forall_mem_nil _, rfl, nofun, rfl⟩
      · rintro ⟨ls, behind, none, -, -, -, rfl⟩
        rw [List.length_eq_zero_iff.mp none]
        rfl
  | succ n inductionHypothesis =>
      constructor
      · intro read
        rcases readable_or_fails lib file with ⟨ps, rest, readable, rfl⟩ | fails
        · rw [readPatterns_readable readable] at read
          split at read
          · rename_i through
            obtain ⟨ls, behind, length, allReadable, rfl, later, rfl⟩ :=
              inductionHypothesis.mp read
            exact ⟨ps :: ls, behind, congrArg (· + 1) length,
              List.forall_mem_cons.mpr ⟨readable, allReadable⟩,
              (pairLines_cons_append ps ls behind).symm,
              comesThrough_cons_iff.mpr ⟨through, later⟩, rfl⟩
          · cases read
        · rw [fails] at read
          cases read
      · rintro ⟨ls, behind, length, allReadable, rfl, through, rfl⟩
        obtain ⟨ps, ls, rfl⟩ := List.exists_cons_of_length_eq_add_one length
        obtain ⟨readable, allReadable⟩ := List.forall_mem_cons.mp allReadable
        obtain ⟨first, later⟩ := comesThrough_cons_iff.mp through
        rw [pairLines_cons_append, readPatterns_readable readable, if_pos first]
        exact inductionHypothesis.mpr
          ⟨ls, behind, Nat.succ.inj length, allReadable, rfl, later, rfl⟩

end Lines

/-- `text` starts with the `n` lines `ls`, which are made of pairs of characters. -/
structure StartsWith (n : ℕ) (ls : List (List (UInt8 × UInt8))) (text : List UInt8) : Prop where
  length : ls.length = n
  noNewline : ∀ ps ∈ ls, ∀ p ∈ ps, p.1 ≠ newline ∧ p.2 ≠ newline
  lines : pairLines ls <+: text

/-- The tables that `fast_str_compile` leaves after some lines. -/
def FastStr.ofLines (qsort : List StringsNb → List StringsNb)
    (ls : List (List (UInt8 × UInt8))) : FastStr :=
  let t := FastStr.empty.addLines ls
  { t with stringsNbT := qsort t.stringsNbT }

/-- **Which lines are accepted**, and which tables they leave. -/
theorem compileLines_returns_iff {lib : StringLibrary} {linesNb : ℤ} {text : List UInt8}
    {t : FastStr} (positive : 1 ≤ linesNb) :
    compileLines lib linesNb text = .returns t ↔
      ∃ ls, StartsWith linesNb.toNat ls text ∧ (∀ ps ∈ ls, Readable fastStrMaxStringSize ps) ∧
        lib.arrays linesNb.toNat = true ∧ Served lib ls ∧ t = .ofLines lib.qsort ls := by
  rw [compileLines_eq_returns_iff, and_iff_right positive]
  constructor
  · rintro ⟨arrays, t', read, rfl⟩
    obtain ⟨ls, behind, length, readable, text_eq, through, rfl⟩ :=
      readPatterns_eq_returns_iff.mp read
    have starts : StartsWith linesNb.toNat ls text :=
      ⟨length, fun ps member => (readable ps member).noNewline, behind, text_eq.symm⟩
    exact ⟨ls, starts, readable, arrays, comesThrough_empty_iff.mp through, rfl⟩
  · rintro ⟨ls, ⟨length, -, behind, text_eq⟩, readable, arrays, served, rfl⟩
    have through := comesThrough_empty_iff.mpr served
    have read : FastStr.readPatterns lib linesNb.toNat text .empty =
        .returns (FastStr.empty.addLines ls) :=
      readPatterns_eq_returns_iff.mpr ⟨ls, behind, length, readable, text_eq.symm, through, rfl⟩
    exact ⟨arrays, _, read, rfl⟩

/-- A line is in one way a list of pairs. -/
theorem pairLine_inj {ps ps' : List (UInt8 × UInt8)} {rest rest' : List UInt8}
    (noNewline : ∀ p ∈ ps, p.1 ≠ newline ∧ p.2 ≠ newline)
    (noNewline' : ∀ p ∈ ps', p.1 ≠ newline ∧ p.2 ≠ newline)
    (same : pairLine ps ++ newline :: rest = pairLine ps' ++ newline :: rest') :
    ps = ps' ∧ rest = rest' := by
  induction ps generalizing ps' with
  | nil =>
      cases ps' with
      | nil => exact ⟨rfl, (List.cons.inj same).2⟩
      | cons p' ps' =>
          have first := (List.forall_mem_cons.mp noNewline').1.1
          exact absurd (List.cons.inj same).1.symm first
  | cons p ps inductionHypothesis =>
      obtain ⟨first, later⟩ := List.forall_mem_cons.mp noNewline
      cases ps' with
      | nil => exact absurd (List.cons.inj same).1 first.1
      | cons p' ps' =>
          obtain ⟨one, same⟩ := List.cons.inj same
          obtain ⟨two, same⟩ := List.cons.inj same
          obtain ⟨rfl, rest_eq⟩ :=
            inductionHypothesis later (List.forall_mem_cons.mp noNewline').2 same
          exact ⟨congrArg (· :: ps) (Prod.ext one two), rest_eq⟩

/-- A text of one line with one pair. -/
theorem StartsWith.onePair {p : UInt8 × UInt8} (first : p.1 ≠ newline) (second : p.2 ≠ newline) :
    StartsWith 1 [[p]] [p.1, p.2, newline] where
  length := rfl
  noNewline := by
    intro ps member p' inLine
    obtain rfl := List.mem_singleton.mp member
    obtain rfl := List.mem_singleton.mp inLine
    exact ⟨first, second⟩
  lines := List.prefix_rfl

/-- A text starts with `n` lines in one way only. -/
theorem StartsWith.unique {n : ℕ} {ls ls' : List (List (UInt8 × UInt8))} {text : List UInt8}
    (starts : StartsWith n ls text) (starts' : StartsWith n ls' text) : ls = ls' := by
  obtain ⟨length, noNewline, behind, lines⟩ := starts
  obtain ⟨length', noNewline', behind', lines'⟩ := starts'
  have same := lines.trans lines'.symm
  clear lines lines'
  induction ls generalizing n ls' with
  | nil =>
      rw [← length] at length'
      exact (List.length_eq_zero_iff.mp length').symm
  | cons ps ls inductionHypothesis =>
      rw [← length] at length'
      obtain ⟨ps', ls', rfl⟩ := List.exists_cons_of_length_eq_add_one length'
      obtain ⟨first, later⟩ := List.forall_mem_cons.mp noNewline
      obtain ⟨first', later'⟩ := List.forall_mem_cons.mp noNewline'
      simp only [pairLines, List.flatMap_cons, List.append_assoc, List.cons_append,
        List.nil_append] at same
      obtain ⟨rfl, rest⟩ := pairLine_inj first first' same
      rw [inductionHypothesis rfl later (Nat.succ.inj length') later' rest]

/-! ## Lines of digits -/

/-- The two digits of a byte. -/
def hexPair (b : UInt8) : UInt8 × UInt8 := (hexDigit (b.toNat / 16), hexDigit (b.toNat % 16))

theorem hexPair_spec (b : UInt8) :
    ((hexPair b).1 ≠ newline ∧ (hexPair b).2 ≠ newline) ∧ pairVal (hexPair b) = b.toNat := by
  have byte := b.toNat_lt
  obtain ⟨high, highVal⟩ := hexDigit_spec (n := b.toNat / 16) (by omega)
  obtain ⟨low, lowVal⟩ := hexDigit_spec (n := b.toNat % 16) (by omega)
  refine ⟨⟨high, low⟩, ?_⟩
  rw [pairVal, hexPair, highVal, lowVal]
  omega

/-- The file is accepted exactly if its `n` lines are lines of digits, of which each has room in
`tmp` with a NUL behind it, and then the value of each pair is the byte that its digits
denote, and the tables are made of these bytes. -/
structure DecodedExactly (qsort : List StringsNb → List StringsNb) (n : ℕ) (text : List UInt8)
    (compiled : Compiled) : Prop where
  accepted : (∃ t, compiled = .returns t) ↔
    ∃ bytes : List (List UInt8), StartsWith n (bytes.map (·.map hexPair)) text ∧
      ∀ bs ∈ bytes, bs.length ≤ fastStrMaxStringSize - 1
  decoded : ∀ t, compiled = .returns t → ∀ ls, StartsWith n ls text →
    t = .ofLines qsort ls ∧ ∃ bytes : List (List UInt8), ls = bytes.map (·.map hexPair) ∧
      ls.map (·.map pairVal) = bytes.map (·.map fun b => (b.toNat : ℤ))

/-- Lines of pairs of digits come from bytes. -/
theorem exists_bytes {ls : List (List (UInt8 × UInt8))}
    (digits : ∀ ps ∈ ls, ∀ p ∈ ps, ∃ b, hexPair b = p) :
    ∃ bytes : List (List UInt8), bytes.map (·.map hexPair) = ls := by
  have lines : ls ∈ Set.range (List.map (List.map hexPair)) := by
    rw [Set.range_list_map]
    intro ps member
    rw [Set.range_list_map]
    exact digits ps member
  exact lines

theorem readable_hexPair {bs : List UInt8} (short : bs.length ≤ fastStrMaxStringSize) :
    Readable fastStrMaxStringSize (bs.map hexPair) where
  noNewline := List.forall_mem_map.mpr fun b _ => (hexPair_spec b).1
  nonneg := List.forall_mem_map.mpr fun b _ => (hexPair_spec b).2 ▸ Int.natCast_nonneg _
  short := by rwa [List.length_map]

/-- The lines that a list of byte strings is written as. -/
theorem StartsWith.ofBytes (bytes : List (List UInt8)) :
    StartsWith bytes.length (bytes.map (·.map hexPair)) (pairLines (bytes.map (·.map hexPair)))
    where
  length := List.length_map _
  noNewline := List.forall_mem_map.mpr fun _ _ =>
    List.forall_mem_map.mpr fun b _ => (hexPair_spec b).1
  lines := List.prefix_rfl

/-- When readable lines are lines of digits, each with room for a NUL. -/
theorem acceptedBytes_iff {n : ℕ} {ls : List (List (UInt8 × UInt8))} {text : List UInt8}
    (starts : StartsWith n ls text) (readable : ∀ ps ∈ ls, Readable fastStrMaxStringSize ps) :
    (∃ bytes : List (List UInt8), StartsWith n (bytes.map (·.map hexPair)) text ∧
        ∀ bs ∈ bytes, bs.length ≤ fastStrMaxStringSize - 1) ↔
      ∀ ps ∈ ls, ps.length ≠ fastStrMaxStringSize ∧ ∀ p ∈ ps, ∃ b, hexPair b = p := by
  constructor
  · rintro ⟨bytes, starts', short⟩
    obtain rfl := starts.unique starts'
    refine List.forall_mem_map.mpr fun bs isLine =>
      ⟨?_, List.forall_mem_map.mpr fun b _ => ⟨b, rfl⟩⟩
    have below := short bs isLine
    have size : fastStrMaxStringSize = 1200 := rfl
    rw [List.length_map]
    omega
  · intro digits
    obtain ⟨bytes, rfl⟩ := exists_bytes fun ps member => (digits ps member).2
    refine ⟨bytes, starts, ?_⟩
    intro bs isLine
    have member := List.mem_map_of_mem (f := List.map hexPair) isLine
    have atMost := (readable _ member).short
    have different := (digits _ member).1
    rw [List.length_map] at atMost different
    omega

/-- When the lines that a text starts with are accepted. -/
theorem returns_iff {lib : StringLibrary} {linesNb : ℤ} {ls : List (List (UInt8 × UInt8))}
    {text : List UInt8} (positive : 1 ≤ linesNb) (starts : StartsWith linesNb.toNat ls text) :
    (∃ t, compileLines lib linesNb text = .returns t) ↔
      (∀ ps ∈ ls, Readable fastStrMaxStringSize ps) ∧
        lib.arrays linesNb.toNat = true ∧ Served lib ls := by
  constructor
  · rintro ⟨t, compiled⟩
    obtain ⟨ls', starts', readable, arrays, served, -⟩ :=
      (compileLines_returns_iff positive).mp compiled
    obtain rfl := starts.unique starts'
    exact ⟨readable, arrays, served⟩
  · rintro ⟨readable, arrays, served⟩
    exact ⟨_, (compileLines_returns_iff positive).mpr ⟨ls, starts, readable, arrays, served, rfl⟩⟩

theorem fastStrCompile_count {lib : StringLibrary} {file buff text : List UInt8} {unset k : ℤ}
    (first : fgets fastStrMaxNum file = some (buff, text))
    (count : scanInteger (cString buff) = .value k) :
    fastStrCompile lib (some file) unset = compileLines lib (storedInt k) text := by
  simp [fastStrCompile, first, count]

/-- **Pattern lines are decoded exactly** if and only if, whenever every one of the `n` lines is
made of at most `FAST_STR_MAX_STRING_SIZE` pairs with a value that is not negative, either these
are pairs of digits, there are fewer than that, and the libraries serve the lines, or neither of
the two is so. -/
theorem patterns_decoded_iff (lib : StringLibrary) {file buff text : List UInt8} {unset k : ℤ}
    (first : fgets fastStrMaxNum file = some (buff, text))
    (count : scanInteger (cString buff) = .value k) (positive : 1 ≤ storedInt k) :
    DecodedExactly lib.qsort (storedInt k).toNat text (fastStrCompile lib (some file) unset) ↔
      ∀ ls, StartsWith (storedInt k).toNat ls text →
        (∀ ps ∈ ls, Readable fastStrMaxStringSize ps) →
          ((∀ ps ∈ ls, ps.length ≠ fastStrMaxStringSize ∧ ∀ p ∈ ps, ∃ b, hexPair b = p) ↔
            lib.arrays (storedInt k).toNat = true ∧ Served lib ls) := by
  rw [fastStrCompile_count first count]
  constructor
  · intro exactly ls starts readable
    rw [← acceptedBytes_iff starts readable, ← exactly.accepted, returns_iff positive starts]
    exact and_iff_right readable
  · intro same
    have accepted {ls : List (List (UInt8 × UInt8))}
        (starts : StartsWith (storedInt k).toNat ls text)
        (readable : ∀ ps ∈ ls, Readable fastStrMaxStringSize ps) :
        (∃ t, compileLines lib (storedInt k) text = .returns t) ↔
          ∃ bytes : List (List UInt8),
            StartsWith (storedInt k).toNat (bytes.map (·.map hexPair)) text ∧
              ∀ bs ∈ bytes, bs.length ≤ fastStrMaxStringSize - 1 := by
      rw [acceptedBytes_iff starts readable, same ls starts readable, returns_iff positive starts]
      exact and_iff_right readable
    constructor
    · constructor
      · rintro ⟨t, compiled⟩
        obtain ⟨ls, starts, readable, -⟩ := (compileLines_returns_iff positive).mp compiled
        exact (accepted starts readable).mp ⟨t, compiled⟩
      · rintro ⟨bytes, starts, short⟩
        have readable : ∀ ps ∈ bytes.map (·.map hexPair), Readable fastStrMaxStringSize ps :=
          List.forall_mem_map.mpr fun bs member =>
            readable_hexPair ((short bs member).trans (Nat.sub_le _ _))
        exact (accepted starts readable).mpr ⟨bytes, starts, short⟩
    · intro t compiled ls starts
      obtain ⟨ls', starts', readable, -, -, rfl⟩ :=
        (compileLines_returns_iff positive).mp compiled
      obtain rfl := starts.unique starts'
      obtain ⟨bytes, inBytes, -⟩ := (accepted starts readable).mp ⟨_, compiled⟩
      obtain rfl := starts.unique inBytes
      refine ⟨rfl, bytes, rfl, ?_⟩
      simp [Function.comp_def, (hexPair_spec _).2]

/-- The lines `4a4b` and `ff00`. -/
theorem patterns_decoded_iff_twoLines :
    DecodedExactly qsortStringsNb 2 [52, 97, 52, 98, newline, 102, 102, 48, 48, newline]
      (fastStrCompile glibcLibrary
        (some [50, newline, 52, 97, 52, 98, newline, 102, 102, 48, 48, newline]) 0) := by
  have first : fgets fastStrMaxNum
      [50, newline, 52, 97, 52, 98, newline, 102, 102, 48, 48, newline] =
      some ([50, newline], [52, 97, 52, 98, newline, 102, 102, 48, 48, newline]) := rfl
  have count : scanInteger (cString [50, newline]) = .value 2 := rfl
  apply (patterns_decoded_iff glibcLibrary first count (by decide)).mpr
  intro ls starts _
  have lines : StartsWith 2 ([[0x4a, 0x4b], [0xff, 0x00]].map (·.map hexPair))
      [52, 97, 52, 98, newline, 102, 102, 48, 48, newline] :=
    .ofBytes [[0x4a, 0x4b], [0xff, 0x00]]
  obtain rfl := starts.unique lines
  refine iff_of_true ?_ ⟨rfl, fun _ _ _ => rfl, fun _ => by decide⟩
  refine List.forall_mem_map.mpr fun bs member => ⟨?_, List.forall_mem_map.mpr fun b _ => ⟨b, rfl⟩⟩
  simp only [List.mem_cons, List.not_mem_nil, or_false] at member
  rcases member with rfl | rfl <;> decide

/-- The line `4A` is accepted, and decoded as `2a`. -/
theorem upper_case_accepted :
    ¬∀ (lib : StringLibrary) (file buff text : List UInt8) (unset k : ℤ),
      fgets fastStrMaxNum file = some (buff, text) → scanInteger (cString buff) = .value k →
        1 ≤ storedInt k →
          DecodedExactly lib.qsort (storedInt k).toNat text
            (fastStrCompile lib (some file) unset) := by
  intro claim
  have exactly := claim glibcLibrary [49, newline, 52, 65, newline] [49, newline]
    [52, 65, newline] 0 1 rfl rfl (by decide)
  obtain ⟨bytes, starts, -⟩ := exactly.accepted.mp ⟨_, rfl⟩
  have line : StartsWith 1 [[(52, 65)]] [52, 65, newline] := .onePair (by decide) (by decide)
  have same := starts.unique line
  have digits : ∀ ps ∈ bytes.map (List.map hexPair), ∀ p ∈ ps, p.2 ≠ 65 := by
    intro ps member p isPair
    obtain ⟨bs, -, rfl⟩ := List.mem_map.mp member
    obtain ⟨b, -, rfl⟩ := List.mem_map.mp isPair
    have all : ∀ i : Fin 16, hexDigit i ≠ 65 := by decide
    exact all ⟨b.toNat % 16, Nat.mod_lt _ (by decide)⟩
  rw [same] at digits
  exact absurd rfl (digits _ List.mem_cons_self _ List.mem_cons_self)

end DdosFiltering.Engine
