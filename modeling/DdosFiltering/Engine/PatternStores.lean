import DdosFiltering.Engine.PatternLoops

/-!
# The stores of the compilation

`fast_str_compile` stores the bytes of a line in `tmp`, tests the length behind the store, and
copies `tmp` with its NUL into a string of exactly that size, behind which it stores one NUL more.
So a line that is read to its end is a store behind its string, and a line of more than
`FAST_STR_MAX_STRING_SIZE` pairs is one behind `tmp`. All stores are in bounds exactly when the
first line is refused before either happens (`stores_in_bounds_iff`).
-/

set_option autoImplicit false

namespace DdosFiltering.Engine

/-- A store into `tmp`, or into the memory of a string that has some size. The memory that
`rte_malloc` has refused has the size 0. -/
inductive Store where
  | tmp (index : ℕ)
  | string (index size : ℕ)
deriving DecidableEq, Repr

/-- The store is inside the array or the memory. -/
def Store.InBounds : Store → Prop
  | .tmp index => index < fastStrMaxStringSize
  | .string index size => index < size

namespace Loops

/-- The stores of one turn of the loops, without the zeros that fill `tmp` before a line. Behind a
line these are, once `g_tree_insert` has returned, the NUL in `tmp`, what `strncpy` copies into the
string, and the NUL behind it. A process without memory for the string ends at the first byte. -/
def stores (lib : StringLibrary) : Loops → List Store
  | .ended _ => []
  | .reading _ file tmp hash t =>
      let (c, file) := fgetc file
      if c = newline then
        let len := tmp.length + 1
        if t.insertReturns lib hash then
          if lib.string t.strings.length len then
            .tmp tmp.length :: (List.range len).map (.string · len) ++ [.string len len]
          else
            [.tmp tmp.length, .string 0 0]
        else
          []
      else if (fgetc file).1 = newline then
        []
      else
        [.tmp tmp.length]

/-- All stores from here on are in bounds. -/
def InBoundsFrom (lib : StringLibrary) (l : Loops) : Prop :=
  ∀ k, ∀ store ∈ ((step lib)^[k] l).stores lib, store.InBounds

section Stores

variable {lib : StringLibrary}

theorem inBoundsFrom_iff {l : Loops} :
    l.InBoundsFrom lib ↔
      (∀ store ∈ l.stores lib, store.InBounds) ∧ (step lib l).InBoundsFrom lib := by
  constructor
  · intro all
    exact ⟨all 0, fun k => all (k + 1)⟩
  · rintro ⟨now, later⟩ k
    cases k with
    | zero => exact now
    | succ k => exact later k

theorem inBoundsFrom_ended (result : Compiled) : (ended result).InBoundsFrom lib := by
  intro k
  rw [Function.iterate_fixed rfl]
  exact List.forall_mem_nil _

end Stores

end Loops

/-! ## Lines that are refused -/

/-- The characters that so many calls of `fgetc` return. -/
def firstChars : ℕ → List UInt8 → List UInt8
  | 0, _ => []
  | n + 1, file => (fgetc file).1 :: firstChars n (fgetc file).2

/-- The line is refused before its newline, with room in `tmp` for what is stored: some pairs are
read, and then comes a pair whose second character is a newline, or one with a negative value. -/
def Refused (room : ℕ) (file : List UInt8) : Prop :=
  ∃ ps c d, Readable room ps ∧ c ≠ newline ∧
    firstChars (2 * ps.length + 2) file = pairLine ps ++ [c, d] ∧
    (d = newline ∨ pairVal (c, d) < 0 ∧ ps.length < room)

section Refused

variable {room : ℕ} {file : List UInt8}

theorem Refused.first_ne (refused : Refused room file) : (fgetc file).1 ≠ newline := by
  obtain ⟨ps, c, d, readable, notNewline, chars, -⟩ := refused
  rw [firstChars] at chars
  cases ps with
  | nil => exact (List.cons.inj chars).1 ▸ notNewline
  | cons p ps =>
      have first := (readable.noNewline p List.mem_cons_self).1
      exact (List.cons.inj chars).1 ▸ first

/-- Behind a pair with a value that is not negative, the rest of the line is refused. -/
theorem refused_succ_iff {c d : UInt8} {behind rest : List UInt8}
    (first : fgetc file = (c, behind)) (second : fgetc behind = (d, rest))
    (noNewline : c ≠ newline ∧ d ≠ newline) (nonneg : 0 ≤ pairVal (c, d)) :
    Refused (room + 1) file ↔ Refused room rest := by
  have chars (n : ℕ) : firstChars (n + 2) file = c :: d :: firstChars n rest := by
    simp only [firstChars, first, second]
  constructor
  · rintro ⟨ps, c', d', readable, notNewline, read, stops⟩
    cases ps with
    | nil =>
        simp only [List.length_nil, firstChars, first, second, pairLine, List.flatMap_nil,
          List.nil_append, List.cons.injEq, and_true] at read
        obtain ⟨rfl, rfl⟩ := read
        rcases stops with newline | ⟨negative, -⟩
        · exact absurd newline noNewline.2
        · exact absurd nonneg (Int.not_le.mpr negative)
    | cons p ps =>
        have pairs : 2 * (p :: ps).length + 2 = 2 * ps.length + 2 + 2 := by
          rw [List.length_cons]
          omega
        rw [pairs, chars] at read
        have rest := (List.cons.inj (List.cons.inj read).2).2
        refine ⟨ps, c', d', (Readable.cons_iff.mp readable).2, notNewline, rest, ?_⟩
        exact stops.imp_right fun stop => ⟨stop.1, Nat.lt_of_succ_lt_succ stop.2⟩
  · rintro ⟨ps, c', d', readable, notNewline, read, stops⟩
    refine ⟨(c, d) :: ps, c', d', Readable.cons_iff.mpr ⟨⟨noNewline.1, noNewline.2, nonneg⟩,
      readable⟩, notNewline, ?_, stops.imp_right fun stop => ⟨stop.1, Nat.succ_lt_succ stop.2⟩⟩
    have pairs : 2 * ((c, d) :: ps).length + 2 = 2 * ps.length + 2 + 2 := by
      rw [List.length_cons]
      omega
    rw [pairs, chars, read]
    rfl

/-- A pair with a negative value is refused, if there is room for it. -/
theorem refused_of_pair {c d : UInt8} {behind rest : List UInt8}
    (first : fgetc file = (c, behind)) (second : fgetc behind = (d, rest))
    (notNewline : c ≠ newline) (stops : d = newline ∨ pairVal (c, d) < 0 ∧ 0 < room) :
    Refused room file := by
  refine ⟨[], c, d, ⟨List.forall_mem_nil _, List.forall_mem_nil _, Nat.zero_le _⟩, notNewline, ?_,
    stops⟩
  simp [firstChars, first, second, pairLine]

/-- Without room, only a newline as the second character is refused. -/
theorem refused_zero {c d : UInt8} {behind rest : List UInt8}
    (first : fgetc file = (c, behind)) (second : fgetc behind = (d, rest))
    (refused : Refused 0 file) : d = newline := by
  obtain ⟨ps, c', d', readable, -, chars, stops⟩ := refused
  obtain rfl := List.eq_nil_of_length_eq_zero (Nat.le_zero.mp readable.short)
  simp only [firstChars, first, second, pairLine, List.length_nil, List.flatMap_nil,
    List.nil_append, List.cons.injEq, and_true] at chars
  rcases stops with newline | ⟨-, room⟩
  · exact chars.2.trans newline
  · exact absurd room (Nat.lt_irrefl 0)

end Refused

/-! ## Stores in bounds -/

namespace Loops

variable {lib : StringLibrary} {room more : ℕ} {file tmp : List UInt8} {hash : ℤ}

/-- The first line is inserted into an empty tree. -/
theorem insertReturns_empty : FastStr.empty.insertReturns lib hash = true := by
  rw [FastStr.insertReturns, Bool.or_eq_true]
  exact .inr rfl

section Turn

variable {c d : UInt8} {behind rest : List UInt8} (first : fgetc file = (c, behind))
  (second : fgetc behind = (d, rest))
include first

/-- A line that is read to its end is stored behind its string, or through a null pointer. -/
theorem not_inBounds_of_newline (ends : c = newline) :
    ¬(reading more file tmp hash .empty).InBoundsFrom lib := by
  intro all
  have now := (inBoundsFrom_iff.mp all).1
  simp only [stores, first, if_pos ends, if_pos insertReturns_empty] at now
  split at now
  · have behind := now (.string (tmp.length + 1) (tmp.length + 1)) (by simp)
    exact absurd behind (Nat.lt_irrefl _)
  · have null := now (.string 0 0) (by simp)
    exact absurd null (Nat.lt_irrefl 0)

include second

/-- Where a newline comes next, or behind one more character. -/
theorem inBoundsFrom_newline_iff (ends : c = newline ∨ d = newline) :
    (reading more file tmp hash .empty).InBoundsFrom lib ↔ Refused room file := by
  by_cases now : c = newline
  · refine iff_of_false (not_inBounds_of_newline first now) ?_
    intro refused
    have notNewline := refused.first_ne
    rw [first] at notNewline
    exact notNewline now
  · have odd := ends.resolve_left now
    refine iff_of_true ?_ (refused_of_pair first second now (.inl odd))
    rw [inBoundsFrom_iff]
    simp only [stores, step, first, second, if_neg now, if_pos odd]
    exact ⟨List.forall_mem_nil _, inBoundsFrom_ended .fails⟩

/-- Where a pair comes next: it is stored, and the line goes on unless it is too long or the value
is negative. -/
theorem inBoundsFrom_pair_iff (noNewline : c ≠ newline ∧ d ≠ newline) (start : 0 ≤ hash)
    (small : hash + maxPairVal * ((room + 1 : ℕ) : ℤ) < 2 ^ 31) :
    (reading more file tmp hash .empty).InBoundsFrom lib ↔
      tmp.length < fastStrMaxStringSize ∧
        (0 ≤ pairVal (c, d) →
          (reading more rest (tmp ++ [pairByte (c, d)])
            (hash + pairVal (c, d)) .empty).InBoundsFrom lib) := by
  obtain ⟨guard, sum⟩ := sum_pair (p := (c, d)) start small
  have value : getVal c * 16 + getVal d = pairVal (c, d) := rfl
  rw [inBoundsFrom_iff]
  simp only [stores, step, first, second, if_neg noNewline.1, if_neg noNewline.2, value,
    List.forall_mem_singleton, Store.InBounds, List.length_append, List.length_singleton]
  refine and_congr_right fun inside => ?_
  rw [if_neg (by omega)]
  by_cases nonneg : 0 ≤ pairVal (c, d)
  · rw [if_pos (guard.mpr nonneg), (sum nonneg).1, forall_prop_of_true nonneg]
    rfl
  · rw [if_neg (mt guard.mp nonneg), forall_prop_of_false nonneg]
    exact iff_of_true (inBoundsFrom_ended .fails) trivial

end Turn

/-- **The rest of a line is stored in bounds** exactly if it is refused. By induction on the room
that is left in `tmp`. -/
theorem inBoundsFrom_reading_iff (free : tmp.length + room = fastStrMaxStringSize)
    (start : 0 ≤ hash) (small : hash + maxPairVal * ((room + 1 : ℕ) : ℤ) < 2 ^ 31) :
    (reading more file tmp hash .empty).InBoundsFrom lib ↔ Refused room file := by
  induction room generalizing file tmp hash with
  | zero =>
      obtain ⟨c, behind, first⟩ : ∃ c behind, fgetc file = (c, behind) := ⟨_, _, rfl⟩
      obtain ⟨d, rest, second⟩ : ∃ d rest, fgetc behind = (d, rest) := ⟨_, _, rfl⟩
      by_cases ends : c = newline ∨ d = newline
      · exact inBoundsFrom_newline_iff first second ends
      · rw [inBoundsFrom_pair_iff first second (not_or.mp ends) start small]
        refine iff_of_false (fun inside => ?_) fun refused => ?_
        · omega
        · exact ends (.inr (refused_zero first second refused))
  | succ room inductionHypothesis =>
      obtain ⟨c, behind, first⟩ : ∃ c behind, fgetc file = (c, behind) := ⟨_, _, rfl⟩
      obtain ⟨d, rest, second⟩ : ∃ d rest, fgetc behind = (d, rest) := ⟨_, _, rfl⟩
      by_cases ends : c = newline ∨ d = newline
      · exact inBoundsFrom_newline_iff first second ends
      · have noNewline := not_or.mp ends
        have inside : tmp.length < fastStrMaxStringSize := by omega
        rw [inBoundsFrom_pair_iff first second noNewline start small, and_iff_right inside]
        by_cases nonneg : 0 ≤ pairVal (c, d)
        · obtain ⟨-, smaller⟩ := (sum_pair start small).2 nonneg
          rw [forall_prop_of_true nonneg, refused_succ_iff first second noNewline nonneg]
          apply inductionHypothesis
          · rw [List.length_append, List.length_singleton]
            omega
          · omega
          · exact smaller
        · rw [forall_prop_of_false nonneg]
          have negative := Int.not_le.mp nonneg
          exact iff_of_true trivial
            (refused_of_pair first second noNewline.1 (.inr ⟨negative, Nat.succ_pos room⟩))

/-- All stores of the loops are in bounds exactly if the first line is refused. -/
theorem inBoundsFrom_start_iff (lib : StringLibrary) {linesNb : ℕ} (positive : 0 < linesNb) :
    (start linesNb file .empty).InBoundsFrom lib ↔ Refused fastStrMaxStringSize file := by
  obtain ⟨more, rfl⟩ := Nat.exists_eq_add_of_le' positive
  exact inBoundsFrom_reading_iff (Nat.zero_add _) le_rfl (by decide)

end Loops

/-- A store of `fast_str_compile` into `tmp` or a string: there are none before it knows the
number of lines, and none if that is not positive or there is no memory for the arrays. -/
def StoredBy (lib : StringLibrary) (file : Option (List UInt8)) (linesNb : ℤ)
    (store : Store) : Prop :=
  ∃ buff text n k, file.bind (fgets fastStrMaxNum) = some (buff, text) ∧
    announced buff linesNb = some n ∧ 1 ≤ n ∧ lib.arrays n.toNat = true ∧
    store ∈ ((Loops.step lib)^[k] (.start n.toNat text .empty)).stores lib

/-- **When the compilation stores in bounds**: the file announces no lines, there is no memory for
their arrays, or the first line is refused before its newline, and before its pairs have filled
`tmp`. -/
theorem stores_in_bounds_iff (lib : StringLibrary) (file : Option (List UInt8)) (linesNb : ℤ) :
    (∀ store, StoredBy lib file linesNb store → store.InBounds) ↔
      ∀ buff text n, file.bind (fgets fastStrMaxNum) = some (buff, text) →
        announced buff linesNb = some n → 1 ≤ n → lib.arrays n.toNat = true →
          Refused fastStrMaxStringSize text := by
  constructor
  · intro inBounds buff text n first count positive arrays
    have some : 0 < n.toNat := by omega
    refine (Loops.inBoundsFrom_start_iff lib some).mp ?_
    intro k store member
    exact inBounds store ⟨buff, text, n, k, first, count, positive, arrays, member⟩
  · rintro refused store ⟨buff, text, n, k, first, count, positive, arrays, member⟩
    have some : 0 < n.toNat := by omega
    have all := (Loops.inBoundsFrom_start_iff lib some).mpr
      (refused buff text n first count positive arrays)
    exact all k store member

/-- The file with the line `4a` stores a NUL behind its string of two bytes. -/
theorem accepted_line_overruns :
    ¬∀ (lib : StringLibrary) (file : Option (List UInt8)) (linesNb : ℤ) (store : Store),
      StoredBy lib file linesNb store → store.InBounds := by
  intro claim
  have stored : StoredBy glibcLibrary (some [49, newline, 52, 97, newline]) 0 (.string 2 2) := by
    refine ⟨[49, newline], [52, 97, newline], 1, 1, rfl, rfl, by decide, rfl, ?_⟩
    decide
  exact absurd (claim _ _ _ _ stored) (Nat.lt_irrefl 2)

end DdosFiltering.Engine
