import DdosFiltering.Config.Lines

/-!
# Accesses outside the arrays

`parse_configfile` looks at the number of fields of a line, at the size of the buffer and at the
port mask, and at no other value before it uses it: an id, a port or a word can be
outside its array, and the first line need not begin with a number. It stays inside the
arrays exactly for the files in which no line that is read before one is refused does
so (`parsing_in_bounds_iff`).
-/

set_option autoImplicit false

namespace DdosFiltering.Config

/-- An access is outside an array exactly when a line is that is read after others which can all be
stored. -/
theorem parseConfigfile_eq_undefined_iff {grow : ℕ → ℕ → ℕ} {unset : ℤ} {g : Globals}
    {file : Option (List UInt8)} :
    parseConfigfile grow unset g file = .undefined ↔
      ∃ pre line post, (readFile grow unset file).lines = pre ++ line :: post ∧
        Storable g.portMask pre ∧ ¬line.Safe g.portMask := by
  rw [parseConfigfile_eq]
  generalize readFile grow unset file = r
  constructor
  · intro undefined
    rcases storable_or_stops g.portMask r.lines with
      storable | ⟨pre, line, post, split, storable, leaves | ⟨safe, repeats⟩⟩
    · rw [storeLines_of_storable storable] at undefined
      cases complete : r.complete with
      | true =>
          rw [complete] at undefined
          cases undefined
      | false =>
          rw [complete] at undefined
          cases undefined
    · exact ⟨pre, line, post, split, storable, leaves⟩
    · rw [split, storeLines_of_repeats storable safe repeats] at undefined
      cases undefined
  · rintro ⟨pre, line, post, split, storable, leaves⟩
    rw [split]
    exact storeLines_of_not_safe storable leaves post r.complete

/-- The first line, if there is one, begins with a number or has nothing but blanks. -/
def CountReadable (file : Option (List UInt8)) : Prop :=
  ∀ f buff rest, file = some f → fgets 29 f = some (buff, rest) →
    scanInteger (cString buff) ≠ .noMatch

/-- `parse_configfile` makes no access outside an array and no shift outside the word, and it uses
no line count that depends on what happened to be in the variable. -/
structure InBounds (grow : ℕ → ℕ → ℕ) (g : Globals) (file : Option (List UInt8)) : Prop where
  accesses : ∀ unset, parseConfigfile grow unset g file ≠ .undefined
  count : ∀ f buff rest, file = some f → fgets 29 f = some (buff, rest) →
    ∀ unset unset', readLinesNb unset buff = readLinesNb unset' buff

theorem count_iff (buff : List UInt8) :
    (∀ unset unset', readLinesNb unset buff = readLinesNb unset' buff) ↔
      scanInteger (cString buff) ≠ .noMatch := by
  constructor
  · intro same noNumber
    have differ := same 0 1
    simp [readLinesNb, noNumber] at differ
  · intro number unset unset'
    unfold readLinesNb
    cases conversion : scanInteger (cString buff) with
    | eof => rfl
    | noMatch => exact absurd conversion number
    | value n => rfl

/-- **Parsing stays in bounds** if and only if the first line gives a count, and no line that
is read leaves the arrays after others that can all be stored. -/
theorem parsing_in_bounds_iff (grow : ℕ → ℕ → ℕ) (g : Globals) (file : Option (List UInt8)) :
    InBounds grow g file ↔
      CountReadable file ∧
        ∀ unset pre line post, (readFile grow unset file).lines = pre ++ line :: post →
          Storable g.portMask pre → line.Safe g.portMask := by
  constructor
  · rintro ⟨accesses, count⟩
    constructor
    · intro f buff rest isFile first
      exact (count_iff buff).mp (count f buff rest isFile first)
    · intro unset pre line post read storable
      by_contra leaves
      apply accesses unset
      exact parseConfigfile_eq_undefined_iff.mpr ⟨pre, line, post, read, storable, leaves⟩
  · rintro ⟨countReadable, safe⟩
    constructor
    · intro unset undefined
      obtain ⟨pre, line, post, read, storable, leaves⟩ :=
        parseConfigfile_eq_undefined_iff.mp undefined
      exact leaves (safe unset pre line post read storable)
    · intro f buff rest isFile first
      exact (count_iff buff).mpr (countReadable f buff rest isFile first)

/-- The line gives the id 200, and `proc_config` has 128 entries. -/
theorem id_outside_table :
    ¬∀ (grow : ℕ → ℕ → ℕ) (g : Globals) (file : Option (List UInt8)), InBounds grow g file := by
  intro claim
  have inBounds := claim growTo (unconfigured 1) (some (fileOf "1\n200 0 0 0 0 DEFAULT\n"))
  exact inBounds.accesses 0 rfl

end DdosFiltering.Config
