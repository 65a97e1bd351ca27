import Mathlib.Algebra.Group.Int.Defs
import Mathlib.Algebra.Group.Nat.Defs
import Mathlib.Data.Int.Notation
import Mathlib.Data.List.TakeWhile
import Mathlib.Data.Nat.Notation

/-!
# The C library

The parts of the C library that turn numbers into text and back, `snprintf` with `%d`, `atoi`,
`strtol`, `strtoul` and the conversions of `sscanf`, and those that read a file, `fgets`,
`getline` and `fgetc`. Text is a list of characters without the NUL that ends it, and a file is
the list of the bytes that are not read yet. `atoi_decimal` says that `atoi` reads back what `%d`
writes.
-/

set_option autoImplicit false

namespace DdosFiltering

/-- `isspace`, in the C locale. -/
def isspace (c : Char) : Bool := [' ', '\t', '\n', '\x0b', '\x0c', '\r'].contains c

/-- The value of the digits that `text` starts with. -/
def leadingDigits (text : List Char) : ℕ := Nat.ofDigitChars 10 (text.takeWhile Char.isDigit) 0

/-- `atoi`: blanks, a sign, digits. Without digits it is 0. -/
def atoi (text : List Char) : ℤ :=
  match text.dropWhile isspace with
  | '-' :: rest => -(leadingDigits rest)
  | '+' :: rest => leadingDigits rest
  | rest => leadingDigits rest

/-- `snprintf` with `%d`, of a number that is not negative. -/
def decimal (n : ℕ) : List Char := Nat.toDigits 10 n

theorem isDigit_of_mem_decimal {n : ℕ} {c : Char} (member : c ∈ decimal n) : c.isDigit = true :=
  Nat.isDigit_of_mem_toDigits (by omega) (by omega) member

theorem leadingDigits_decimal (n : ℕ) : leadingDigits (decimal n) = n := by
  have all : (decimal n).takeWhile Char.isDigit = decimal n :=
    List.takeWhile_eq_self_iff.mpr fun c member => isDigit_of_mem_decimal member
  rw [leadingDigits, all]
  exact Nat.ofDigitChars_toDigits (by omega) (by omega)

theorem isspace_of_isDigit {c : Char} (digit : c.isDigit = true) : isspace c = false := by
  rw [isspace, List.contains_eq_mem, decide_eq_false_iff_not]
  intro member
  simp only [List.mem_cons, List.not_mem_nil, or_false] at member
  rcases member with rfl | rfl | rfl | rfl | rfl | rfl <;> exact absurd digit (by decide)

/-- **`atoi` reads back what `%d` writes.** -/
theorem atoi_decimal (n : ℕ) : atoi (decimal n) = n := by
  cases text : decimal n with
  | nil => exact absurd text Nat.toDigits_ne_nil
  | cons c rest =>
      have digit : c.isDigit = true := isDigit_of_mem_decimal (text ▸ List.mem_cons_self)
      have noBlank : (c :: rest).dropWhile isspace = c :: rest := by
        rw [List.dropWhile_cons_of_neg]
        simp [isspace_of_isDigit digit]
      unfold atoi
      rw [noBlank]
      split
      · rename_i same
        obtain ⟨rfl, -⟩ := List.cons.inj same
        exact absurd digit (by decide)
      · rename_i same
        obtain ⟨rfl, -⟩ := List.cons.inj same
        exact absurd digit (by decide)
      · rw [← text, leadingDigits_decimal]

theorem decimal_injective : Function.Injective decimal := by
  intro m n same
  rw [← leadingDigits_decimal m, same, leadingDigits_decimal]

theorem not_mem_decimal {n : ℕ} {c : Char} (noDigit : c.isDigit = false) : c ∉ decimal n := by
  intro member
  rw [isDigit_of_mem_decimal member] at noDigit
  cases noDigit

theorem length_decimal_le {n k : ℕ} (positive : 0 < k) (small : n < 10 ^ k) :
    (decimal n).length ≤ k :=
  (Nat.length_toDigits_le_iff (by decide) positive).mpr small

/-! ## Conversions of `sscanf` -/

/-- What an integer conversion of `sscanf` finds in a text: nothing but blanks, something
that is no number, or a number. -/
inductive Conversion where
  | eof
  | noMatch
  | value (n : ℤ)
deriving DecidableEq, Repr

/-- The number that `text` starts with, when a digit comes first. -/
def scanDigits (sign : ℤ) (text : List Char) : Conversion :=
  match text with
  | [] => .noMatch
  | c :: _ => if c.isDigit then .value (sign * leadingDigits text) else .noMatch

/-- The conversions `%d` and `%lu`, before the number is converted to its type. -/
def scanInteger (text : List Char) : Conversion :=
  match text.dropWhile isspace with
  | [] => .eof
  | '-' :: rest => scanDigits (-1) rest
  | '+' :: rest => scanDigits 1 rest
  | rest => scanDigits 1 rest

/-- `%d` stores what `strtol` returns in an `int`. -/
def storedInt (n : ℤ) : ℤ := (max (-2 ^ 63) (min n (2 ^ 63 - 1))).bmod (2 ^ 32)

/-- `%lu` stores what `strtoul` returns. -/
def storedUnsignedLong (n : ℤ) : UInt64 := if n.natAbs < 2 ^ 64 then UInt64.ofInt n else -1

/-- The text behind the number that `scanInteger` finds. -/
def afterInteger (text : List Char) : List Char :=
  match text.dropWhile isspace with
  | '-' :: rest => rest.dropWhile Char.isDigit
  | '+' :: rest => rest.dropWhile Char.isDigit
  | rest => rest.dropWhile Char.isDigit

/-- `%d` in the middle of a format: the `int` that is stored, and the text behind it. -/
def scanInt (text : List Char) : Option (ℤ × List Char) :=
  match scanInteger text with
  | .value n => some (storedInt n, afterInteger text)
  | _ => none

/-- `%s`: a word, and the text behind it. -/
def scanWord (text : List Char) : Option (List Char × List Char) :=
  match text.dropWhile isspace with
  | [] => none
  | rest => some (rest.takeWhile fun c => !isspace c, rest.dropWhile fun c => !isspace c)

/-! ## `strtol` and `strtoul`

Both return the number and the text behind it. Where there is no number, they return 0 and the
whole text.
-/

/-- `strtol` in base 10. -/
def strtol (text : List Char) : ℤ × List Char :=
  match scanInteger text with
  | .value n => (max (-2 ^ 63) (min n (2 ^ 63 - 1)), afterInteger text)
  | _ => (0, text)

/-- `isxdigit`. -/
def isxdigit (c : Char) : Bool := c.isDigit || 'a' ≤ c && c ≤ 'f' || 'A' ≤ c && c ≤ 'F'

/-- The value of a hexadecimal digit. -/
def xdigitValue (c : Char) : ℕ :=
  if c.isDigit then c.toNat - '0'.toNat
  else if c ≤ 'F' then c.toNat - 'A'.toNat + 10
  else c.toNat - 'a'.toNat + 10

/-- The value of the hexadecimal digits that `text` starts with. -/
def leadingXdigits (text : List Char) : ℕ :=
  (text.takeWhile isxdigit).foldl (fun n c => 16 * n + xdigitValue c) 0

/-- The text behind `0x`, when a digit comes next. -/
def dropHexPrefix : List Char → List Char
  | '0' :: x :: c :: rest =>
      if (x = 'x' ∨ x = 'X') ∧ isxdigit c then c :: rest else '0' :: x :: c :: rest
  | text => text

/-- `strtoul` in base 16, of a text whose blanks and sign are read already. -/
def strtoulDigits (text : List Char) (sign : ℤ) (digits : List Char) : UInt64 × List Char :=
  match digits with
  | [] => (0, text)
  | c :: _ =>
      if isxdigit c then
        (storedUnsignedLong (sign * leadingXdigits digits), digits.dropWhile isxdigit)
      else
        (0, text)

/-- `strtoul` in base 16. -/
def strtoul (text : List Char) : UInt64 × List Char :=
  match text.dropWhile isspace with
  | '-' :: rest => strtoulDigits text (-1) (dropHexPrefix rest)
  | '+' :: rest => strtoulDigits text 1 (dropHexPrefix rest)
  | rest => strtoulDigits text 1 (dropHexPrefix rest)

/-! ## Files -/

/-- `'\n'`. -/
def newline : UInt8 := 10

/-- The text in a buffer: its bytes up to the first NUL. -/
def cString (buff : List UInt8) : List Char :=
  (buff.takeWhile (· ≠ 0)).map fun b => Char.ofNat b.toNat

/-- At most `n` bytes of a file, up to a newline, and the bytes after them. -/
def takeLine : ℕ → List UInt8 → List UInt8 × List UInt8
  | 0, file => ([], file)
  | _, [] => ([], [])
  | n + 1, c :: file =>
      if c = newline then
        ([c], file)
      else
        let (line, rest) := takeLine n file
        (c :: line, rest)

/-- `fgets` into a buffer of `size` bytes. `none`: there is nothing to read. -/
def fgets (size : ℕ) (file : List UInt8) : Option (List UInt8 × List UInt8) :=
  if file = [] then none else some (takeLine (size - 1) file)

/-- The lines of a file, each with its newline, as `getline` returns them. -/
def lines : List UInt8 → List (List UInt8)
  | [] => []
  | c :: file =>
      if c = newline then
        [c] :: lines file
      else
        match lines file with
        | [] => [[c]]
        | line :: rest => (c :: line) :: rest

/-- `char c = fgetc(fp)`. The end of the file reads as `(char) EOF`, again and again. -/
def fgetc : List UInt8 → UInt8 × List UInt8
  | [] => (0xff, [])
  | c :: file => (c, file)

end DdosFiltering
