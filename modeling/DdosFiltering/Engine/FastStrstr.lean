import DdosFiltering.Libc
import Mathlib.Data.Int.Notation

/-!
# The string engine

`fast_strstr.c`: `fast_str_compile` reads a file of patterns in hexadecimal and fills the
tables of the engine, and `fast_strstr_filter_one` and `fast_strstr_filter_one_hashed` search
a packet for a pattern with a rolling sum.

The two searches are one function (`search`) that differs in which slots of the tables it
reads and in what it subtracts from the sum while it compares the pattern with the first
window.

A `char` is a byte, read as a signed number where it is computed with. Memory is a list of
bytes that starts at the pointer, and ends where the allocated block ends; what is read beyond
has no result (`none`). A packet lies at the start of its buffer, which may go on behind it.

The tree of the keys is made with `free` for its keys and values, but these lie in an array of
`rte_malloc`. So a key that is inserted again makes `free` release what it has not given out, and
the `free` of glibc ends the process there. What it does, and which memory there is, are
parameters (`StringLibrary`).
-/

set_option autoImplicit false

namespace DdosFiltering.Engine

/-- `FAST_STR_MAX_NUM`. -/
def fastStrMaxNum : ℕ := 32

/-- `FAST_STR_MAX_STRING_SIZE`. -/
def fastStrMaxStringSize : ℕ := 1200

/-! ## Checked sums (`debug.c`) -/

/-- The loop of `lg`, for at most as many turns as are left. -/
def lgLoop : ℕ → UInt32 → ℕ → ℕ
  | 0, _, bits => bits
  | turns + 1, a, bits => if a ≠ 0 then lgLoop turns (a >>> 1) (bits + 1) else bits

/-- `lg`. After 32 shifts every number is 0. -/
def lg (a : UInt32) : ℕ := lgLoop 32 a 0

/-- `addition_overflow`. -/
def additionOverflow (a b : UInt32) : Bool := lg a < 32 && lg b < 32

/-! ## Compilation -/

/-- The value of a `char`. -/
def charValue (c : UInt8) : ℤ := c.toInt8.toInt

/-- `getVal`. -/
def getVal (c : UInt8) : ℤ :=
  if 48 ≤ charValue c ∧ charValue c ≤ 57 then charValue c - 48 else charValue c - 97 + 10

/-- `struct strings_nb_s`. -/
structure StringsNb where
  key : UInt8
  value : ℕ
deriving DecidableEq, Repr

/-- `struct strings_tree_s`. -/
structure StringsTree where
  key : ℤ
  value : ℕ
deriving DecidableEq, Repr

/-- `compare`. -/
def compare (a b : ℤ) : ℤ := if a < b then -1 else if a > b then 1 else 0

/-- `cmpfunc`. -/
def cmpfunc (a b : StringsNb) : ℤ := a.key.toNat - b.key.toNat

/-- `g_tree_lookup`, in the nodes in the order of `compare`. -/
def gTreeLookup (key : ℤ) : List (ℤ × ℕ) → Option ℕ
  | [] => none
  | (k, v) :: nodes =>
      if compare key k < 0 then
        none
      else if compare key k = 0 then
        some v
      else
        gTreeLookup key nodes

/-- The nodes behind `g_tree_insert`, when it returns. A key that is there gets the new value. -/
def gTreeInsert (key : ℤ) (value : ℕ) : List (ℤ × ℕ) → List (ℤ × ℕ)
  | [] => [(key, value)]
  | (k, v) :: nodes =>
      if compare key k < 0 then
        (key, value) :: (k, v) :: nodes
      else if compare key k = 0 then
        (k, value) :: nodes
      else
        (k, v) :: gTreeInsert key value nodes

/-- `g_tree_insert` calls `free`, on the old value and on the new key: the key is there. -/
def gTreeFrees (key : ℤ) (nodes : List (ℤ × ℕ)) : Bool := (gTreeLookup key nodes).isSome

/-- What `fast_str_compile` calls of the libraries. -/
structure StringLibrary where
  /-- `qsort` with `cmpfunc`. -/
  qsort : List StringsNb → List StringsNb
  /-- `rte_malloc` has memory for the three arrays, which have one size, for so many strings. It
  refuses all of them or none. -/
  arrays : ℕ → Bool
  /-- `rte_malloc` has memory for the string of this number and of this size. -/
  string : ℕ → ℕ → Bool
  /-- `free` returns from a pointer into an array of `rte_malloc`. The one of glibc ends the
  process. -/
  freeReturns : Bool

/-- The tables of the engine. `strings` is `fast_strstr_strings`, with the memory of each
string. -/
structure FastStr where
  strings : List (List UInt8)
  stringsNbT : List StringsNb
  stringsTreeT : List StringsTree
  fastStrstrTree : List (ℤ × ℕ)

/-- The first `n` bytes of memory after `strncpy(dest, src, n)`. -/
def strncpy (src : List UInt8) (n : ℕ) : List UInt8 :=
  let copied := (src.take n).takeWhile (· ≠ 0)
  copied ++ List.replicate (n - copied.length) 0

/-- The inner loop of `fast_str_compile`, for one line. `room` is how many bytes `tmp` may
still get before the line is too long. The result is what `tmp` holds, the hash, and the file
after the line; `none` is `return -1`. -/
def readPattern : ℕ → List UInt8 → List UInt8 → ℤ → Option (List UInt8 × ℤ × List UInt8)
  | room, file, tmp, hash =>
      let (c, file) := fgetc file
      if c = newline then
        some (tmp, hash, file)
      else
        let (d, file) := fgetc file
        if d = newline then
          none
        else
          let val := getVal c * 16 + getVal d
          let tmp := tmp ++ [UInt8.ofInt val]
          match room with
          | 0 => none
          | room + 1 =>
              let hash := (hash + val).bmod (2 ^ 32)
              if additionOverflow (UInt32.ofInt hash) (UInt32.ofInt val) then
                readPattern room file tmp hash
              else
                none

namespace FastStr

/-- No patterns yet. -/
def empty : FastStr := ⟨[], [], [], []⟩

/-- The rest of the body of the outer loop, once a line is read into `tmp`. The string gets
`len` bytes of memory, with `len` one more than the line has bytes, and one more byte is
written behind them. -/
def addPattern (t : FastStr) (tmp : List UInt8) (hash : ℤ) : FastStr where
  strings := t.strings ++ [strncpy (tmp ++ [0]) (tmp.length + 1) ++ [0]]
  stringsNbT := t.stringsNbT ++ [⟨UInt8.ofNat tmp.length, t.strings.length⟩]
  stringsTreeT := t.stringsTreeT ++ [⟨hash, t.strings.length⟩]
  fastStrstrTree := gTreeInsert hash t.strings.length t.fastStrstrTree

/-- `g_tree_insert` returns. -/
def insertReturns (lib : StringLibrary) (t : FastStr) (hash : ℤ) : Bool :=
  lib.freeReturns || !gTreeFrees hash t.fastStrstrTree

/-- The process comes through the rest of the body: `g_tree_insert` returns, and there is memory
for the string. -/
def comesThrough (lib : StringLibrary) (t : FastStr) (tmp : List UInt8) (hash : ℤ) : Bool :=
  t.insertReturns lib hash && lib.string t.strings.length (tmp.length + 1)

end FastStr

/-- How `fast_str_compile` ends. -/
inductive Compiled where
  /-- The process exits. -/
  | exits
  /-- The process is aborted in `free`, or by a store through a null pointer. -/
  | aborts
  /-- It returns -1. -/
  | fails
  /-- It returns 0 and leaves these tables. -/
  | returns (t : FastStr)

/-- The outer loop: so many lines. The lengths are not sorted yet. -/
def FastStr.readPatterns (lib : StringLibrary) : ℕ → List UInt8 → FastStr → Compiled
  | 0, _, t => .returns t
  | lines + 1, file, t =>
      match readPattern fastStrMaxStringSize file [] 0 with
      | none => .fails
      | some (tmp, hash, file) =>
          if t.comesThrough lib tmp hash then
            readPatterns lib lines file (t.addPattern tmp hash)
          else
            .aborts

/-- `qsort`, behind the loops. -/
def Compiled.sorted (lib : StringLibrary) : Compiled → Compiled
  | .returns t => .returns { t with stringsNbT := lib.qsort t.stringsNbT }
  | .exits => .exits
  | .aborts => .aborts
  | .fails => .fails

/-- `fast_str_compile`, once it knows the number of lines. `rte_malloc` returns no memory for a
number of strings that is not positive. -/
def compileLines (lib : StringLibrary) (linesNb : ℤ) (file : List UInt8) : Compiled :=
  if linesNb ≤ 0 then
    .exits
  else if lib.arrays linesNb.toNat then
    (FastStr.readPatterns lib linesNb.toNat file .empty).sorted lib
  else
    .exits

/-- `fast_str_compile`. `file` is `none` when it cannot be opened, and `linesNb` is what happens
to be in the variable of that name when `sscanf` does not set it. -/
def fastStrCompile (lib : StringLibrary) (file : Option (List UInt8)) (linesNb : ℤ) : Compiled :=
  match file.bind (fgets fastStrMaxNum) with
  | none => .fails
  | some (buff, file) =>
      match scanInteger (cString buff) with
      | .eof => .fails
      | .noMatch => compileLines lib linesNb file
      | .value n => compileLines lib (storedInt n) file

/-! ## Search -/

/-- `mystrchr`. The result is the memory from the byte that is found on, if it is found. -/
def mystrchr : List UInt8 → UInt8 → UInt32 → Option (Option (List UInt8))
  | [], _, _ => none
  | b :: s, c, len =>
      if b = c then
        some (some (b :: s))
      else
        let len := len - 1
        if len = 0 then some none else mystrchr s c len

/-- A `char` in a computation with `unsigned int`. -/
def charToUnsigned (c : UInt8) : UInt32 := UInt32.ofInt (charValue c)

/-- The state of the loop that compares the pattern with the first window. -/
structure Comparison where
  iHaystack : List UInt8
  iNeedle : List UInt8
  sumsDiff : UInt32
  identical : Bool

/-- `while (*i_haystack && *i_needle)`. -/
def compareLoop (needleChar : UInt8 → UInt32) :
    List UInt8 → List UInt8 → UInt32 → Bool → Option Comparison
  | [], _, _, _ => none
  | h :: iHaystack, iNeedle, sumsDiff, identical =>
      if h = 0 then
        some ⟨h :: iHaystack, iNeedle, sumsDiff, identical⟩
      else
        match iNeedle with
        | [] => none
        | n :: iNeedle =>
            if n = 0 then
              some ⟨h :: iHaystack, n :: iNeedle, sumsDiff, identical⟩
            else
              compareLoop needleChar iHaystack iNeedle
                (sumsDiff + charToUnsigned h - needleChar n) (identical && h == n)

/-- `for (sub_start = haystack; *i_haystack; i_haystack++)`. -/
def slideLoop (needle : List UInt8) (needleLen1 : ℕ) :
    List UInt8 → List UInt8 → UInt32 → Option ℤ
  | _, [], _ => none
  | [], _ :: _, _ => none
  | leaves :: subStart, h :: iHaystack, sumsDiff =>
      if h = 0 then
        some 0
      else
        let sumsDiff := sumsDiff - charToUnsigned leaves + charToUnsigned h
        if sumsDiff = 0 ∧ needle.head? = subStart.head? ∧
            subStart.take needleLen1 = needle.take needleLen1 then
          some 1
        else
          slideLoop needle needleLen1 subStart iHaystack sumsDiff

/-- What the two searches do once the first byte of the pattern is found. `needleChar` is what
the comparison loop subtracts for a byte of the pattern, and `key` what is subtracted after
it. -/
def searchFrom (needleChar : UInt8 → UInt32) (key : UInt32) (needle haystack : List UInt8) :
    Option ℤ :=
  match compareLoop needleChar haystack.tail needle.tail
      (charToUnsigned (haystack.headD 0)) true with
  | none => none
  | some after =>
      let sumsDiff := after.sumsDiff - key
      if after.iNeedle.headD 0 ≠ 0 then
        some 0
      else if after.identical then
        some 1
      else
        slideLoop needle (needle.length - after.iNeedle.length - 1) haystack
          after.iHaystack sumsDiff

/-- What the two searches share, for the memory of the pattern. -/
def search (needleChar : UInt8 → UInt32) (key : UInt32) (needle haystack : List UInt8)
    (pktLen : UInt32) : Option ℤ :=
  match mystrchr haystack (needle.headD 0) pktLen with
  | none => none
  | some none => some 0
  | some (some haystack) => searchFrom needleChar key needle haystack

/-- `fast_strstr_filter_one`. -/
def fastStrstrFilterOne (t : FastStr) (haystack : List UInt8) (pktLen : UInt32) : Option ℤ :=
  match t.strings[0]? with
  | none => none
  | some needle => search charToUnsigned 0 needle haystack pktLen

/-- `fast_strstr_filter_one_hashed`. -/
def fastStrstrFilterOneHashed (t : FastStr) (haystack : List UInt8) (pktLen : UInt32) :
    Option ℤ :=
  match t.strings[4]?, t.stringsTreeT[0]? with
  | some needle, some node =>
      search (fun _ => 0) (UInt32.ofInt node.key) needle haystack pktLen
  | _, _ => none

end DdosFiltering.Engine
