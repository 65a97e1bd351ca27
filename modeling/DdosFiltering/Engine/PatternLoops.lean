import DdosFiltering.Engine.PatternFiles
import DdosFiltering.Foundation.Terminating

/-!
# The reading loops end

`fast_str_compile` reads its patterns with two nested loops, and neither of them looks for the end
of the file: the inner one waits for a newline. Here the loops are taken turn by turn
(`Loops.step`), with no bound on their turns. Every turn reads a character of the file as long as
there is one, and at the end of the file `(char) EOF` makes a value that the guard against overflow
refuses (`step_eof`). So the loops end within one turn more than the file has characters
(`loops_end`), with what `FastStr.readPatterns` says.

That a file with too few lines is refused holds only if the process gets as far as its end: if there
is memory, and no two of the lines before have the same sum (`compilation_ends_iff`).
-/

set_option autoImplicit false

namespace DdosFiltering.Engine

open Foundation

/-- Where the loops of `fast_str_compile` are: in a line, with so many lines after it, or at their
end. -/
inductive Loops where
  | reading (more : ℕ) (file tmp : List UInt8) (hash : ℤ) (t : FastStr)
  | ended (result : Compiled)

namespace Loops

/-- The loops before the first turn, for so many lines. -/
def start (linesNb : ℕ) (file : List UInt8) (t : FastStr) : Loops :=
  match linesNb with
  | 0 => .ended (.returns t)
  | more + 1 => .reading more file [] 0 t

/-- One turn of the inner loop, and what the outer loop does when the inner one has ended. -/
def step (lib : StringLibrary) : Loops → Loops
  | .ended result => .ended result
  | .reading more file tmp hash t =>
      let (c, file) := fgetc file
      if c = newline then
        if t.comesThrough lib tmp hash then
          start more file (t.addPattern tmp hash)
        else
          .ended .aborts
      else
        let (d, file) := fgetc file
        if d = newline then
          .ended .fails
        else
          let val := getVal c * 16 + getVal d
          let tmp := tmp ++ [UInt8.ofInt val]
          if tmp.length > fastStrMaxStringSize then
            .ended .fails
          else
            let hash := (hash + val).bmod (2 ^ 32)
            if additionOverflow (UInt32.ofInt hash) (UInt32.ofInt val) then
              .reading more file tmp hash t
            else
              .ended .fails

/-- The loops are at their end. -/
def Halted : Loops → Prop
  | .reading .. => False
  | .ended _ => True

/-- How many characters there are to read, and one turn for the end of the file. -/
def size : Loops → ℕ
  | .reading _ file _ _ _ => file.length + 1
  | .ended _ => 0

section Turns

variable {lib : StringLibrary}

theorem size_start (linesNb : ℕ) (file : List UInt8) (t : FastStr) :
    (start linesNb file t).size ≤ file.length + 1 := by
  cases linesNb with
  | zero => exact Nat.zero_le _
  | succ more => exact Nat.le_refl _

/-- **At the end of the file the loops end**, whatever has been read of the line. -/
theorem step_eof (more : ℕ) (tmp : List UInt8) (hash : ℤ) (t : FastStr) :
    step lib (.reading more [] tmp hash t) = .ended .fails := by
  have refused : additionOverflow
      (UInt32.ofInt ((hash + (getVal 0xff * 16 + getVal 0xff)).bmod (2 ^ 32)))
      (UInt32.ofInt (getVal 0xff * 16 + getVal 0xff)) = false := by
    rw [← Bool.not_eq_true, additionOverflow_iff]
    rintro ⟨-, small⟩
    exact absurd small (by decide)
  have notNewline : (0xff : UInt8) ≠ newline := by decide
  simp only [step, fgetc, if_neg notNewline, refused]
  split
  · rfl
  · rfl

theorem length_fgetc (file : List UInt8) : (fgetc file).2.length ≤ file.length := by
  cases file with
  | nil => exact Nat.le_refl _
  | cons c file => exact Nat.le_succ _

/-- Every turn reads a character, or is the last one. -/
theorem size_step (lib : StringLibrary) (l : Loops) (running : ¬l.Halted) :
    (step lib l).size < l.size := by
  cases l with
  | ended result => exact absurd trivial running
  | reading more file tmp hash t =>
      cases file with
      | nil =>
          rw [step_eof]
          exact Nat.succ_pos _
      | cons c file =>
          have first : fgetc (c :: file) = (c, file) := rfl
          have behind := length_fgetc file
          rw [step, first]
          by_cases ends : c = newline
          · simp only [if_pos ends]
            split
            · exact Nat.lt_succ_of_le (size_start more file _)
            · exact Nat.succ_pos _
          · simp only [if_neg ends]
            generalize fgetc file = second at behind ⊢
            split
            · exact Nat.succ_pos _
            · split
              · exact Nat.succ_pos _
              · split
                · exact Nat.succ_lt_succ (Nat.lt_succ_of_le behind)
                · exact Nat.succ_pos _

/-- What the loops will end with, according to `readPattern` and `FastStr.readPatterns`. -/
def value (lib : StringLibrary) : Loops → Compiled
  | .ended result => result
  | .reading more file tmp hash t =>
      match readPattern (fastStrMaxStringSize - tmp.length) file tmp hash with
      | none => .fails
      | some (tmp, hash, file) =>
          if t.comesThrough lib tmp hash then
            FastStr.readPatterns lib more file (t.addPattern tmp hash)
          else
            .aborts

/-- No line is too long so far. -/
def Short : Loops → Prop
  | .ended _ => True
  | .reading _ _ tmp _ _ => tmp.length ≤ fastStrMaxStringSize

theorem short_start (linesNb : ℕ) (file : List UInt8) (t : FastStr) :
    (start linesNb file t).Short := by
  cases linesNb with
  | zero => trivial
  | succ more => exact Nat.zero_le _

theorem value_start (linesNb : ℕ) (file : List UInt8) (t : FastStr) :
    (start linesNb file t).value lib = FastStr.readPatterns lib linesNb file t := by
  cases linesNb with
  | zero => rfl
  | succ more => rfl

/-- One turn leads to where `readPattern` and `FastStr.readPatterns` lead. -/
theorem step_reads (l : Loops) (short : l.Short) :
    (step lib l).Short ∧ (step lib l).value lib = l.value lib := by
  cases l with
  | ended result => exact ⟨trivial, rfl⟩
  | reading more file tmp hash t =>
      rw [step, value, readPattern]
      generalize fgetc file = first
      by_cases ends : first.1 = newline
      · simp only [if_pos ends]
        split
        · exact ⟨short_start more _ _, value_start more _ _⟩
        · exact ⟨trivial, rfl⟩
      · simp only [if_neg ends]
        generalize fgetc first.2 = second
        by_cases odd : second.1 = newline
        · simp only [if_pos odd]
          exact ⟨trivial, rfl⟩
        · simp only [if_neg odd, List.length_append, List.length_singleton]
          have short : tmp.length ≤ fastStrMaxStringSize := short
          cases room : fastStrMaxStringSize - tmp.length with
          | zero =>
              rw [if_pos (by omega)]
              exact ⟨trivial, rfl⟩
          | succ left =>
              have fits : tmp.length + 1 ≤ fastStrMaxStringSize := by omega
              have less : fastStrMaxStringSize - (tmp.length + 1) = left := by omega
              rw [if_neg (Nat.not_lt.mpr fits)]
              by_cases guard : additionOverflow
                  (UInt32.ofInt ((hash + (getVal first.1 * 16 + getVal second.1)).bmod (2 ^ 32)))
                  (UInt32.ofInt (getVal first.1 * 16 + getVal second.1)) = true
              · simp only [if_pos guard]
                refine ⟨?_, ?_⟩
                · rw [Short, List.length_append, List.length_singleton]
                  exact fits
                · rw [value, List.length_append, List.length_singleton, less]
              · simp only [if_neg guard]
                exact ⟨trivial, rfl⟩

/-- **The loops end**, at the latest one turn behind the end of the file. -/
theorem loops_end (lib : StringLibrary) (linesNb : ℕ) (file : List UInt8) (t : FastStr) :
    ∃ k ≤ file.length + 1, (step lib)^[k] (start linesNb file t) =
      .ended (FastStr.readPatterns lib linesNb file t) := by
  obtain ⟨k, within, halted⟩ := exists_halted (size_step lib) (start linesNb file t)
  have keeps : ∀ l : Loops, l.Short → (step lib l).Short := fun l short => (step_reads l short).1
  have same : ∀ l : Loops, l.Short → (step lib l).value lib = l.value lib :=
    fun l short => (step_reads l short).2
  have value := iterate_keeps keeps same k (short_start linesNb file t)
  refine ⟨k, within.trans (size_start linesNb file t), ?_⟩
  rw [value_start] at value
  cases last : (step lib)^[k] (start linesNb file t) with
  | reading more file tmp hash t =>
      rw [last] at halted
      exact absurd halted id
  | ended result =>
      rw [last] at value
      exact congrArg ended value

end Turns

end Loops

/-! ## Too few lines -/

/-- The lines that a text starts with, behind a readable one. -/
theorem pairLines_prefix_iff {ps ps' : List (UInt8 × UInt8)} {ls : List (List (UInt8 × UInt8))}
    {rest : List UInt8} (readable : Readable fastStrMaxStringSize ps)
    (readable' : Readable fastStrMaxStringSize ps') :
    pairLines (ps' :: ls) <+: pairLine ps ++ newline :: rest ↔
      ps' = ps ∧ pairLines ls <+: rest := by
  constructor
  · rintro ⟨behind, same⟩
    rw [pairLines_cons_append] at same
    obtain ⟨rfl, text⟩ := pairLine_inj readable'.noNewline readable.noNewline same
    exact ⟨rfl, behind, text⟩
  · rintro ⟨rfl, behind, rfl⟩
    exact ⟨behind, pairLines_cons_append ps' ls behind⟩

/-- In front of what has no newline there are no other lines than those before it. -/
theorem prefix_of_pairLines_prefix {ls all : List (List (UInt8 × UInt8))} {cut : List UInt8}
    (noNewline : newline ∉ cut) (allReadable : ∀ ps ∈ all, Readable fastStrMaxStringSize ps)
    (readable : ∀ ps ∈ ls, Readable fastStrMaxStringSize ps)
    (starts : pairLines ls <+: pairLines all ++ cut) : ls <+: all := by
  induction ls generalizing all with
  | nil => exact List.nil_prefix
  | cons ps ls inductionHypothesis =>
      obtain ⟨first, readable⟩ := List.forall_mem_cons.mp readable
      cases all with
      | nil =>
          have inLine : newline ∈ pairLines (ps :: ls) := by simp [pairLines]
          exact absurd (starts.subset inLine) noNewline
      | cons ps' all =>
          obtain ⟨first', laterReadable⟩ := List.forall_mem_cons.mp allReadable
          rw [pairLines_cons_append] at starts
          obtain ⟨rfl, behind⟩ := (pairLines_prefix_iff first' first).mp starts
          exact (List.prefix_cons_inj ps).mpr (inductionHypothesis laterReadable readable behind)

/-- **When a file with fewer newlines than lines are announced is refused**: the process comes
through the complete lines that it starts with. By induction on the number of lines. -/
theorem readPatterns_eq_fails_iff {lib : StringLibrary} {n : ℕ} {file : List UInt8} {t : FastStr}
    (few : file.count newline < n) :
    FastStr.readPatterns lib n file t = .fails ↔
      ∀ ls, pairLines ls <+: file → (∀ ps ∈ ls, Readable fastStrMaxStringSize ps) →
        t.ComesThrough lib ls := by
  induction n generalizing file t with
  | zero => exact absurd few (Nat.not_lt_zero _)
  | succ n inductionHypothesis =>
      rcases readable_or_fails lib file with ⟨ps, rest, readable, rfl⟩ | fails
      · rw [List.count_append, List.count_cons_self] at few
        rw [readPatterns_readable readable]
        split
        · rename_i through
          rw [inductionHypothesis (by omega)]
          constructor
          · intro later ls starts allReadable
            cases ls with
            | nil => exact nofun
            | cons ps' ls =>
                obtain ⟨readable', allReadable⟩ := List.forall_mem_cons.mp allReadable
                obtain ⟨rfl, behind⟩ := (pairLines_prefix_iff readable readable').mp starts
                exact comesThrough_cons_iff.mpr ⟨through, later ls behind allReadable⟩
          · intro all ls starts allReadable
            have starts := (pairLines_prefix_iff readable readable).mpr ⟨rfl, starts⟩
            have allReadable := List.forall_mem_cons.mpr ⟨readable, allReadable⟩
            exact (comesThrough_cons_iff.mp (all _ starts allReadable)).2
        · rename_i stuck
          refine iff_of_false nofun fun all => stuck ?_
          have starts : pairLines [ps] <+: pairLine ps ++ newline :: rest :=
            (pairLines_prefix_iff readable readable).mpr ⟨rfl, List.nil_prefix⟩
          have through := all [ps] starts fun ps' member => List.mem_singleton.mp member ▸ readable
          exact (comesThrough_cons_iff.mp through).1
      · refine iff_of_true (fails n t) fun ls starts allReadable => ?_
        cases ls with
        | nil => exact nofun
        | cons ps ls =>
            -- A first line that is readable is read.
            obtain ⟨behind, rfl⟩ := starts
            have read := fails 0 t
            rw [pairLines_cons_append,
              readPatterns_readable (List.forall_mem_cons.mp allReadable).1] at read
            split at read <;> cases read

/-- The number of lines that is announced in the first line of a file. `linesNb` is what happens to
be in the variable when `sscanf` does not set it. -/
def announced (buff : List UInt8) (linesNb : ℤ) : Option ℤ :=
  match scanInteger (cString buff) with
  | .eof => none
  | .noMatch => some linesNb
  | .value n => some (storedInt n)

theorem fastStrCompile_announced {lib : StringLibrary} {file : Option (List UInt8)}
    {linesNb n : ℤ} {buff text : List UInt8}
    (first : file.bind (fgets fastStrMaxNum) = some (buff, text))
    (count : announced buff linesNb = some n) :
    fastStrCompile lib file linesNb = compileLines lib n text := by
  unfold announced at count
  unfold fastStrCompile
  rw [first]
  cases conversion : scanInteger (cString buff) with
  | eof =>
      rw [conversion] at count
      cases count
  | noMatch =>
      rw [conversion] at count
      simp only [conversion, Option.some.inj count]
  | value k =>
      rw [conversion] at count
      simp only [conversion, ← Option.some.inj count]

/-- The loops for the `n` lines of `text` end, with the result of `fast_str_compile`, and with fewer
newlines than `n` that result is -1. -/
structure CompilationEnds (lib : StringLibrary) (n : ℕ) (text : List UInt8)
    (compiled : Compiled) : Prop where
  loops : ∃ k ≤ text.length + 1, ∃ result,
    (Loops.step lib)^[k] (.start n text .empty) = .ended result ∧
      compiled = if lib.arrays n then result.sorted lib else .exits
  cutOff : text.count newline < n → compiled = .fails

/-- **When compilation ends on a file.** Whatever lines follow the one that announces `n`, the loops
end. With fewer newlines than `n`, `fast_str_compile` returns -1 if and only if there is memory for
the arrays, and the libraries serve the complete lines that the file starts with. -/
theorem compilation_ends_iff (lib : StringLibrary) {file : Option (List UInt8)} {linesNb n : ℤ}
    {buff text : List UInt8} (first : file.bind (fgets fastStrMaxNum) = some (buff, text))
    (count : announced buff linesNb = some n) (positive : 1 ≤ n) :
    CompilationEnds lib n.toNat text (fastStrCompile lib file linesNb) ↔
      (text.count newline < n.toNat → lib.arrays n.toNat = true ∧
        ∀ ls, pairLines ls <+: text → (∀ ps ∈ ls, Readable fastStrMaxStringSize ps) →
          Served lib ls) := by
  rw [fastStrCompile_announced first count, compileLines, if_neg (by omega)]
  have refused (few : text.count newline < n.toNat) :
      (if lib.arrays n.toNat then (FastStr.readPatterns lib n.toNat text .empty).sorted lib
        else .exits) = .fails ↔
      lib.arrays n.toNat = true ∧
        ∀ ls, pairLines ls <+: text → (∀ ps ∈ ls, Readable fastStrMaxStringSize ps) →
          Served lib ls := by
    by_cases arrays : lib.arrays n.toNat = true
    · rw [if_pos arrays, and_iff_right arrays, Compiled.sorted_eq_fails_iff,
        readPatterns_eq_fails_iff few]
      simp only [comesThrough_empty_iff]
    · rw [if_neg arrays]
      refine iff_of_false (fun same => ?_) fun both => arrays both.1
      cases same
  constructor
  · intro ends few
    exact (refused few).mp (ends.cutOff few)
  · intro served
    obtain ⟨k, within, ends⟩ := Loops.loops_end lib n.toNat text .empty
    exact ⟨⟨k, within, _, ends, rfl⟩, fun few => (refused few).mpr (served few)⟩

/-- A file that announces three lines, has two, and ends in the first pair of the third. -/
theorem compilation_ends_iff_cutOff :
    CompilationEnds glibcLibrary 3 [52, 97, 52, 98, newline, 52, 98, newline, 52]
      (fastStrCompile glibcLibrary
        (some [51, newline, 52, 97, 52, 98, newline, 52, 98, newline, 52]) 0) := by
  have first : (some [51, newline, 52, 97, 52, 98, newline, 52, 98, newline, 52]).bind
      (fgets fastStrMaxNum) =
      some ([51, newline], [52, 97, 52, 98, newline, 52, 98, newline, 52]) := rfl
  have count : announced [51, newline] 0 = some 3 := rfl
  let bytes : List (List UInt8) := [[0x4a, 0x4b], [0x4b]]
  have allReadable : ∀ ps ∈ bytes.map (·.map hexPair), Readable fastStrMaxStringSize ps := by
    have short : ∀ bs ∈ bytes, bs.length ≤ fastStrMaxStringSize := by decide
    exact List.forall_mem_map.mpr fun bs member => readable_hexPair (short bs member)
  have distinct : ((bytes.map (·.map hexPair)).map lineKey).Nodup := by decide
  refine (compilation_ends_iff glibcLibrary first count (by decide)).mpr fun _ => ⟨rfl, ?_⟩
  intro ls starts readable
  have lines : pairLines ls <+: pairLines (bytes.map (·.map hexPair)) ++ [52] := starts
  have before := prefix_of_pairLines_prefix (by decide) allReadable readable lines
  exact ⟨fun _ _ _ => rfl, fun _ => distinct.sublist (before.sublist.map lineKey)⟩

/-- The file with the lines 3, 41 and 41: the process is aborted when the second line is inserted,
before the file ends. -/
theorem equal_sums_abort :
    ¬∀ (lib : StringLibrary) (file : Option (List UInt8)) (linesNb n : ℤ)
      (buff text : List UInt8), file.bind (fgets fastStrMaxNum) = some (buff, text) →
        announced buff linesNb = some n → 1 ≤ n →
          CompilationEnds lib n.toNat text (fastStrCompile lib file linesNb) := by
  intro claim
  have ends := claim glibcLibrary (some [51, newline, 52, 49, newline, 52, 49, newline]) 0 3
    [51, newline] [52, 49, newline, 52, 49, newline] rfl rfl (by decide)
  have aborts : fastStrCompile glibcLibrary
      (some [51, newline, 52, 49, newline, 52, 49, newline]) 0 = .aborts := rfl
  exact absurd (aborts.symm.trans (ends.cutOff (by decide))) nofun

end DdosFiltering.Engine
