import DdosFiltering.Config.Tables

/-!
# Comment lines

The test for a long line looks at the size of the buffer of `getline`, and the buffer is the one
that the skipped lines have been read into. So a long comment makes `parse_configfile` refuse the
lines behind it. Two files that differ in comments only are read up to different lines at
most; they leave the same exactly when the lines that are read in only one of them come too late
or change nothing (`comments_do_not_matter_iff`).
-/

set_option autoImplicit false

namespace DdosFiltering.Config

/-! ## The first line -/

/-- What `fgets` reads is in the first line. -/
theorem takeLine_fst (n : ℕ) (file : List UInt8) :
    (takeLine n file).1 = ((lines file).headD []).take n := by
  induction file generalizing n with
  | nil => cases n <;> rfl
  | cons c file inductionHypothesis =>
      cases n with
      | zero => simp [takeLine]
      | succ n =>
          rw [takeLine, lines]
          by_cases ends : c = newline
          · rw [if_pos ends, if_pos ends, ends]
            simp
          · rw [if_neg ends, if_neg ends]
            have later := inductionHypothesis n
            cases behind : lines file with
            | nil =>
                rw [behind] at later
                simpa using later
            | cons line rest =>
                rw [behind] at later
                simpa using later

/-- The count that `parse_configfile` reads, if there is one. -/
def countOf (unset : ℤ) (file : List UInt8) : Option ℤ :=
  (fgets 29 file).bind fun r => readLinesNb unset r.1

/-- The count is in the first line. -/
theorem countOf_eq {unset : ℤ} {file file' : List UInt8}
    (head : (lines file).head? = (lines file').head?) :
    countOf unset file = countOf unset file' := by
  have empty (file : List UInt8) : file = [] ↔ (lines file).head? = none := by
    cases file with
    | nil => exact iff_of_true rfl rfl
    | cons c file =>
        refine iff_of_false (List.cons_ne_nil c file) ?_
        rw [lines]
        split
        · exact nofun
        · split <;> exact nofun
  have first (file : List UInt8) : (lines file).headD [] = (lines file).head?.getD [] :=
    List.headD_eq_head?_getD
  unfold countOf fgets
  by_cases none : file = []
  · rw [if_pos none, if_pos ((empty file').mpr (head ▸ (empty file).mp none))]
  · have some' : file' ≠ [] := fun none' =>
      none ((empty file).mpr (head.trans ((empty file').mp none')))
    rw [if_neg none, if_neg some', Option.bind_some, Option.bind_some, takeLine_fst, takeLine_fst,
      first, first, head]

theorem readFile_of_no_count {grow : ℕ → ℕ → ℕ} {unset : ℤ} {file : List UInt8}
    (none : countOf unset file = none) : readFile grow unset (some file) = .none := by
  unfold countOf at none
  simp only [readFile, none]

theorem readFile_of_count (grow : ℕ → ℕ → ℕ) {unset h : ℤ} {file : List UInt8}
    (count : countOf unset file = some h) :
    readFile grow unset (some file) =
      if 0 ≤ h ∧ h ≤ 200 ∧ h ≤ (lines file).length then
        readLines grow (bufferAfter grow 0 ((lines file).take h.toNat)) ((lines file).drop h.toNat)
      else
        .none := by
  obtain ⟨r, first, number⟩ := Option.bind_eq_some_iff.mp count
  exact readFile_eq_ite grow first number

/-! ## Two files -/

/-- The files have the same number of lines, the same first line, and the same lines behind those
that are skipped. -/
structure DifferInComments (unset : ℤ) (file file' : List UInt8) : Prop where
  head : (lines file).head? = (lines file').head?
  length : (lines file).length = (lines file').length
  behind : ∀ h, countOf unset file = some h →
    (lines file).drop h.toNat = (lines file').drop h.toNat

/-! ## Two readings -/

/-- Behind the lines `ls`, the reading is refused before another line has been stored. -/
inductive Unseen (mask : UInt32) (ls : List ConfigLine) (complete : Bool) :
    List ConfigLine → Prop where
  | cut (isCut : complete = false) : Unseen mask ls complete []
  | repeats {line : ConfigLine} {rest : List ConfigLine} (safe : line.Safe mask)
      (repeats : line.Repeats mask ls) : Unseen mask ls complete (line :: rest)
  | passes {line : ConfigLine} {rest : List ConfigLine} (safe : line.Safe mask)
      (masked : line.unmasked mask = false) (later : Unseen mask ls complete rest) :
      Unseen mask ls complete (line :: rest)

/-- The second reading has more lines, but the lines that both have are not all stored, or none
of the others is. -/
def Outlasts (mask : UInt32) (r r' : Reading) : Prop :=
  ∃ more, more ≠ [] ∧ r'.lines = r.lines ++ more ∧
    (¬Storable mask r.lines ∨ Unseen mask r.lines r'.complete more)

/-- The two readings are the same, or they differ too late or in nothing that is stored. -/
def SameEnd (mask : UInt32) (r r' : Reading) : Prop :=
  r = r' ∨ Outlasts mask r r' ∨ Outlasts mask r' r

/-- **What a refusal leaves**: the tables are as after `ls` when no other line is stored. By
induction on the other lines. -/
theorem storeLines_unseen_iff {g : Globals} {ls more : List ConfigLine} {complete : Bool}
    (storable : Storable g.portMask ls) :
    storeLines g.zeroProcConfig 0 (ls ++ more) complete = .returns (-1) (g.storing ls) ↔
      Unseen g.portMask ls complete more := by
  rw [storeLines_storing storable]
  generalize ((keptLines g.portMask ls).length : ℤ) = nb
  have used_iff {line : ConfigLine} (unmasked : line.unmasked g.portMask = true) :
      line.IsUsed (g.storing ls) ↔ line.Repeats g.portMask ls := by
    rw [Globals.storing, isUsed_enableLines_iff storable.kept,
      or_iff_left (not_isUsed_zeroProcConfig g line)]
    exact (and_iff_right unmasked).symm
  induction more generalizing nb with
  | nil =>
      cases complete with
      | true =>
          constructor
          · intro same
            exact absurd (Outcome.returns.inj same).1 (by decide)
          · intro unseen
            cases unseen with
            | cut isCut => exact absurd isCut (by decide)
      | false => exact iff_of_true rfl (.cut rfl)
  | cons line more inductionHypothesis =>
      rw [storeLines, g.storing_portMask]
      by_cases safe : line.Safe g.portMask
      · rw [if_neg (not_not.mpr safe)]
        cases unmasked : line.unmasked g.portMask with
        | false =>
            rw [if_pos rfl]
            apply (inductionHypothesis nb).trans
            constructor
            · exact .passes safe unmasked
            · intro unseen
              cases unseen with
              | repeats isSafe repeats => exact absurd repeats.1 (by simp [unmasked])
              | passes isSafe masked later => exact later
        | true =>
            rw [if_neg (by simp)]
            by_cases used : line.IsUsed (g.storing ls)
            · rw [if_pos used]
              exact iff_of_true rfl (.repeats safe ((used_iff unmasked).mp used))
            · rw [if_neg used]
              constructor
              · intro same
                have enabled : line.IsUsed ((g.storing ls).enableLine line) :=
                  (isUsed_enableLine_iff safe unmasked line).mpr (.inl rfl)
                exact absurd (storeLines_keeps same enabled) used
              · intro unseen
                cases unseen with
                | repeats isSafe repeats => exact absurd ((used_iff unmasked).mpr repeats) used
                | passes isSafe masked later => exact absurd masked (by simp [unmasked])
      · rw [if_pos safe]
        constructor
        · intro same
          cases same
        · intro unseen
          cases unseen with
          | repeats isSafe _ => exact absurd isSafe safe
          | passes isSafe _ _ => exact absurd isSafe safe

/-- What is read behind a line that stops the storing plays no part. -/
theorem storeLines_of_not_storable {g : Globals} {ls : List ConfigLine}
    (stops : ¬Storable g.portMask ls) (more : List ConfigLine) (complete complete' : Bool) :
    storeLines g.zeroProcConfig 0 (ls ++ more) complete =
      storeLines g.zeroProcConfig 0 ls complete' := by
  rcases storable_or_stops g.portMask ls with
    storable | ⟨pre, line, post, rfl, storable, leaves | ⟨safe, repeats⟩⟩
  · exact absurd storable stops
  · rw [List.append_assoc, List.cons_append, storeLines_of_not_safe storable leaves,
      storeLines_of_not_safe storable leaves]
  · rw [List.append_assoc, List.cons_append, storeLines_of_repeats storable safe repeats,
      storeLines_of_repeats storable safe repeats]

/-- What a reading that is cut leaves, against one that goes on. -/
theorem storeLines_eq_iff {g : Globals} {ls more : List ConfigLine} {complete : Bool} :
    storeLines g.zeroProcConfig 0 ls false =
        storeLines g.zeroProcConfig 0 (ls ++ more) complete ↔
      ¬Storable g.portMask ls ∨ Unseen g.portMask ls complete more := by
  by_cases storable : Storable g.portMask ls
  · rw [storeLines_of_storable storable, if_neg (by simp), eq_comm,
      storeLines_unseen_iff storable]
    exact (or_iff_right (not_not.mpr storable)).symm
  · exact iff_of_true (storeLines_of_not_storable storable more complete false).symm (.inl storable)

/-- Two readings leave the same exactly when they have the same end, if the first one has no more
lines than the second one. -/
theorem agree_of_prefix {g : Globals} {r r' : Reading} (isPrefix : r.lines <+: r'.lines)
    (cut : r.lines.length < r'.lines.length → r.complete = false)
    (whole : r.lines.length = r'.lines.length → r.complete = r'.complete) :
    storeLines g.zeroProcConfig 0 r.lines r.complete =
        storeLines g.zeroProcConfig 0 r'.lines r'.complete ↔
      SameEnd g.portMask r r' := by
  obtain ⟨ls, complete⟩ := r
  obtain ⟨ls', complete'⟩ := r'
  obtain ⟨more, rfl⟩ := isPrefix
  simp only at cut whole ⊢
  have length : (ls ++ more).length = ls.length + more.length := List.length_append
  by_cases none : more = []
  · subst none
    obtain rfl : complete = complete' := whole (by simp)
    rw [List.append_nil]
    exact iff_of_true rfl (.inl rfl)
  have longer : 0 < more.length := List.length_pos_iff.mpr none
  obtain rfl : complete = false := cut (by omega)
  rw [storeLines_eq_iff]
  constructor
  · intro same
    exact .inr (.inl ⟨more, none, rfl, same⟩)
  · rintro (same | ⟨more', _, split, same⟩ | ⟨more', _, split, _⟩)
    · have equal := congrArg (List.length ∘ Reading.lines) same
      simp only [Function.comp_apply] at equal
      omega
    · obtain rfl := List.append_cancel_left split
      exact same
    · have equal := congrArg List.length split
      simp only [List.length_append] at equal
      omega

theorem SameEnd.comm {mask : UInt32} {r r' : Reading} : SameEnd mask r r' ↔ SameEnd mask r' r := by
  unfold SameEnd
  rw [eq_comm, or_comm (a := Outlasts mask r r')]

/-- Two readings of the same lines leave the same exactly when they have the same end. -/
theorem readings_agree_iff {g : Globals} {grow : ℕ → ℕ → ℕ} {len len' : ℕ}
    {rest : List (List UInt8)} :
    storeLines g.zeroProcConfig 0 (readLines grow len rest).lines
        (readLines grow len rest).complete =
      storeLines g.zeroProcConfig 0 (readLines grow len' rest).lines
        (readLines grow len' rest).complete ↔
    SameEnd g.portMask (readLines grow len rest) (readLines grow len' rest) := by
  obtain ⟨isPrefix, shorter, whole⟩ := readLines_spec grow len rest
  obtain ⟨isPrefix', shorter', whole'⟩ := readLines_spec grow len' rest
  generalize readLines grow len rest = r at *
  generalize readLines grow len' rest = r' at *
  have incomplete {r : Reading} (whole : r.complete = true ↔ r.lines.length = rest.length)
      (cut : r.lines.length < rest.length) : r.complete = false := by
    rw [← Bool.not_eq_true, whole]
    exact cut.ne
  have same (equal : r.lines.length = r'.lines.length) : r.complete = r'.complete := by
    rw [Bool.eq_iff_iff, whole, whole', equal]
  rcases List.prefix_or_prefix_of_prefix isPrefix isPrefix' with first | second
  · exact agree_of_prefix first (fun less => incomplete whole (less.trans_le shorter')) same
  · rw [eq_comm, SameEnd.comm]
    exact agree_of_prefix second (fun less => incomplete whole' (less.trans_le shorter))
      fun equal => (same equal.symm).symm

/-- **Comment lines do not matter** exactly if what is read behind them has the same end. -/
theorem comments_do_not_matter_iff (grow : ℕ → ℕ → ℕ) (unset : ℤ) (g : Globals)
    {file file' : List UInt8} (differ : DifferInComments unset file file') :
    parseConfigfile grow unset g (some file) = parseConfigfile grow unset g (some file') ↔
      SameEnd g.portMask (readFile grow unset (some file))
        (readFile grow unset (some file')) := by
  have sameCount : countOf unset file = countOf unset file' := countOf_eq differ.head
  rw [parseConfigfile_eq, parseConfigfile_eq]
  cases count : countOf unset file with
  | none =>
      rw [readFile_of_no_count count, readFile_of_no_count (sameCount ▸ count)]
      exact iff_of_true rfl (.inl rfl)
  | some h =>
      rw [readFile_of_count grow count, readFile_of_count grow (sameCount ▸ count),
        ← differ.length, ← differ.behind h count]
      split
      · exact readings_agree_iff
      · exact iff_of_true rfl (.inl rfl)

/-! ## A long comment -/

/-- A file with a comment of so many letters, and one line. -/
def withComment (n : ℕ) : List UInt8 :=
  fileOf "2\n" ++ List.replicate n 97 ++ fileOf "\n0 0 0 0 0 DEFAULT\n"

/-- Two short comments are as good as one another. -/
theorem comments_do_not_matter_iff_short :
    parseConfigfile growTo 0 (unconfigured 1) (some (withComment 3)) =
      parseConfigfile growTo 0 (unconfigured 1) (some (withComment 5)) := by
  have differ : DifferInComments 0 (withComment 3) (withComment 5) := by
    refine ⟨by decide, by decide, fun h count => ?_⟩
    obtain rfl : 2 = h := Option.some.inj count
    decide
  exact (comments_do_not_matter_iff growTo 0 (unconfigured 1) differ).mpr (.inl rfl)

/-- A comment of 130 letters makes the file refused. -/
theorem long_comment_refused :
    ¬∀ (grow : ℕ → ℕ → ℕ) (unset : ℤ) (g : Globals) (file file' : List UInt8),
      (∀ len n, n < grow len n ∧ len ≤ grow len n) → DifferInComments unset file file' →
        parseConfigfile grow unset g (some file) = parseConfigfile grow unset g (some file') := by
  intro claim
  have differ : DifferInComments 0 (withComment 3) (withComment 130) := by
    refine ⟨by decide +kernel, by decide +kernel, fun h count => ?_⟩
    obtain rfl : 2 = h := Option.some.inj count
    decide +kernel
  have grows (len n : ℕ) : n < growTo len n ∧ len ≤ growTo len n := by
    unfold growTo
    split <;> omega
  have same := claim growTo 0 (unconfigured 1) _ _ grows differ
  have accepted : parseConfigfile growTo 0 (unconfigured 1) (some (withComment 3)) = .returns 0
      { (unconfigured 1).zeroProcConfig.enable 0 ⟨0, by decide⟩ ⟨0, by decide⟩
          ⟨0, 0, 0, 0, 0, "DEFAULT".toList, []⟩ with procConfigNb := 1 } := by rfl
  have refused : parseConfigfile growTo 0 (unconfigured 1) (some (withComment 130)) =
      .returns (-1) (unconfigured 1).zeroProcConfig := by
    have nothing : readFile growTo 0 (some (withComment 130)) = .none := by decide +kernel
    rw [parseConfigfile_eq, nothing]
    rfl
  rw [accepted, refused] at same
  exact absurd (Outcome.returns.inj same).1 (by decide)

end DdosFiltering.Config
