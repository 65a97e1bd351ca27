import DdosFiltering.Config.Parser
import Mathlib.Data.List.Basic
import Mathlib.Data.List.Induction

/-!
# The lines of the configuration file

The loop of `parse_configfile` reads a line, tests it and stores it before it reads the next
one. What it reads depends on the file only, and not on the tables; so the loop does the same as
one that reads all lines first, up to one that is refused (`Reading`), and stores them afterwards
(`parseConfigfile_eq`).

The lines are stored one after the other. They are stored up to the end, unless one of them
would be stored outside an array, or repeats the id of an earlier one (`storable_or_stops`).
-/

set_option autoImplicit false

namespace DdosFiltering.Config

/-! ## Reading -/

/-- What `sscanf` reads from a line of the file. -/
def scanLine (bytes : List UInt8) : Option ConfigLine := ConfigLine.scan (cString bytes)

/-- What is read of a file: the lines up to the first one that is refused, and whether
that one is the end of the file. -/
structure Reading where
  lines : List ConfigLine
  complete : Bool
deriving DecidableEq, Repr

/-- Nothing can be read. -/
def Reading.none : Reading := ⟨[], false⟩

/-- The reading with one more line in front. -/
def Reading.cons (line : ConfigLine) (r : Reading) : Reading := ⟨line :: r.lines, r.complete⟩

/-- What the loop of `parse_configfile` reads. -/
def readLines (grow : ℕ → ℕ → ℕ) (len : ℕ) : List (List UInt8) → Reading
  | [] => ⟨[], true⟩
  | bytes :: rest =>
      if grow len bytes.length > ipcMsgSize - 1 then
        .none
      else
        match scanLine bytes with
        | none => .none
        | some line => (readLines grow (grow len bytes.length) rest).cons line

/-- What `parse_configfile` reads. -/
def readFile (grow : ℕ → ℕ → ℕ) (unset : ℤ) (file : Option (List UInt8)) : Reading :=
  match file with
  | none => .none
  | some file =>
      match (fgets 29 file).bind fun r => readLinesNb unset r.1 with
      | none => .none
      | some linesNb =>
          if linesNb > 200 then
            .none
          else
            match skipLines grow linesNb 0 (lines file) with
            | none => .none
            | some (rest, len) => readLines grow len rest

/-- The lines that `parse_configfile` reads after those it skips. -/
def configLines (unset : ℤ) (file : List UInt8) : List ConfigLine :=
  match (fgets 29 file).bind fun r => readLinesNb unset r.1 with
  | none => []
  | some linesNb => ((lines file).drop linesNb.toNat).filterMap scanLine

/-! ## Storing -/

/-- Both ports of the line are in the port mask. -/
def ConfigLine.unmasked (mask : UInt32) (line : ConfigLine) : Bool :=
  Globals.inMask mask line.pRx && Globals.inMask mask line.pTx

/-- Every access that the line makes under a port mask is inside its array, and so is every shift
inside the word. -/
structure ConfigLine.Safe (mask : UInt32) (line : ConfigLine) : Prop where
  engine : line.engine.length < configMaxEngineLen
  args : line.args.length < configMaxArgsLen
  pRx : line.pRx.toNat < rteMaxEthports
  pTx : line.pTx.toNat < rteMaxEthports
  configId : line.unmasked mask = true → 0 ≤ line.configId ∧ line.configId < rteMaxLcore

instance (mask : UInt32) (line : ConfigLine) : Decidable (line.Safe mask) :=
  decidable_of_iff (line.engine.length < configMaxEngineLen ∧
      line.args.length < configMaxArgsLen ∧ line.pRx.toNat < rteMaxEthports ∧
      line.pTx.toNat < rteMaxEthports ∧
      (line.unmasked mask = true → 0 ≤ line.configId ∧ line.configId < rteMaxLcore))
    ⟨fun ⟨engine, args, pRx, pTx, configId⟩ => ⟨engine, args, pRx, pTx, configId⟩,
      fun ⟨engine, args, pRx, pTx, configId⟩ => ⟨engine, args, pRx, pTx, configId⟩⟩

/-- The entry of the line is enabled already. -/
def ConfigLine.IsUsed (line : ConfigLine) (g : Globals) : Prop :=
  ∃ c : LcoreId, line.configId = c.val ∧ (g.procConfig c).enabled ≠ 0

instance (line : ConfigLine) (g : Globals) : Decidable (line.IsUsed g) :=
  inferInstanceAs (Decidable (∃ c : LcoreId, line.configId = c.val ∧ (g.procConfig c).enabled ≠ 0))

/-- The entry of the line is enabled, when there is one. -/
def Globals.enableLine (g : Globals) (line : ConfigLine) : Globals :=
  if inside : line.configId.toNat < rteMaxLcore ∧ line.pRx.toNat < rteMaxEthports ∧
      line.pTx.toNat < rteMaxEthports then
    g.enable ⟨line.configId.toNat, inside.1⟩ ⟨line.pRx.toNat, inside.2.1⟩
      ⟨line.pTx.toNat, inside.2.2⟩ line
  else
    g

/-- The lines are stored after `nb` others. -/
def storeLines (g : Globals) (nb : ℤ) : List ConfigLine → Bool → Outcome
  | [], true => .returns 0 { g with procConfigNb := nb }
  | [], false => .returns (-1) g
  | line :: rest, complete =>
      if ¬line.Safe g.portMask then
        .undefined
      else if line.unmasked g.portMask = false then
        storeLines g nb rest complete
      else if line.IsUsed g then
        .returns (-1) g
      else
        storeLines (g.enableLine line) (nb + 1) rest complete

theorem Globals.enableLine_eq {g : Globals} {line : ConfigLine} {c : LcoreId}
    {rx tx : Fin rteMaxEthports} (configId : line.configId = c.val)
    (pRx : line.pRx.toNat = rx.val) (pTx : line.pTx.toNat = tx.val) :
    g.enableLine line = g.enable c rx tx line := by
  have id : line.configId.toNat = c.val := by omega
  unfold enableLine
  rw [dif_pos ⟨id ▸ c.isLt, pRx ▸ rx.isLt, pTx ▸ tx.isLt⟩]
  simp only [id, pRx, pTx]

/-- Where a line with its ports in the mask is stored. -/
theorem ConfigLine.Safe.place {mask : UInt32} {line : ConfigLine} (safe : line.Safe mask)
    (unmasked : line.unmasked mask = true) :
    ∃ (c : LcoreId) (rx tx : Fin rteMaxEthports), line.configId = c.val ∧
      line.pRx.toNat = rx.val ∧ line.pTx.toNat = tx.val := by
  obtain ⟨nonneg, below⟩ := safe.configId unmasked
  refine ⟨⟨line.configId.toNat, by omega⟩, ⟨_, safe.pRx⟩, ⟨_, safe.pTx⟩, ?_, rfl, rfl⟩
  exact (Int.toNat_of_nonneg nonneg).symm

theorem ConfigLine.isUsed_iff {line : ConfigLine} {g : Globals} {c : LcoreId}
    (configId : line.configId = c.val) : line.IsUsed g ↔ (g.procConfig c).enabled ≠ 0 := by
  constructor
  · rintro ⟨c', same, used⟩
    obtain rfl : c' = c := Fin.val_inj.mp (by omega)
    exact used
  · intro used
    exact ⟨c, configId, used⟩

/-- **The loop stores what it reads**, by induction on the lines. -/
theorem parseLines_eq (grow : ℕ → ℕ → ℕ) (g : Globals) (nb : ℤ) (len : ℕ)
    (rest : List (List UInt8)) :
    parseLines grow g nb len rest =
      storeLines g nb (readLines grow len rest).lines (readLines grow len rest).complete := by
  induction rest generalizing g nb len with
  | nil => rfl
  | cons bytes rest inductionHypothesis =>
      rw [parseLines, readLines]
      by_cases long : grow len bytes.length > ipcMsgSize - 1
      · rw [if_pos long, if_pos long]
        rfl
      rw [if_neg long, if_neg long, ← scanLine]
      cases scanned : scanLine bytes with
      | none => rfl
      | some line =>
          simp only [Reading.cons, storeLines]
          by_cases tokens : configMaxEngineLen ≤ line.engine.length ∨
              configMaxArgsLen ≤ line.args.length
          · have leaves : ¬line.Safe g.portMask := fun safe =>
              tokens.elim safe.engine.not_ge safe.args.not_ge
            rw [if_pos tokens, if_pos leaves]
          rw [if_neg tokens]
          rw [not_or, not_le, not_le] at tokens
          by_cases ports : line.pRx.toNat < rteMaxEthports ∧ line.pTx.toNat < rteMaxEthports
          · rw [dif_pos ports]
            have outside : (!Globals.inMask g.portMask line.pRx ||
                !Globals.inMask g.portMask line.pTx) = !line.unmasked g.portMask :=
              (Bool.not_and _ _).symm
            rw [outside]
            cases unmasked : line.unmasked g.portMask with
            | false =>
                have safe : line.Safe g.portMask :=
                  ⟨tokens.1, tokens.2, ports.1, ports.2, fun _ => by simp_all⟩
                rw [if_neg (not_not.mpr safe)]
                exact inductionHypothesis g nb _
            | true =>
                simp only [Bool.not_true, Bool.false_eq_true, if_false, Bool.true_eq_false]
                by_cases inside : 0 ≤ line.configId ∧ line.configId.toNat < rteMaxLcore
                · have safe : line.Safe g.portMask :=
                    ⟨tokens.1, tokens.2, ports.1, ports.2, fun _ => ⟨inside.1, by omega⟩⟩
                  have configId : line.configId =
                      ((⟨line.configId.toNat, inside.2⟩ : LcoreId).val : ℤ) :=
                    (Int.toNat_of_nonneg inside.1).symm
                  have used_iff := ConfigLine.isUsed_iff (g := g) configId
                  have stored : g.enableLine line = g.enable ⟨line.configId.toNat, inside.2⟩
                      ⟨line.pRx.toNat, ports.1⟩ ⟨line.pTx.toNat, ports.2⟩ line :=
                    Globals.enableLine_eq configId rfl rfl
                  rw [dif_pos inside, if_neg (not_not.mpr safe), stored]
                  split
                  · rename_i unused
                    rw [if_neg (used_iff.not.mpr (not_not.mpr unused))]
                    exact inductionHypothesis _ (nb + 1) _
                  · rename_i used
                    rw [if_pos (used_iff.mpr used)]
                · have leaves : ¬line.Safe g.portMask := fun safe => by
                    have within := safe.configId unmasked
                    omega
                  rw [dif_neg inside, if_pos leaves]
          · have leaves : ¬line.Safe g.portMask := fun safe => ports ⟨safe.pRx, safe.pTx⟩
            rw [dif_neg ports, if_pos leaves]

/-- **What `parse_configfile` does**: it clears the table, reads the file and stores its lines. -/
theorem parseConfigfile_eq (grow : ℕ → ℕ → ℕ) (unset : ℤ) (g : Globals)
    (file : Option (List UInt8)) :
    parseConfigfile grow unset g file =
      storeLines g.zeroProcConfig 0 (readFile grow unset file).lines
        (readFile grow unset file).complete := by
  cases file with
  | none => rfl
  | some file =>
      simp only [parseConfigfile, readFile]
      cases read : fgets 29 file with
      | none => rfl
      | some r =>
          simp only [Option.bind_some]
          cases number : readLinesNb unset r.1 with
          | none => rfl
          | some linesNb =>
              simp only
              by_cases many : linesNb > 200
              · rw [if_pos many, if_pos many]
                rfl
              rw [if_neg many, if_neg many]
              cases skipped : skipLines grow linesNb 0 (lines file) with
              | none => rfl
              | some rest => exact parseLines_eq grow _ 0 rest.2 rest.1

/-! ## The lines that are stored -/

/-- The lines with both ports in the mask. -/
def keptLines (mask : UInt32) (ls : List ConfigLine) : List ConfigLine :=
  ls.filter (ConfigLine.unmasked mask)

/-- The lines of the configuration whose ports are in the mask. -/
def unmaskedLines (mask : UInt32) (unset : ℤ) (file : List UInt8) : List ConfigLine :=
  (configLines unset file).filter (ConfigLine.unmasked mask)

/-- The line has its ports in the mask and the id of an earlier one that has them too. -/
def ConfigLine.Repeats (mask : UInt32) (earlier : List ConfigLine) (line : ConfigLine) : Prop :=
  line.unmasked mask = true ∧ ∃ other ∈ keptLines mask earlier, other.configId = line.configId

/-- No line leaves the arrays, and no two lines with their ports in the mask have the same id. -/
structure Storable (mask : UInt32) (ls : List ConfigLine) : Prop where
  safe : ∀ line ∈ ls, line.Safe mask
  distinct : (keptLines mask ls).Pairwise fun a b => a.configId ≠ b.configId

/-- The globals after some lines with their ports in the mask. -/
def Globals.enableLines (g : Globals) (kept : List ConfigLine) : Globals :=
  kept.foldl Globals.enableLine g

section Store

variable {g : Globals} {mask : UInt32} {line : ConfigLine} {ls pre more : List ConfigLine}

@[simp] theorem Globals.enableLine_portMask (g : Globals) (line : ConfigLine) :
    (g.enableLine line).portMask = g.portMask := by
  unfold enableLine
  split <;> rfl

@[simp] theorem Globals.enableLines_portMask (g : Globals) (kept : List ConfigLine) :
    (g.enableLines kept).portMask = g.portMask := by
  induction kept generalizing g with
  | nil => rfl
  | cons line kept inductionHypothesis =>
      exact (inductionHypothesis (g.enableLine line)).trans (g.enableLine_portMask line)

@[simp] theorem keptLines_append (mask : UInt32) (ls more : List ConfigLine) :
    keptLines mask (ls ++ more) = keptLines mask ls ++ keptLines mask more :=
  List.filter_append ls more

theorem keptLines_cons_of_masked (masked : line.unmasked mask = false) (ls : List ConfigLine) :
    keptLines mask (line :: ls) = keptLines mask ls :=
  List.filter_cons_of_neg (by simp [masked])

theorem keptLines_cons_of_unmasked (unmasked : line.unmasked mask = true)
    (ls : List ConfigLine) : keptLines mask (line :: ls) = line :: keptLines mask ls :=
  List.filter_cons_of_pos unmasked

theorem Storable.nil (mask : UInt32) : Storable mask [] := ⟨nofun, .nil⟩

theorem Storable.left (storable : Storable mask (ls ++ more)) : Storable mask ls where
  safe line member := storable.safe line (List.mem_append_left more member)
  distinct := by
    have distinct := storable.distinct
    rw [keptLines_append] at distinct
    exact (List.pairwise_append.mp distinct).1

theorem ConfigLine.Repeats.not_distinct (repeats : line.Repeats mask pre)
    (post : List ConfigLine) :
    ¬(keptLines mask (pre ++ line :: post)).Pairwise fun a b => a.configId ≠ b.configId := by
  obtain ⟨unmasked, other, member, same⟩ := repeats
  intro distinct
  rw [keptLines_append, List.pairwise_append, keptLines_cons_of_unmasked unmasked] at distinct
  exact distinct.2.2 other member line List.mem_cons_self same

/-- One more line can be stored when it does not leave the arrays and repeats no id. -/
theorem storable_concat_iff :
    Storable mask (ls ++ [line]) ↔
      Storable mask ls ∧ line.Safe mask ∧ ¬line.Repeats mask ls := by
  constructor
  · intro storable
    exact ⟨storable.left, storable.safe line (by simp),
      fun repeats => repeats.not_distinct [] storable.distinct⟩
  · rintro ⟨⟨safe, distinct⟩, lineSafe, unrepeated⟩
    constructor
    · intro other member
      rcases List.mem_append.mp member with before | last
      · exact safe other before
      · exact List.mem_singleton.mp last ▸ lineSafe
    · rw [keptLines_append, List.pairwise_append]
      refine ⟨distinct, ?_, ?_⟩
      · exact ((List.pairwise_singleton _ line).sublist List.filter_sublist)
      · intro other member last isLast same
        obtain ⟨inList, unmasked⟩ := List.mem_filter.mp isLast
        obtain rfl := List.mem_singleton.mp inList
        exact unrepeated ⟨unmasked, other, member, same⟩

/-- **Lines are stored up to the end, or up to one that cannot be stored.** -/
theorem storable_or_stops (mask : UInt32) (ls : List ConfigLine) :
    Storable mask ls ∨ ∃ pre line post, ls = pre ++ line :: post ∧ Storable mask pre ∧
      (¬line.Safe mask ∨ (line.Safe mask ∧ line.Repeats mask pre)) := by
  induction ls using List.reverseRecOn with
  | nil => exact .inl (.nil mask)
  | append_singleton ls line inductionHypothesis =>
      rcases inductionHypothesis with storable | ⟨pre, other, post, rfl, storable, stops⟩
      · by_cases safe : line.Safe mask
        · by_cases repeats : line.Repeats mask ls
          · exact .inr ⟨ls, line, [], rfl, storable, .inr ⟨safe, repeats⟩⟩
          · exact .inl (storable_concat_iff.mpr ⟨storable, safe, repeats⟩)
        · exact .inr ⟨ls, line, [], rfl, storable, .inl safe⟩
      · exact .inr ⟨pre, other, post ++ [line], by simp, storable, stops⟩

/-- Which entries are enabled after a line. -/
theorem isUsed_enableLine_iff (safe : line.Safe mask) (unmasked : line.unmasked mask = true)
    (other : ConfigLine) :
    other.IsUsed (g.enableLine line) ↔ other.configId = line.configId ∨ other.IsUsed g := by
  obtain ⟨c, rx, tx, configId, pRx, pTx⟩ := safe.place unmasked
  rw [Globals.enableLine_eq configId pRx pTx, configId]
  constructor
  · rintro ⟨c', same, used⟩
    by_cases here : c' = c
    · exact .inl (here ▸ same)
    · refine .inr ⟨c', same, ?_⟩
      simpa [Globals.enable, here] using used
  · rintro (here | ⟨c', same, used⟩)
    · exact ⟨c, here, by simp [Globals.enable]⟩
    · refine ⟨c', same, ?_⟩
      by_cases here : c' = c
      · simp [Globals.enable, here]
      · simpa [Globals.enable, here] using used

/-- **Lines that can be stored are stored**, by induction on the lines. -/
theorem storeLines_append (storable : Storable g.portMask ls)
    (unused : ∀ line ∈ keptLines g.portMask ls, ¬line.IsUsed g) (nb : ℤ)
    (more : List ConfigLine) (complete : Bool) :
    storeLines g nb (ls ++ more) complete =
      storeLines (g.enableLines (keptLines g.portMask ls)) (nb + (keptLines g.portMask ls).length)
        more complete := by
  induction ls generalizing g nb with
  | nil => simp [keptLines, Globals.enableLines]
  | cons line ls inductionHypothesis =>
      have safe := storable.safe line List.mem_cons_self
      have distinct := storable.distinct
      rw [List.cons_append, storeLines, if_neg (not_not.mpr safe)]
      cases unmasked : line.unmasked g.portMask with
      | false =>
          rw [keptLines_cons_of_masked unmasked] at unused distinct ⊢
          exact inductionHypothesis
            ⟨fun other member => storable.safe other (List.mem_cons_of_mem line member), distinct⟩
            unused nb
      | true =>
          rw [keptLines_cons_of_unmasked unmasked] at unused distinct ⊢
          obtain ⟨notUsed, unused⟩ := List.forall_mem_cons.mp unused
          obtain ⟨different, distinct⟩ := List.pairwise_cons.mp distinct
          rw [if_neg (by simp), if_neg notUsed]
          have sameMask := g.enableLine_portMask line
          have later : Storable (g.enableLine line).portMask ls :=
            ⟨fun other member => sameMask ▸ storable.safe other (List.mem_cons_of_mem line member),
              sameMask ▸ distinct⟩
          have stillUnused : ∀ other ∈ keptLines (g.enableLine line).portMask ls,
              ¬other.IsUsed (g.enableLine line) := by
            rw [sameMask]
            intro other member used
            rcases (isUsed_enableLine_iff safe unmasked other).mp used with same | used
            · exact different other member same.symm
            · exact unused other member used
          have count : nb + 1 + ((keptLines g.portMask ls).length : ℤ) =
              nb + ((line :: keptLines g.portMask ls).length : ℤ) := by
            rw [List.length_cons]
            omega
          rw [inductionHypothesis later stillUnused (nb + 1), sameMask, count]
          rfl

/-- Which entries are enabled after some lines. -/
theorem isUsed_enableLines_iff {kept : List ConfigLine}
    (safe : ∀ line ∈ kept, line.Safe mask ∧ line.unmasked mask = true) (other : ConfigLine) :
    other.IsUsed (g.enableLines kept) ↔
      (∃ line ∈ kept, line.configId = other.configId) ∨ other.IsUsed g := by
  induction kept generalizing g with
  | nil => simp [Globals.enableLines]
  | cons line kept inductionHypothesis =>
      obtain ⟨first, later⟩ := List.forall_mem_cons.mp safe
      have step : g.enableLines (line :: kept) = (g.enableLine line).enableLines kept := rfl
      rw [step, inductionHypothesis later, isUsed_enableLine_iff first.1 first.2,
        List.exists_mem_cons_iff, eq_comm (b := line.configId), or_left_comm, or_assoc]

theorem not_isUsed_zeroProcConfig (g : Globals) (line : ConfigLine) :
    ¬line.IsUsed g.zeroProcConfig :=
  fun ⟨_, _, enabled⟩ => enabled rfl

/-- The lines of a list that can be stored leave an entry for each of them that is kept. -/
theorem Storable.kept (storable : Storable mask ls) :
    ∀ line ∈ keptLines mask ls, line.Safe mask ∧ line.unmasked mask = true := by
  intro line member
  obtain ⟨inList, unmasked⟩ := List.mem_filter.mp member
  exact ⟨storable.safe line inList, unmasked⟩

/-- The globals after the lines `ls`, all of them stored. -/
def Globals.storing (g : Globals) (ls : List ConfigLine) : Globals :=
  g.zeroProcConfig.enableLines (keptLines g.portMask ls)

@[simp] theorem Globals.storing_portMask (g : Globals) (ls : List ConfigLine) :
    (g.storing ls).portMask = g.portMask :=
  Globals.enableLines_portMask _ _

theorem storeLines_storing (storable : Storable g.portMask pre) (more : List ConfigLine)
    (complete : Bool) :
    storeLines g.zeroProcConfig 0 (pre ++ more) complete =
      storeLines (g.storing pre) (keptLines g.portMask pre).length more complete := by
  have stored := storeLines_append (g := g.zeroProcConfig) storable
    (fun line _ => not_isUsed_zeroProcConfig g line) 0 more complete
  rw [zero_add] at stored
  exact stored

/-- **All lines are stored.** -/
theorem storeLines_of_storable (storable : Storable g.portMask ls) (complete : Bool) :
    storeLines g.zeroProcConfig 0 ls complete =
      if complete then
        .returns 0 { g.storing ls with procConfigNb := (keptLines g.portMask ls).length }
      else
        .returns (-1) (g.storing ls) := by
  have stored := storeLines_storing storable [] complete
  rw [List.append_nil] at stored
  rw [stored]
  cases complete <;> rfl

/-- **A line leaves the arrays**, after others that are stored. -/
theorem storeLines_of_not_safe (storable : Storable g.portMask pre)
    (leaves : ¬line.Safe g.portMask) (post : List ConfigLine) (complete : Bool) :
    storeLines g.zeroProcConfig 0 (pre ++ line :: post) complete = .undefined := by
  rw [storeLines_storing storable, storeLines, g.storing_portMask]
  exact if_pos leaves

/-- **A line repeats an id**, after others that are stored. -/
theorem storeLines_of_repeats (storable : Storable g.portMask pre)
    (safe : line.Safe g.portMask) (repeats : line.Repeats g.portMask pre)
    (post : List ConfigLine) (complete : Bool) :
    storeLines g.zeroProcConfig 0 (pre ++ line :: post) complete =
      .returns (-1) (g.storing pre) := by
  have used : line.IsUsed (g.storing pre) :=
    (isUsed_enableLines_iff storable.kept line).mpr (.inl repeats.2)
  rw [storeLines_storing storable, storeLines, g.storing_portMask, if_neg (not_not.mpr safe),
    repeats.1, if_neg (by simp)]
  exact if_pos used

end Store

/-! ## What is left -/

/-- Where no line is left, the number of configurations is all that changes. -/
theorem eq_of_storeLines_nil {g g' : Globals} {nb ret : ℤ} {complete : Bool}
    (stored : storeLines g nb [] complete = .returns ret g') :
    ∃ n, g' = { g with procConfigNb := n } := by
  cases complete with
  | true =>
      obtain ⟨-, rfl⟩ := Outcome.returns.inj stored
      exact ⟨nb, rfl⟩
  | false =>
      obtain ⟨-, rfl⟩ := Outcome.returns.inj stored
      exact ⟨g.procConfigNb, rfl⟩

/-- **What becomes of a line**: it is passed over, it stops the storing, or it is stored. -/
theorem storeLines_cons {g g' : Globals} {nb ret : ℤ} {line : ConfigLine}
    {rest : List ConfigLine} {complete : Bool}
    (stored : storeLines g nb (line :: rest) complete = .returns ret g') :
    line.Safe g.portMask ∧
      ((line.unmasked g.portMask = false ∧ storeLines g nb rest complete = .returns ret g') ∨
        (line.unmasked g.portMask = true ∧ line.IsUsed g ∧ g' = g) ∨
        (line.unmasked g.portMask = true ∧
          storeLines (g.enableLine line) (nb + 1) rest complete = .returns ret g')) := by
  rw [storeLines] at stored
  split at stored
  · cases stored
  · rename_i safe
    refine ⟨not_not.mp safe, ?_⟩
    cases unmasked : line.unmasked g.portMask with
    | false =>
        rw [unmasked, if_pos rfl] at stored
        exact .inl ⟨rfl, stored⟩
    | true =>
        rw [unmasked, if_neg (by simp)] at stored
        split at stored
        · rename_i used
          exact .inr (.inl ⟨rfl, used, (Outcome.returns.inj stored).2.symm⟩)
        · exact .inr (.inr ⟨rfl, stored⟩)

/-- Entries that are enabled stay so, by induction on the lines. -/
theorem storeLines_keeps {g g' : Globals} {nb ret : ℤ} {ls : List ConfigLine} {complete : Bool}
    (stored : storeLines g nb ls complete = .returns ret g') {other : ConfigLine}
    (used : other.IsUsed g) : other.IsUsed g' := by
  induction ls generalizing g nb with
  | nil =>
      obtain ⟨n, rfl⟩ := eq_of_storeLines_nil stored
      exact used
  | cons line rest inductionHypothesis =>
      obtain ⟨safe, ⟨-, later⟩ | ⟨-, -, rfl⟩ | ⟨unmasked, later⟩⟩ := storeLines_cons stored
      · exact inductionHypothesis later used
      · exact used
      · apply inductionHypothesis later
        exact (isUsed_enableLine_iff safe unmasked other).mpr (.inr used)

/-- Storing lines does not change the port mask, by induction on the lines. -/
theorem storeLines_portMask {g g' : Globals} {nb ret : ℤ} {ls : List ConfigLine} {complete : Bool}
    (stored : storeLines g nb ls complete = .returns ret g') : g'.portMask = g.portMask := by
  induction ls generalizing g nb with
  | nil =>
      obtain ⟨n, rfl⟩ := eq_of_storeLines_nil stored
      rfl
  | cons line rest inductionHypothesis =>
      obtain ⟨-, ⟨-, later⟩ | ⟨-, -, rfl⟩ | ⟨-, later⟩⟩ := storeLines_cons stored
      · exact inductionHypothesis later
      · rfl
      · exact (inductionHypothesis later).trans (g.enableLine_portMask line)

theorem parseConfigfile_portMask {grow : ℕ → ℕ → ℕ} {unset ret : ℤ} {g g' : Globals}
    {file : Option (List UInt8)} (parsed : parseConfigfile grow unset g file = .returns ret g') :
    g'.portMask = g.portMask := by
  rw [parseConfigfile_eq] at parsed
  have zeroed := storeLines_portMask parsed
  exact zeroed

/-! ## Skipping -/

/-- The size of the buffer of `getline` after some lines. -/
def bufferAfter (grow : ℕ → ℕ → ℕ) (len : ℕ) (all : List (List UInt8)) : ℕ :=
  all.foldl (fun len bytes => grow len bytes.length) len

/-- **What is skipped**: as many lines as the first one says, when there are so many. By induction
on the lines. -/
theorem skipLines_eq_ite (grow : ℕ → ℕ → ℕ) (linesNb : ℤ) (len : ℕ) (all : List (List UInt8)) :
    skipLines grow linesNb len all =
      if 0 ≤ linesNb ∧ linesNb ≤ all.length then
        some (all.drop linesNb.toNat, bufferAfter grow len (all.take linesNb.toNat))
      else
        none := by
  induction all generalizing linesNb len with
  | nil =>
      rw [skipLines, List.length_nil]
      by_cases zero : linesNb = 0
      · subst zero
        rfl
      · rw [if_neg zero, if_neg (by omega)]
  | cons bytes all inductionHypothesis =>
      rw [skipLines, List.length_cons]
      by_cases zero : linesNb = 0
      · rw [if_pos zero, if_pos (by omega), zero]
        rfl
      · rw [if_neg zero, inductionHypothesis]
        by_cases within : 0 ≤ linesNb - 1 ∧ linesNb - 1 ≤ all.length
        · have count : linesNb.toNat = (linesNb - 1).toNat + 1 := by omega
          rw [if_pos within, if_pos (by omega), count]
          rfl
        · rw [if_neg within, if_neg (by omega)]

/-- What is read of a file whose first line gives a number. -/
theorem readFile_eq_ite (grow : ℕ → ℕ → ℕ) {unset h : ℤ} {file buff rest : List UInt8}
    (first : fgets 29 file = some (buff, rest)) (count : readLinesNb unset buff = some h) :
    readFile grow unset (some file) =
      if 0 ≤ h ∧ h ≤ 200 ∧ h ≤ (lines file).length then
        readLines grow (bufferAfter grow 0 ((lines file).take h.toNat)) ((lines file).drop h.toNat)
      else
        .none := by
  simp only [readFile, first, Option.bind_some, count, skipLines_eq_ite]
  by_cases many : h > 200
  · rw [if_pos many, if_neg (by omega)]
  rw [if_neg many]
  by_cases within : 0 ≤ h ∧ h ≤ (lines file).length
  · rw [if_pos within, if_pos (by omega)]
  · rw [if_neg within, if_neg (by omega)]

/-- The lines that are read come first among those that can be scanned, and they are all of
these when the reading is complete. By induction on the lines. -/
theorem readLines_spec (grow : ℕ → ℕ → ℕ) (len : ℕ) (rest : List (List UInt8)) :
    (readLines grow len rest).lines <+: rest.filterMap scanLine ∧
      (readLines grow len rest).lines.length ≤ rest.length ∧
      ((readLines grow len rest).complete = true ↔
        (readLines grow len rest).lines.length = rest.length) := by
  induction rest generalizing len with
  | nil => exact ⟨List.prefix_rfl, le_rfl, iff_of_true rfl rfl⟩
  | cons bytes rest inductionHypothesis =>
      have cut : Reading.none.lines <+: (bytes :: rest).filterMap scanLine ∧
          Reading.none.lines.length ≤ (bytes :: rest).length ∧
          (Reading.none.complete = true ↔ Reading.none.lines.length = (bytes :: rest).length) :=
        ⟨List.nil_prefix, Nat.zero_le _, iff_of_false nofun nofun⟩
      rw [readLines]
      split
      · exact cut
      · cases scanned : scanLine bytes with
        | none => exact cut
        | some line =>
            obtain ⟨isPrefix, shorter, whole⟩ := inductionHypothesis (grow len bytes.length)
            rw [List.filterMap_cons_some scanned]
            refine ⟨(List.prefix_cons_inj line).mpr isPrefix, Nat.succ_le_succ shorter, ?_⟩
            exact whole.trans Nat.succ_inj.symm

/-- All lines are read, or the reading is cut. -/
theorem readLines_complete {grow : ℕ → ℕ → ℕ} {len : ℕ} {rest : List (List UInt8)}
    (complete : (readLines grow len rest).complete = true) :
    (readLines grow len rest).lines = rest.filterMap scanLine := by
  obtain ⟨isPrefix, -, whole⟩ := readLines_spec grow len rest
  refine isPrefix.eq_of_length_le ?_
  rw [whole.mp complete]
  exact List.length_filterMap_le _ _

theorem readFile_complete {grow : ℕ → ℕ → ℕ} {unset : ℤ} {file : List UInt8}
    (complete : (readFile grow unset (some file)).complete = true) :
    (readFile grow unset (some file)).lines = configLines unset file := by
  simp only [readFile, configLines] at complete ⊢
  cases count : (fgets 29 file).bind fun r => readLinesNb unset r.1 with
  | none =>
      rw [count] at complete
      exact absurd complete nofun
  | some linesNb =>
      simp only [count, skipLines_eq_ite] at complete ⊢
      split at complete
      · exact absurd complete nofun
      · rename_i few
        rw [if_neg few]
        by_cases within : 0 ≤ linesNb ∧ linesNb ≤ (lines file).length
        · rw [if_pos within] at complete ⊢
          exact readLines_complete complete
        · rw [if_neg within] at complete
          exact absurd complete nofun

/-- **What an accepted file is**: all of it is read, and all its lines are stored. -/
theorem accepted_iff {grow : ℕ → ℕ → ℕ} {unset : ℤ} {g g' : Globals} {file : List UInt8} :
    parseConfigfile grow unset g (some file) = .returns 0 g' ↔
      (readFile grow unset (some file)).complete = true ∧
        Storable g.portMask (configLines unset file) ∧
        g' = { g.storing (configLines unset file) with
          procConfigNb := (unmaskedLines g.portMask unset file).length } := by
  rw [parseConfigfile_eq]
  constructor
  · intro accepted
    generalize read : readFile grow unset (some file) = r at accepted ⊢
    rcases storable_or_stops g.portMask r.lines with
      storable | ⟨pre, line, post, split, storable, leaves | ⟨safe, repeats⟩⟩
    · rw [storeLines_of_storable storable] at accepted
      cases complete : r.complete with
      | true =>
          have all : r.lines = configLines unset file := by
            rw [← read] at complete ⊢
            exact readFile_complete complete
          rw [complete, if_pos rfl, all] at accepted
          obtain ⟨-, same⟩ := Outcome.returns.inj accepted
          exact ⟨rfl, all ▸ storable, same.symm⟩
      | false =>
          rw [complete, if_neg (by simp)] at accepted
          exact absurd (Outcome.returns.inj accepted).1 (by decide)
    · rw [split, storeLines_of_not_safe storable leaves] at accepted
      exact absurd accepted nofun
    · rw [split, storeLines_of_repeats storable safe repeats] at accepted
      exact absurd (Outcome.returns.inj accepted).1 (by decide)
  · rintro ⟨complete, storable, rfl⟩
    rw [readFile_complete complete, storeLines_of_storable storable, if_pos complete]
    rfl

/-! ## Small instances -/

/-- The bytes of an ASCII text. -/
def fileOf (text : String) : List UInt8 := text.toList.map fun c => UInt8.ofNat c.toNat

/-- A `getline` that begins with 120 bytes and then doubles its buffer. -/
def growTo (len n : ℕ) : ℕ := if n < len then len else max 120 (max (2 * len) (n + 1))

/-- No configuration, and a port mask. -/
def unconfigured (mask : UInt32) : Globals :=
  ⟨mask, 0, fun _ => ⟨0, 0, 0, 0, 0, 0, [], []⟩, fun _ => ⟨0, 0⟩⟩

end DdosFiltering.Config
