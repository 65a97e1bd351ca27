import DdosFiltering.Config.Echo
import DdosFiltering.Foundation.SelfDelimiting
import DdosFiltering.Master.PrintStats

/-!
# The lines of the statistics file

`write_stats` of `main.c` writes a line of comma-separated values for each configuration. A line
that does not fit the buffer ends the program; with the tables that `parse_configfile` leaves
every line fits (`writeStats_eq`). The engine of a configuration is one word, so the lines can be
told apart and read back (`statsRows_injective`).
-/

set_option autoImplicit false

namespace DdosFiltering.Master

open Config (Globals)
open Foundation

/-- `BUFSIZE`. -/
def bufsize : ℕ := 512

/-! ## One line -/

/-- What `write_stats` hands to `snprintf`. -/
structure StatsRow where
  cumulativeTsc : UInt64
  pid : ℕ
  confId : ℕ
  engine : List Char
  tx : UInt64
  rx : UInt64
  filtered : UInt64
  dropped : UInt64
deriving DecidableEq, Repr

/-- A conversion with the comma and the blank behind it. -/
def piece (text : List Char) : List Char := text ++ [',', ' ']

/-- The text of `snprintf`. -/
def StatsRow.text (r : StatsRow) : List Char :=
  piece (decimal r.cumulativeTsc.toNat) ++ (piece "app".toList ++ (piece (decimal r.pid) ++
    (piece (decimal r.confId) ++ (piece r.engine ++ (piece (decimal r.tx.toNat) ++
      (piece (decimal r.rx.toNat) ++ (piece (decimal r.filtered.toNat) ++
        (decimal r.dropped.toNat ++ ['\n']))))))))

/-- How a call of `write_stats` ends, and what it has written to the file. -/
inductive WriteStats where
  | undefined
  | exits
  | writes (text : List Char)
deriving DecidableEq, Repr

/-- A line through the buffer, which has been zeroed. `none`: the program exits, because the
buffer is too small or `fwrite` has failed. -/
def StatsRow.write (r : StatsRow) (fwrite : Bool) : Option (List Char) :=
  let retval := r.text.length
  let stored := r.text.take (bufsize - 1)
  let buffer := stored ++ List.replicate (bufsize - stored.length) '\x00'
  if retval > bufsize then none else if fwrite then some (buffer.take retval) else none

/-! ## All configurations -/

/-- What the calls of `write_stats` to `rte_zmalloc` and, for each configuration, to `fwrite`
answer. -/
structure StatsIo where
  zmalloc : Bool
  fwrite : ℕ → Bool

/-- The line of a configuration. -/
def statsRow (g : Globals) (portStatistics : ℕ → PortStatistics) (cumulativeTsc : UInt64)
    (confId : LcoreId) : StatsRow where
  cumulativeTsc := cumulativeTsc
  pid := (portStatistics confId).pid
  confId := confId
  engine := (g.procConfig confId).engine
  tx := (portStatistics confId).counters.tx
  rx := (portStatistics confId).counters.rx
  filtered := (portStatistics confId).counters.filtered
  dropped := (portStatistics confId).counters.dropped

/-- The loop of `write_stats`. `proc_config` has an entry for each lcore. -/
def writeRows (g : Globals) (portStatistics : ℕ → PortStatistics) (io : StatsIo)
    (cumulativeTsc : UInt64) (written : List Char) : List ℕ → WriteStats
  | [] => .writes written
  | confId :: confIds =>
      if inside : confId < rteMaxLcore then
        let row := statsRow g portStatistics cumulativeTsc ⟨confId, inside⟩
        match row.write (io.fwrite confId) with
        | none => .exits
        | some text => writeRows g portStatistics io cumulativeTsc (written ++ text) confIds
      else
        .undefined

/-- `write_stats`. -/
def writeStats (g : Globals) (portStatistics : ℕ → PortStatistics) (io : StatsIo)
    (cumulativeTsc : UInt64) : WriteStats :=
  if io.zmalloc then
    writeRows g portStatistics io cumulativeTsc [] (List.range g.procConfigNb.toNat)
  else
    .exits

/-! ## Every line fits -/

theorem length_decimal_uint64 (x : UInt64) : (decimal x.toNat).length ≤ 20 :=
  length_decimal_le (by decide) (x.toNat_lt.trans (by decide))

/-- The parts of a line that are not bounded by their type are short. -/
structure StatsRow.Short (r : StatsRow) : Prop where
  pid : r.pid < 2 ^ 31
  confId : r.confId < rteMaxLcore
  engine : r.engine.length < Config.configMaxEngineLen

theorem StatsRow.Short.length_text_lt {r : StatsRow} (short : r.Short) :
    r.text.length < bufsize := by
  have cumulativeTsc := length_decimal_uint64 r.cumulativeTsc
  have pid : (decimal r.pid).length ≤ 10 :=
    length_decimal_le (by decide) (short.pid.trans (by decide))
  have confId : (decimal r.confId).length ≤ 3 :=
    length_decimal_le (by decide) (short.confId.trans (by decide))
  have engine : r.engine.length < 64 := short.engine
  have tx := length_decimal_uint64 r.tx
  have rx := length_decimal_uint64 r.rx
  have filtered := length_decimal_uint64 r.filtered
  have dropped := length_decimal_uint64 r.dropped
  have app : "app".toList.length = 3 := rfl
  simp only [StatsRow.text, piece, List.length_append, List.length_cons, List.length_nil, app,
    bufsize]
  omega

/-- A line that is shorter than the buffer goes to the file as it is. -/
theorem StatsRow.write_true {r : StatsRow} (fits : r.text.length < bufsize) :
    r.write true = some r.text := by
  have whole : r.text.take (bufsize - 1) = r.text :=
    List.take_of_length_le (Nat.le_sub_one_of_lt fits)
  simp only [StatsRow.write, if_neg (not_lt_of_ge fits.le), if_pos, whole, List.take_left]

theorem StatsRow.write_false {r : StatsRow} (fits : r.text.length < bufsize) :
    r.write false = none := by
  rw [StatsRow.write, if_neg (not_lt_of_ge fits.le)]
  rfl

/-! ## The tables that the parser leaves -/

/-- The entries that are enabled. -/
def enabledIds (g : Globals) : Finset LcoreId :=
  Finset.univ.filter fun c => (g.procConfig c).enabled ≠ 0

theorem mem_enabledIds {g : Globals} {c : LcoreId} :
    c ∈ enabledIds g ↔ (g.procConfig c).enabled ≠ 0 := by
  simp [enabledIds]

theorem card_enabledIds_le (g : Globals) : (enabledIds g).card ≤ rteMaxLcore :=
  (Finset.card_le_univ _).trans_eq (Fintype.card_fin _)

/-- A line enables one entry more. -/
theorem card_enabledIds_enable {g : Globals} {c : LcoreId} (unused : (g.procConfig c).enabled = 0)
    (rx tx : Fin Config.rteMaxEthports) (line : Config.ConfigLine) :
    (enabledIds (g.enable c rx tx line)).card = (enabledIds g).card + 1 := by
  have notEnabled : c ∉ enabledIds g := by simp [mem_enabledIds, unused]
  rw [← Finset.card_insert_of_notMem notEnabled]
  congr 1
  ext c'
  by_cases same : c' = c
  · subst same
    simp [mem_enabledIds, Globals.enable]
  · simp [mem_enabledIds, Globals.enable, same]

/-- The engine of every entry is one word that fits its array. -/
def EngineWords (g : Globals) : Prop :=
  ∀ c, (g.procConfig c).engine.length < Config.configMaxEngineLen ∧
    ∀ ch ∈ (g.procConfig c).engine, isspace ch = false

theorem EngineWords.enable {g : Globals} (engines : EngineWords g) (c : LcoreId)
    (rx tx : Fin Config.rteMaxEthports) {line : Config.ConfigLine}
    (short : line.engine.length < Config.configMaxEngineLen)
    (word : ∀ ch ∈ line.engine, isspace ch = false) :
    EngineWords (g.enable c rx tx line) := by
  intro c'
  by_cases same : c' = c
  · subst same
    simpa [Globals.enable] using And.intro short word
  · simpa [Globals.enable, same] using engines c'

/-- What `write_stats` needs of the tables. -/
structure Printable (g : Globals) : Prop where
  engines : EngineWords g
  procConfigNb : g.procConfigNb ≤ rteMaxLcore

/-- The loop of the parser, by induction on the lines: as many entries are enabled as have been
counted. -/
theorem Printable.parseLines {grow : ℕ → ℕ → ℕ} {rest : List (List UInt8)} {g g' : Globals}
    {nb ret : ℤ} {len : ℕ} (engines : EngineWords g) (counted : nb = (enabledIds g).card)
    (before : g.procConfigNb ≤ rteMaxLcore)
    (returned : Config.parseLines grow g nb len rest = .returns ret g') : Printable g' := by
  induction rest generalizing g nb len with
  | nil =>
      obtain ⟨-, rfl⟩ := Config.Outcome.returns.inj returned
      exact ⟨engines, counted ▸ Int.ofNat_le.mpr (card_enabledIds_le g)⟩
  | cons bytes rest inductionHypothesis =>
      have failed {g' : Globals} (fails : Config.Outcome.returns (-1) g = .returns ret g') :
          Printable g' := by
        obtain ⟨-, rfl⟩ := Config.Outcome.returns.inj fails
        exact ⟨engines, before⟩
      rw [Config.parseLines] at returned
      split at returned
      · exact failed returned
      split at returned
      · exact failed returned
      rename_i line scanned
      split at returned
      · cases returned
      rename_i short
      split at returned
      · rename_i ports
        split at returned
        · exact inductionHypothesis engines counted before returned
        split at returned
        · rename_i inside
          dsimp only at returned
          split at returned
          · rename_i unused
            refine inductionHypothesis (engines.enable _ _ _ ?_ ?_) ?_ ?_ returned
            · exact not_le.mp fun long => short (.inl long)
            · exact fun ch member => ((Config.scanned_of_scanLine scanned).engine ch member).1
            · rw [card_enabledIds_enable unused, counted, Nat.cast_add, Nat.cast_one]
            · exact before
          · exact failed returned
        · cases returned
      · cases returned

/-- **What `parse_configfile` leaves is printable**, also when it fails on the way. -/
theorem Printable.parseConfigfile {grow : ℕ → ℕ → ℕ} {unset : ℤ} {g g' : Globals} {ret : ℤ}
    {file : Option (List UInt8)} (printable : Printable g)
    (returned : Config.parseConfigfile grow unset g file = .returns ret g') : Printable g' := by
  have engines : EngineWords g.zeroProcConfig := by
    intro c
    exact ⟨Nat.succ_pos 63, List.forall_mem_nil _⟩
  have none : (enabledIds g.zeroProcConfig).card = 0 := by
    simp [enabledIds, Globals.zeroProcConfig]
  have failed {g' : Globals}
      (fails : Config.Outcome.returns (-1) g.zeroProcConfig = .returns ret g') :
      Printable g' := by
    obtain ⟨-, rfl⟩ := Config.Outcome.returns.inj fails
    exact ⟨engines, printable.procConfigNb⟩
  unfold Config.parseConfigfile at returned
  dsimp only at returned
  split at returned
  · exact failed returned
  split at returned
  · exact failed returned
  split at returned
  · exact failed returned
  split at returned
  · exact failed returned
  split at returned
  · exact failed returned
  · exact .parseLines engines (by rw [none]; rfl) printable.procConfigNb returned

/-! ## What is written -/

/-- The lines of a report. -/
def statsRows (g : Globals) (portStatistics : ℕ → PortStatistics) (cumulativeTsc : UInt64) :
    List StatsRow :=
  ((List.finRange rteMaxLcore).take g.procConfigNb.toNat).map
    (statsRow g portStatistics cumulativeTsc)

/-- The calls of `write_stats` succeed. -/
def StatsIo.succeeds (io : StatsIo) (procConfigNb : ℤ) : Bool :=
  io.zmalloc && (List.range procConfigNb.toNat).all io.fwrite

theorem Printable.short {g : Globals} (printable : Printable g)
    (portStatistics : ℕ → PortStatistics) (cumulativeTsc : UInt64) (c : LcoreId) :
    (statsRow g portStatistics cumulativeTsc c).Short where
  pid := (portStatistics c).pid_lt
  confId := c.isLt
  engine := (printable.engines c).1

/-- The loop from some configuration on, by induction on how many are left. -/
theorem writeRows_eq {g : Globals} (printable : Printable g)
    (portStatistics : ℕ → PortStatistics) (io : StatsIo) (cumulativeTsc : UInt64)
    (confIds : List LcoreId) (written : List Char) :
    writeRows g portStatistics io cumulativeTsc written (confIds.map Fin.val) =
      if (confIds.map Fin.val).all io.fwrite then
        .writes (written ++
          (confIds.map (statsRow g portStatistics cumulativeTsc)).flatMap StatsRow.text)
      else
        .exits := by
  induction confIds generalizing written with
  | nil => simp [writeRows]
  | cons c confIds inductionHypothesis =>
      have fits := (printable.short portStatistics cumulativeTsc c).length_text_lt
      rw [List.map_cons, writeRows, dif_pos c.isLt]
      cases answer : io.fwrite c with
      | false =>
          simp only [Fin.eta, answer, StatsRow.write_false fits, List.all_cons, Bool.false_and,
            Bool.false_eq_true, if_false]
      | true =>
          simp only [Fin.eta, answer, StatsRow.write_true fits, inductionHypothesis,
            List.all_cons, Bool.true_and, List.map_cons, List.flatMap_cons, List.append_assoc]

/-- **`write_stats` writes a line for each configuration**, unless a call fails: it never exits
because of the buffer, and never leaves the table. -/
theorem writeStats_eq {g : Globals} (printable : Printable g)
    (portStatistics : ℕ → PortStatistics) (io : StatsIo) (cumulativeTsc : UInt64) :
    writeStats g portStatistics io cumulativeTsc =
      if io.succeeds g.procConfigNb then
        .writes ((statsRows g portStatistics cumulativeTsc).flatMap StatsRow.text)
      else
        .exits := by
  have ids : List.range g.procConfigNb.toNat =
      ((List.finRange rteMaxLcore).take g.procConfigNb.toNat).map Fin.val := by
    have few : g.procConfigNb.toNat ≤ rteMaxLcore := Int.toNat_le.mpr printable.procConfigNb
    rw [List.map_take, List.map_coe_finRange_eq_range, List.take_range, Nat.min_eq_left few]
  rw [writeStats, StatsIo.succeeds, ids, writeRows_eq printable]
  cases io.zmalloc with
  | false => rfl
  | true => rw [if_pos rfl, Bool.true_and, List.nil_append, statsRows]

/-! ## The lines can be read back -/

/-- A word with the comma and the blank behind it. -/
theorem piece_delimits : SelfDelimiting (fun word : List Char => ' ' ∉ word) piece := by
  intro a b back back' noBlank noBlank' same
  have ended (word : List Char) (noBlank : ' ' ∉ word) : ' ' ∉ word ++ [','] := by
    simpa using noBlank
  have split (word back : List Char) : piece word ++ back = word ++ [','] ++ [' '] ++ back := by
    simp [piece]
  rw [split, split] at same
  obtain ⟨equal, rest⟩ := SelfDelimiting.ended ' ' _ _ back back' (ended a noBlank)
    (ended b noBlank') same
  exact ⟨List.append_cancel_right equal, rest⟩

/-- A number with the comma and the blank behind it. -/
theorem number_delimits : SelfDelimiting (fun _ : ℕ => True) fun n => piece (decimal n) := by
  intro m n back back' _ _ same
  obtain ⟨equal, rest⟩ := piece_delimits (decimal m) (decimal n) back back'
    (not_mem_decimal rfl) (not_mem_decimal rfl) same
  exact ⟨decimal_injective equal, rest⟩

/-- A line whose engine is one word tells where it ends. -/
theorem StatsRow.text_delimits :
    SelfDelimiting (fun r : StatsRow => ' ' ∉ r.engine) StatsRow.text := by
  intro a b back back' word word' same
  simp only [StatsRow.text, List.append_assoc] at same
  obtain ⟨cumulativeTsc, same⟩ := number_delimits _ _ _ _ trivial trivial same
  obtain ⟨-, same⟩ := piece_delimits _ _ _ _ (by decide) (by decide) same
  obtain ⟨pid, same⟩ := number_delimits _ _ _ _ trivial trivial same
  obtain ⟨confId, same⟩ := number_delimits _ _ _ _ trivial trivial same
  obtain ⟨engine, same⟩ := piece_delimits _ _ _ _ word word' same
  obtain ⟨tx, same⟩ := number_delimits _ _ _ _ trivial trivial same
  obtain ⟨rx, same⟩ := number_delimits _ _ _ _ trivial trivial same
  obtain ⟨filtered, same⟩ := number_delimits _ _ _ _ trivial trivial same
  rw [← List.append_assoc, ← List.append_assoc] at same
  obtain ⟨dropped, rest⟩ := SelfDelimiting.ended '\n' _ _ _ _ (not_mem_decimal rfl)
    (not_mem_decimal rfl) same
  refine ⟨?_, rest⟩
  cases a
  cases b
  simp only [UInt64.toNat_inj] at cumulativeTsc tx rx filtered
  have dropped := UInt64.toNat_inj.mp (decimal_injective dropped)
  simp_all

/-- **The lines of the file can be read back**: files with the same text have the same lines. -/
theorem statsRows_injective {rows rows' : List StatsRow}
    (words : ∀ r ∈ rows, ' ' ∉ r.engine) (words' : ∀ r ∈ rows', ' ' ∉ r.engine)
    (same : rows.flatMap StatsRow.text = rows'.flatMap StatsRow.text) : rows = rows' := by
  refine StatsRow.text_delimits.flatMap_injective ?_ words words' same
  intro r empty
  have long := congrArg List.length empty
  simp [StatsRow.text, piece] at long

end DdosFiltering.Master
