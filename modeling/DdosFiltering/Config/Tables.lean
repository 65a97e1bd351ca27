import DdosFiltering.Config.Lines
import Mathlib.Data.Finset.Card
import Mathlib.Data.Fintype.Basic
import Mathlib.Data.UInt

/-!
# The tables that a configuration leaves

Every line that is stored fills the entry with its id, and adds one to the number of receive
queues of one port and to the number of transmit queues of another. So after an accepted file the
enabled entries are the lines whose ports are in the mask, and the numbers of queues count them
(`table_is_the_file`).
-/

set_option autoImplicit false

namespace DdosFiltering.Config

/-! ## One line -/

/-- Packets are received from one port, and sent to another. -/
inductive Direction where
  | rx
  | tx
deriving DecidableEq, Repr

namespace Direction

/-- The port of a line. -/
def port : Direction → ConfigLine → UInt32
  | rx => ConfigLine.pRx
  | tx => ConfigLine.pTx

/-- The queue of a line. -/
def queue : Direction → ConfigLine → UInt32
  | rx => ConfigLine.qRx
  | tx => ConfigLine.qTx

/-- The port of an entry. -/
def portOf : Direction → ProcConfig → UInt8
  | rx => ProcConfig.portRx
  | tx => ProcConfig.portTx

/-- The queue of an entry. -/
def queueOf : Direction → ProcConfig → UInt8
  | rx => ProcConfig.queueRx
  | tx => ProcConfig.queueTx

/-- The number of queues of a port. -/
def queueNb : Direction → PortQueueConf → UInt16
  | rx => PortQueueConf.queueRxNb
  | tx => PortQueueConf.queueTxNb

end Direction

/-- The entry of a line. -/
def ConfigLine.entry (line : ConfigLine) : ProcConfig where
  enabled := 1
  used := 0
  portRx := line.pRx.toUInt8
  portTx := line.pTx.toUInt8
  queueRx := line.qRx.toUInt8
  queueTx := line.qTx.toUInt8
  engine := line.engine
  args := line.args

theorem enable_portQueueConf (g : Globals) (c : LcoreId) (rx tx p : Fin rteMaxEthports)
    (line : ConfigLine) :
    (g.enable c rx tx line).portQueueConf p =
      ⟨(g.portQueueConf p).queueRxNb + if p = rx then 1 else 0,
        (g.portQueueConf p).queueTxNb + if p = tx then 1 else 0⟩ := by
  by_cases receives : p = rx
  · subst receives
    by_cases sends : p = tx
    · subst sends
      simp [Globals.enable]
    · simp [Globals.enable, sends]
  · by_cases sends : p = tx
    · subst sends
      simp [Globals.enable, receives]
    · simp [Globals.enable, receives, sends]

/-- The number of queues of the ports of the line grows by one. -/
theorem enableLine_queueNb {mask : UInt32} {line : ConfigLine} (safe : line.Safe mask)
    (unmasked : line.unmasked mask = true) (d : Direction) (g : Globals)
    (p : Fin rteMaxEthports) :
    d.queueNb ((g.enableLine line).portQueueConf p) =
      d.queueNb (g.portQueueConf p) + if (d.port line).toNat = p.val then 1 else 0 := by
  obtain ⟨c, rx, tx, configId, pRx, pTx⟩ := safe.place unmasked
  rw [Globals.enableLine_eq configId pRx pTx, enable_portQueueConf]
  cases d with
  | rx => simp only [Direction.queueNb, Direction.port, pRx, Fin.val_inj, eq_comm]
  | tx => simp only [Direction.queueNb, Direction.port, pTx, Fin.val_inj, eq_comm]

/-- An entry that no line has filled. -/
def ProcConfig.blank : ProcConfig := ⟨0, 0, 0, 0, 0, 0, [], []⟩

theorem enable_procConfig {g : Globals} {c : LcoreId} (blank : g.procConfig c = .blank)
    (rx tx : Fin rteMaxEthports) (line : ConfigLine) :
    (g.enable c rx tx line).procConfig = Function.update g.procConfig c line.entry := by
  unfold Globals.enable
  rw [blank]
  rfl

/-! ## All lines -/

/-- The enabled entries that use a port. -/
def Globals.users (g : Globals) (d : Direction) (p : Fin rteMaxEthports) : Finset LcoreId :=
  Finset.univ.filter fun c =>
    (g.procConfig c).enabled ≠ 0 ∧ (d.portOf (g.procConfig c)).toNat = p.val

/-- The number of lines that use a port. -/
def usersAmong (d : Direction) (p : Fin rteMaxEthports) (ls : List ConfigLine) : ℕ :=
  ls.countP fun line => (d.port line).toNat = p.val

/-- The tables hold the lines `kept`, and nothing else. The numbers of queues have grown from
those of `g₀`. -/
structure Tabulates (g₀ g : Globals) (kept : List ConfigLine) : Prop where
  entry : ∀ line ∈ kept, ∃ c : LcoreId, line.configId = c.val ∧ g.procConfig c = line.entry
  blank : ∀ c : LcoreId, (∀ line ∈ kept, line.configId ≠ c.val) → g.procConfig c = .blank
  queueNb : ∀ (d : Direction) p, d.queueNb (g.portQueueConf p) =
    d.queueNb (g₀.portQueueConf p) + UInt16.ofNat (usersAmong d p kept)
  users : ∀ (d : Direction) p, (g.users d p).card = usersAmong d p kept

theorem usersAmong_concat (d : Direction) (p : Fin rteMaxEthports) (ls : List ConfigLine)
    (line : ConfigLine) :
    usersAmong d p (ls ++ [line]) =
      usersAmong d p ls + if (d.port line).toNat = p.val then 1 else 0 := by
  simp [usersAmong, List.countP_append, List.countP_singleton]

theorem ConfigLine.Safe.port {mask : UInt32} {line : ConfigLine} (safe : line.Safe mask)
    (d : Direction) : (d.port line).toNat < rteMaxEthports := by
  cases d with
  | rx => exact safe.pRx
  | tx => exact safe.pTx

/-- A port that is in the table fits the entry. -/
theorem portOf_entry {line : ConfigLine} {d : Direction}
    (small : (d.port line).toNat < rteMaxEthports) :
    (d.portOf line.entry).toNat = (d.port line).toNat := by
  have fits : (d.port line).toNat < 2 ^ 8 := small.trans (by decide)
  cases d with
  | rx => exact (UInt32.toNat_toUInt8 _).trans (Nat.mod_eq_of_lt fits)
  | tx => exact (UInt32.toNat_toUInt8 _).trans (Nat.mod_eq_of_lt fits)

section Tabulate

variable {g₀ g : Globals} {kept : List ConfigLine} {mask : UInt32} {line : ConfigLine}

/-- An entry that is enabled counts for its ports. -/
theorem users_update {c : LcoreId} (blank : g.procConfig c = .blank) (safe : line.Safe mask)
    {g' : Globals} (filled : g'.procConfig = Function.update g.procConfig c line.entry)
    (d : Direction) (p : Fin rteMaxEthports) :
    (g'.users d p).card = (g.users d p).card + if (d.port line).toNat = p.val then 1 else 0 := by
  have notUser : c ∉ g.users d p := by simp [Globals.users, blank, ProcConfig.blank]
  have others (c' : LcoreId) (different : c' ≠ c) : c' ∈ g'.users d p ↔ c' ∈ g.users d p := by
    simp [Globals.users, filled, different]
  have here : c ∈ g'.users d p ↔ (d.port line).toNat = p.val := by
    rw [← portOf_entry (safe.port d)]
    simp [Globals.users, filled, ConfigLine.entry]
  by_cases uses : (d.port line).toNat = p.val
  · rw [if_pos uses, ← Finset.card_insert_of_notMem notUser]
    congr 1
    ext c'
    by_cases same : c' = c
    · subst same
      simp [here, uses]
    · simp [others c' same, same]
  · rw [if_neg uses, add_zero]
    congr 1
    ext c'
    by_cases same : c' = c
    · subst same
      simp [here, uses, notUser]
    · exact others c' same

/-- **One more line** with an id of its own. -/
theorem Tabulates.enableLine (tables : Tabulates g₀ g kept) (safe : line.Safe mask)
    (unmasked : line.unmasked mask = true)
    (unrepeated : ∀ other ∈ kept, other.configId ≠ line.configId) :
    Tabulates g₀ (g.enableLine line) (kept ++ [line]) := by
  obtain ⟨c, rx, tx, configId, pRx, pTx⟩ := safe.place unmasked
  have blank : g.procConfig c = .blank :=
    tables.blank c fun other member => configId ▸ unrepeated other member
  have filled : (g.enableLine line).procConfig = Function.update g.procConfig c line.entry := by
    rw [Globals.enableLine_eq configId pRx pTx]
    exact enable_procConfig blank rx tx line
  constructor
  · intro other member
    rcases List.mem_append.mp member with before | last
    · obtain ⟨c', otherId, entry⟩ := tables.entry other before
      have different : c' ≠ c := by
        rintro rfl
        exact unrepeated other before (otherId.trans configId.symm)
      exact ⟨c', otherId, by rw [filled, Function.update_of_ne different, entry]⟩
    · obtain rfl := List.mem_singleton.mp last
      exact ⟨c, configId, by rw [filled, Function.update_self]⟩
  · intro c' absent
    have different : c' ≠ c := by
      rintro rfl
      exact absent line (by simp) configId
    rw [filled, Function.update_of_ne different]
    exact tables.blank c' fun other member => absent other (List.mem_append_left _ member)
  · intro d p
    rw [enableLine_queueNb safe unmasked, tables.queueNb, usersAmong_concat, add_assoc]
    split <;> simp
  · intro d p
    rw [users_update blank safe filled, tables.users, usersAmong_concat]

end Tabulate

/-- **What the stored lines leave**, by induction on the lines. -/
theorem tabulates_storing {g : Globals} {ls : List ConfigLine}
    (storable : Storable g.portMask ls) :
    Tabulates g (g.storing ls) (keptLines g.portMask ls) := by
  induction ls using List.reverseRecOn with
  | nil =>
      refine ⟨nofun, fun _ _ => rfl, fun d p => (add_zero _).symm, ?_⟩
      intro d p
      have noUsers : (g.storing []).users d p = ∅ :=
        Finset.filter_false_of_mem fun c _ enabled => enabled.1 rfl
      rw [noUsers]
      rfl
  | append_singleton ls line inductionHypothesis =>
      obtain ⟨storable, safe, unrepeated⟩ := storable_concat_iff.mp storable
      have tables := inductionHypothesis storable
      unfold Globals.storing
      rw [keptLines_append]
      cases unmasked : line.unmasked g.portMask with
      | false =>
          have none : keptLines g.portMask [line] = [] := keptLines_cons_of_masked unmasked []
          rw [none, List.append_nil]
          exact tables
      | true =>
          have one : keptLines g.portMask [line] = [line] := keptLines_cons_of_unmasked unmasked []
          rw [one, Globals.enableLines, List.foldl_append]
          apply tables.enableLine safe unmasked
          intro other member same
          exact unrepeated ⟨unmasked, other, member, same⟩

/-! ## Short lines -/

theorem length_scanInt {text rest : List Char} {n : ℤ} (scanned : scanInt text = some (n, rest)) :
    rest.length ≤ text.length := by
  have shorter : (text.dropWhile isspace).length ≤ text.length :=
    (List.dropWhile_suffix isspace).length_le
  have digits (text : List Char) : (text.dropWhile Char.isDigit).length ≤ text.length :=
    (List.dropWhile_suffix Char.isDigit).length_le
  have after : (afterInteger text).length ≤ (text.dropWhile isspace).length := by
    unfold afterInteger
    split
    · rename_i rest' signed
      rw [signed]
      exact (digits rest').trans (Nat.le_succ _)
    · rename_i rest' signed
      rw [signed]
      exact (digits rest').trans (Nat.le_succ _)
    · exact digits _
  unfold scanInt at scanned
  split at scanned
  · obtain ⟨-, rfl⟩ := Prod.mk.inj (Option.some.inj scanned)
    exact after.trans shorter
  · exact absurd scanned nofun

theorem length_scanWord {text word rest : List Char}
    (scanned : scanWord text = some (word, rest)) :
    word.length ≤ text.length ∧ rest.length ≤ text.length := by
  unfold scanWord at scanned
  have shorter : (text.dropWhile isspace).length ≤ text.length :=
    (List.dropWhile_suffix isspace).length_le
  split at scanned
  · exact absurd scanned nofun
  · rename_i rest' notEmpty
    obtain ⟨rfl, rfl⟩ := Prod.mk.inj (Option.some.inj scanned)
    exact ⟨((List.takeWhile_prefix _).length_le).trans shorter,
      ((List.dropWhile_suffix _).length_le).trans shorter⟩

/-- The words of a line are not longer than the line. -/
theorem length_args {bytes : List UInt8} {line : ConfigLine}
    (scanned : scanLine bytes = some line) :
    line.args.length ≤ bytes.length := by
  have text : (cString bytes).length ≤ bytes.length := by
    rw [cString, List.length_map]
    exact (List.takeWhile_prefix _).length_le
  simp only [scanLine, ConfigLine.scan, Option.bind_eq_bind, Option.bind_eq_some_iff] at scanned
  obtain ⟨⟨n1, t1⟩, s1, ⟨n2, t2⟩, s2, ⟨n3, t3⟩, s3, ⟨n4, t4⟩, s4, ⟨n5, t5⟩, s5, ⟨w, t6⟩, s6,
    same⟩ := scanned
  have l1 := length_scanInt s1
  have l2 := length_scanInt s2
  have l3 := length_scanInt s3
  have l4 := length_scanInt s4
  have l5 := length_scanInt s5
  have l6 := (length_scanWord s6).2
  obtain rfl := Option.some.inj same
  simp only
  split
  · rename_i args rest second
    have l7 := (length_scanWord second).1
    exact l7.trans (l6.trans (l5.trans (l4.trans (l3.trans (l2.trans (l1.trans text))))))
  · exact Nat.zero_le _

/-- `getline` begins with a buffer of 120 bytes, and needs no larger one for shorter lines. -/
def KeepsSmall (grow : ℕ → ℕ → ℕ) : Prop :=
  ∀ len n, len = 0 ∨ len = 120 → n < 120 → grow len n = 120

theorem KeepsSmall.bufferAfter {grow : ℕ → ℕ → ℕ} (small : KeepsSmall grow) {len : ℕ}
    {all : List (List UInt8)} (short : ∀ bytes ∈ all, bytes.length < 120)
    (start : len = 0 ∨ len = 120) :
    bufferAfter grow len all = 0 ∨ bufferAfter grow len all = 120 := by
  induction all generalizing len with
  | nil => exact start
  | cons bytes all inductionHypothesis =>
      obtain ⟨first, later⟩ := List.forall_mem_cons.mp short
      exact inductionHypothesis later (.inr (small len _ start first))

/-- Short lines are read until one cannot be scanned. -/
theorem readLines_of_short {grow : ℕ → ℕ → ℕ} (small : KeepsSmall grow) {len : ℕ}
    {rest : List (List UInt8)} (short : ∀ bytes ∈ rest, bytes.length < 120)
    (start : len = 0 ∨ len = 120) :
    (readLines grow len rest).complete = true ↔ ∀ bytes ∈ rest, (scanLine bytes).isSome := by
  induction rest generalizing len with
  | nil => exact iff_of_true rfl (List.forall_mem_nil _)
  | cons bytes rest inductionHypothesis =>
      obtain ⟨first, later⟩ := List.forall_mem_cons.mp short
      have next := small len _ start first
      have fits : ¬grow len bytes.length > ipcMsgSize - 1 := by
        have size : ipcMsgSize = 128 := rfl
        omega
      rw [readLines, if_neg fits, List.forall_mem_cons]
      cases scanned : scanLine bytes with
      | none => exact iff_of_false Bool.false_ne_true fun all => Bool.false_ne_true all.1
      | some line => simpa [Reading.cons] using inductionHypothesis later (.inr next)

/-! ## The file and the tables -/

/-- The numbers and the engine of the line fit the fields and arrays they are stored in. -/
structure ConfigLine.Fits (line : ConfigLine) : Prop where
  configId : 0 ≤ line.configId ∧ line.configId < rteMaxLcore
  port : ∀ d : Direction, (d.port line).toNat < rteMaxEthports
  queue : ∀ d : Direction, (d.queue line).toNat < 2 ^ 8
  engine : line.engine.length < configMaxEngineLen

/-- The entry has the ports, the queues, the engine and the arguments of the line. -/
structure Describes (line : ConfigLine) (entry : ProcConfig) : Prop where
  enabled : entry.enabled = 1
  port : ∀ d : Direction, (d.portOf entry).toNat = (d.port line).toNat
  queue : ∀ d : Direction, (d.queueOf entry).toNat = (d.queue line).toNat
  engine : entry.engine = line.engine
  args : entry.args = line.args

/-- The enabled entries are exactly the lines, and the numbers count them. -/
structure TableIs (g : Globals) (kept : List ConfigLine) : Prop where
  entry : ∀ line ∈ kept, ∃ c : LcoreId, line.configId = c.val ∧ Describes line (g.procConfig c)
  only : ∀ c : LcoreId, (g.procConfig c).enabled ≠ 0 → ∃ line ∈ kept, line.configId = c.val
  procConfigNb : g.procConfigNb = kept.length
  queueNb : ∀ (d : Direction) p, (d.queueNb (g.portQueueConf p)).toNat = (g.users d p).card

/-- The lines behind the first `h`. -/
def linesBehind (h : ℤ) (file : List UInt8) : List (List UInt8) := (lines file).drop h.toNat

/-- What the configuration file must be like: it has the lines that are skipped, at most 200,
every other line reads as a line of the configuration, and no two of these with their ports in
the mask share an id. -/
structure Acceptable (mask : UInt32) (h : ℤ) (file : List UInt8) : Prop where
  nonneg : 0 ≤ h
  few : h ≤ 200
  skipped : h ≤ (lines file).length
  scans : ∀ bytes ∈ linesBehind h file, (scanLine bytes).isSome
  distinct : (keptLines mask ((linesBehind h file).filterMap scanLine)).Pairwise
    fun a b => a.configId ≠ b.configId

/-- A line of the configuration that fits, and is short, leaves no array. -/
theorem ConfigLine.Fits.safe {line : ConfigLine} (fits : line.Fits) {bytes : List UInt8}
    (scanned : scanLine bytes = some line) (short : bytes.length < 120) (mask : UInt32) :
    line.Safe mask where
  engine := fits.engine
  args := by
    have words := length_args scanned
    have size : configMaxArgsLen = 128 := rfl
    omega
  pRx := fits.port .rx
  pTx := fits.port .tx
  configId _ := fits.configId

theorem ConfigLine.Fits.describes {line : ConfigLine} (fits : line.Fits) :
    Describes line line.entry where
  enabled := rfl
  port d := portOf_entry (fits.port d)
  queue d := by
    have small := fits.queue d
    cases d with
    | rx => exact (UInt32.toNat_toUInt8 _).trans (Nat.mod_eq_of_lt small)
    | tx => exact (UInt32.toNat_toUInt8 _).trans (Nat.mod_eq_of_lt small)
  engine := rfl
  args := rfl

/-- From 0 on, the number of queues does not wrap around. -/
theorem Tabulates.toNat_queueNb {g₀ g : Globals} {kept : List ConfigLine}
    (tables : Tabulates g₀ g kept) (zeroed : ∀ p, g₀.portQueueConf p = ⟨0, 0⟩) (d : Direction)
    (p : Fin rteMaxEthports) :
    (d.queueNb (g₀.portQueueConf p) + UInt16.ofNat (usersAmong d p kept)).toNat =
      usersAmong d p kept := by
  have users : (g.users d p).card ≤ rteMaxLcore := by
    refine (Finset.card_le_univ _).trans_eq ?_
    exact Fintype.card_fin rteMaxLcore
  have size : rteMaxLcore = 128 := rfl
  have none : d.queueNb (g₀.portQueueConf p) = 0 := by
    rw [zeroed]
    cases d <;> rfl
  rw [none, zero_add, ← tables.users, UInt16.toNat_ofNat']
  exact Nat.mod_eq_of_lt (by omega)

/-- What the stored lines leave in tables that held nothing. -/
theorem Tabulates.tableIs {g₀ g : Globals} {kept : List ConfigLine}
    (tables : Tabulates g₀ g kept) (zeroed : ∀ p, g₀.portQueueConf p = ⟨0, 0⟩)
    (fits : ∀ line ∈ kept, line.Fits) :
    TableIs { g with procConfigNb := kept.length } kept where
  entry line member := by
    obtain ⟨c, configId, entry⟩ := tables.entry line member
    exact ⟨c, configId, entry ▸ (fits line member).describes⟩
  only c enabled := by
    by_contra absent
    have blank := tables.blank c fun line member same => absent ⟨line, member, same⟩
    exact enabled (congrArg ProcConfig.enabled blank)
  procConfigNb := rfl
  queueNb d p := by
    change (d.queueNb (g.portQueueConf p)).toNat = (g.users d p).card
    rw [tables.queueNb, tables.toNat_queueNb zeroed, tables.users]

/-- **The table is exactly the file.** -/
theorem table_is_the_file {grow : ℕ → ℕ → ℕ} (small : KeepsSmall grow) (unset : ℤ) {g : Globals}
    (zeroed : ∀ p, g.portQueueConf p = ⟨0, 0⟩) {file buff rest : List UInt8} {n : ℤ}
    (first : fgets 29 file = some (buff, rest)) (number : scanInteger (cString buff) = .value n)
    (short : ∀ bytes ∈ lines file, bytes.length < 120)
    (fits : ∀ line ∈ (linesBehind (storedInt n) file).filterMap scanLine, line.Fits) :
    ∃ ret g', parseConfigfile grow unset g (some file) = .returns ret g' ∧
      (ret = 0 ↔ Acceptable g.portMask (storedInt n) file) ∧
      (ret = 0 → TableIs g'
        (keptLines g.portMask ((linesBehind (storedInt n) file).filterMap scanLine))) := by
  have count : readLinesNb unset buff = some (storedInt n) := by simp [readLinesNb, number]
  have shortBehind : ∀ bytes ∈ linesBehind (storedInt n) file, bytes.length < 120 :=
    fun bytes member => short bytes (List.mem_of_mem_drop member)
  have safe : ∀ line ∈ (linesBehind (storedInt n) file).filterMap scanLine,
      line.Safe g.portMask := by
    intro line member
    obtain ⟨bytes, inFile, scanned⟩ := List.mem_filterMap.mp member
    exact (fits line member).safe scanned (shortBehind bytes inFile) g.portMask
  have refused {ret : ℤ} {g' : Globals} (isRefused : ret = -1)
      (notAcceptable : ¬Acceptable g.portMask (storedInt n) file) :
      (ret = 0 ↔ Acceptable g.portMask (storedInt n) file) ∧
        (ret = 0 → TableIs g'
          (keptLines g.portMask ((linesBehind (storedInt n) file).filterMap scanLine))) :=
    ⟨iff_of_false (by omega) notAcceptable, fun accepted => by omega⟩
  rw [parseConfigfile_eq, readFile_eq_ite grow first count]
  by_cases within : 0 ≤ storedInt n ∧ storedInt n ≤ 200 ∧ storedInt n ≤ (lines file).length
  · rw [if_pos within]
    have shortBefore : ∀ bytes ∈ (lines file).take (storedInt n).toNat, bytes.length < 120 :=
      fun bytes member => short bytes (List.mem_of_mem_take member)
    have buffer := small.bufferAfter shortBefore (.inl rfl)
    rw [← linesBehind]
    generalize bufferAfter grow 0 ((lines file).take (storedInt n).toNat) = len at buffer ⊢
    have whole := readLines_of_short small shortBehind buffer
    obtain ⟨isPrefix, -, -⟩ := readLines_spec grow len (linesBehind (storedInt n) file)
    have all := @readLines_complete grow len (linesBehind (storedInt n) file)
    generalize readLines grow len (linesBehind (storedInt n) file) = r at *
    have readSafe : ∀ line ∈ r.lines, line.Safe g.portMask :=
      fun line member => safe line (isPrefix.subset member)
    rcases storable_or_stops g.portMask r.lines with
      storable | ⟨pre, line, post, split, storable, leaves | ⟨lineSafe, repeats⟩⟩
    · rw [storeLines_of_storable storable]
      cases complete : r.complete with
      | true =>
          have allLines := all complete
          refine ⟨0, _, rfl, iff_of_true rfl ?_, ?_⟩
          · exact ⟨within.1, within.2.1, within.2.2, whole.mp complete,
              allLines ▸ storable.distinct⟩
          · intro _
            rw [← allLines] at fits ⊢
            exact (tabulates_storing storable).tableIs zeroed
              fun line member => fits line (List.mem_of_mem_filter member)
      | false =>
          refine ⟨-1, _, rfl, refused rfl ?_⟩
          intro acceptable
          exact absurd (whole.mpr acceptable.scans) (by simp [complete])
    · exact absurd (readSafe line (by simp [split])) leaves
    · rw [split, storeLines_of_repeats storable lineSafe repeats]
      refine ⟨-1, _, rfl, refused rfl ?_⟩
      intro acceptable
      apply repeats.not_distinct post
      rw [← split, all (whole.mpr acceptable.scans)]
      exact acceptable.distinct
  · rw [if_neg within]
    refine ⟨-1, g.zeroProcConfig, rfl, refused rfl ?_⟩
    intro acceptable
    apply within
    exact ⟨acceptable.nonneg, acceptable.few, acceptable.skipped⟩

theorem growTo_keepsSmall : KeepsSmall growTo := by
  intro len n start short
  unfold growTo
  rcases start with rfl | rfl
  · rw [if_neg (Nat.not_lt_zero n)]
    omega
  · exact if_pos short

/-- A file of three lines, of which the second one receives from port 2. -/
def threeLines : List UInt8 :=
  fileOf "1\n0 0 1 0 0 HASH 4\n5 2 0 0 0 MODULO 3\n1 1 0 1 0 DEFAULT\n"

/-- The lines whose ports are 0 and 1. -/
def keptOfThree : List ConfigLine :=
  [⟨0, 0, 1, 0, 0, "HASH".toList, "4".toList⟩, ⟨1, 1, 0, 1, 0, "DEFAULT".toList, []⟩]

/-- With the port mask 3, the table is the first line and the third one. -/
theorem table_is_the_file_threeLines :
    ∃ g', parseConfigfile growTo 0 (unconfigured 3) (some threeLines) = .returns 0 g' ∧
      TableIs g' keptOfThree := by
  have first : fgets 29 threeLines = some (fileOf "1\n",
      fileOf "0 0 1 0 0 HASH 4\n5 2 0 0 0 MODULO 3\n1 1 0 1 0 DEFAULT\n") := by rfl
  have number : scanInteger (cString (fileOf "1\n")) = .value 1 := by rfl
  have behind : (linesBehind (storedInt 1) threeLines).filterMap scanLine =
      [⟨0, 0, 1, 0, 0, "HASH".toList, "4".toList⟩, ⟨5, 2, 0, 0, 0, "MODULO".toList, "3".toList⟩,
        ⟨1, 1, 0, 1, 0, "DEFAULT".toList, []⟩] := by rfl
  have fits : ∀ line ∈ (linesBehind (storedInt 1) threeLines).filterMap scanLine, line.Fits := by
    rw [behind]
    intro line member
    simp only [List.mem_cons, List.not_mem_nil, or_false] at member
    rcases member with rfl | rfl | rfl <;>
      exact ⟨by decide, fun d => by cases d <;> decide, fun d => by cases d <;> decide, by decide⟩
  have kept : keptLines 3 ((linesBehind (storedInt 1) threeLines).filterMap scanLine) =
      keptOfThree := by
    rw [behind]
    rfl
  obtain ⟨ret, g', parsed, accepted, table⟩ := table_is_the_file growTo_keepsSmall 0
    (g := unconfigured 3) (fun _ => rfl) first number (by decide) fits
  have distinct : keptOfThree.Pairwise fun a b => a.configId ≠ b.configId := by decide
  obtain rfl : ret = 0 := accepted.mpr
    ⟨by decide, by decide, by decide, by decide +kernel, kept.symm ▸ distinct⟩
  exact ⟨g', parsed, kept ▸ table rfl⟩

end DdosFiltering.Config
