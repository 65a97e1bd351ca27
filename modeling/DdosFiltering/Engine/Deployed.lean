import DdosFiltering.Engine.HashVerdicts
import DdosFiltering.Engine.Initialisers

/-!
# What leaves a slave that runs the hash engine

The whole way of a slave whose configuration names `HASH`, from `bridge_init_engine` over the
file to the packets that the NIC has accepted. When the file begins with a number, the packets of
the rules are stopped, but for those of one rule at most: the one whose key `rte_hash` has put at
position 0 (`hash_leaks_one_rule`). When `init_hash` fails, `bridge_init_engine` enters the
loop all the same, the lookups get a null table, and every packet passes
(`failed_hash_passes_everything`).
-/

set_option autoImplicit false

namespace DdosFiltering.Engine

open Datapath Foundation

variable {Table Prog : Type} {position : Table → M128i → Option ℕ}
  {env : SlaveEnvironment Table Prog} {g g' : EngineStatics Table Prog} {args : List Char}

theorem bridgeInitEngine_hash (env : SlaveEnvironment Table Prog) (g : EngineStatics Table Prog)
    (args : List Char) :
    bridgeInitEngine env g "HASH".toList args =
      (initHashCall env args g).enters .bridgeLoopOptimized := rfl

/-! ## A table that is filled -/

/-- A slave that has entered the loop behind a file with a number has its table. -/
theorem loaded_of_enters (clean : g.hash = .initial) (begins : BeginsWithLine (env.files args))
    (started : bridgeInitEngine env g "HASH".toList args = .enters .bridgeLoopOptimized g') :
    ∃ h, Loaded env.lib env.socketId (insertedKeys g'.hash.hashEntryNumber) h g'.hash := by
  have succeeds : (initHashCall env args g).Succeeds := initHashCall_succeeds begins
  rw [bridgeInitEngine_hash] at started
  unfold initHashCall at started succeeds
  rw [clean] at started succeeds
  cases called : initHash env.lib (env.files args) env.keysNb env.confId env.socketId
      HashState.initial with
  | none =>
      rw [called] at started
      cases started
  | some result =>
      obtain ⟨ret, hash⟩ := result
      rw [called] at started succeeds
      obtain rfl : ret = 0 := InitCall.succeeds_returns.mp succeeds
      cases started
      exact initHash_loaded called

/-- A packet that is stopped: its key is that of a rule, other than the one that leaks, and it is
looked up alone or in the table of socket 0. -/
def Stopped (keys : List M128i) (leak : Option M128i) (socketId : Fin nbSockets)
    (lookup : RteMbuf × Bool) : Prop :=
  packetKey lookup.1 ∈ keys ∧ some (packetKey lookup.1) ≠ leak ∧
    (lookup.2 = true → socketId = 0)

instance (keys : List M128i) (leak : Option M128i) (socketId : Fin nbSockets)
    (lookup : RteMbuf × Bool) : Decidable (Stopped keys leak socketId lookup) := by
  unfold Stopped
  infer_instance

/-- The key at position 0 of a table. -/
theorem Loaded.exists_leak {lib : RteHash Table} {socketId : Fin nbSockets} {keys : List M128i}
    {h : Table} {hash : HashState Table} (loaded : Loaded lib socketId keys h hash)
    (documented : lib.Documented position) :
    ∃ leak : Option M128i, ∀ k, position h k = some 0 ↔ some k = leak := by
  by_cases held : ∃ k, position h k = some 0
  · obtain ⟨k₀, first⟩ := held
    refine ⟨some k₀, fun k => ⟨fun second => ?_, fun same => ?_⟩⟩
    · exact congrArg some (loaded.passing_rule_unique documented second first)
    · obtain rfl := Option.some.inj same
      exact first
  · refine ⟨none, fun k => iff_of_false (fun first => held ⟨k, first⟩) ?_⟩
    exact Option.some_ne_none k

theorem Loaded.lookupVerdict_eq {lib : RteHash Table} {socketId : Fin nbSockets}
    {keys : List M128i} {h : Table} {hash : HashState Table}
    (loaded : Loaded lib socketId keys h hash) (documented : lib.Documented position)
    {leak : Option M128i} (leaks : ∀ k, position h k = some 0 ↔ some k = leak)
    (j : RteMbuf × Bool) :
    lookupVerdict position socketId h keyMask j = decide (Stopped keys leak socketId j) := by
  rw [Bool.eq_iff_iff, decide_eq_true_iff, loaded.lookupVerdict_iff documented, Stopped]
  exact and_congr_right' (and_congr_left' (not_congr (leaks _)))

/-- **The deployed hash engine lets the packets of one rule through, at most.** Behind a call of
`bridge_init_engine` that finds a number in the file, there is at most one rule that leaks, the one
whose key is at position 0 of the table: in every run of the loop, on any bursts and with any NIC,
the packets of all other rules are filtered, but for those that are looked up in a group on
another socket than 0. No other packet is filtered, and the NIC gets only packets that are not, in
the order of reception. -/
theorem hash_leaks_one_rule (documented : env.lib.Documented position)
    (clean : g.hash = .initial) (begins : BeginsWithLine (env.files args))
    (started : bridgeInitEngine env g "HASH".toList args = .enters .bridgeLoopOptimized g') :
    ∃ (h : Table) (leak : Option M128i), g'.hash.lookupStruct = some h ∧
      (∀ k, position h k = some 0 ↔ some k = leak) ∧
      ∀ (driver : TxDriver) (tscHz : UInt64) {s₀ : State (HashState Table)},
      s₀.Fresh → s₀.engine = g'.hash → ∀ inputs : List BridgeOptimized.Input, ∃ status s,
        BridgeOptimized.bridgeLoopOptimized driver (hashPktFilter4 env.lib)
          (hashPktFilter env.lib) tscHz s₀ inputs = some (status, s) ∧
        s.filteredPkts = ((lookupsOf inputs).filter fun j =>
          Stopped (insertedKeys g'.hash.hashEntryNumber) leak env.socketId j).map Prod.fst ∧
        s.accepted.Sublist (((lookupsOf inputs).filter fun j =>
          ¬Stopped (insertedKeys g'.hash.hashEntryNumber) leak env.socketId j).map Prod.fst) := by
  obtain ⟨h, loaded⟩ := loaded_of_enters clean begins started
  obtain ⟨leak, leaks⟩ := loaded.exists_leak documented
  refine ⟨h, leak, loaded.lookupStruct, leaks, fun driver tscHz s₀ fresh engine inputs => ?_⟩
  obtain ⟨status, s, run, boundary⟩ := BridgeOptimized.bridgeLoopOptimized_boundary
    (.fresh fresh) driver (hashPktFilter4 env.lib) (hashPktFilter env.lib) tscHz inputs
  rw [List.nil_append, engine, loaded.verdicts_eq documented.toLooksUp, loaded.mask0] at boundary
  simp only [loaded.lookupVerdict_eq documented leaks] at boundary
  refine ⟨status, s, run, ?_, ?_⟩
  · rw [boundary.filteredPkts_eq, matched, List.filter_map, List.map_map]
    rfl
  · have order := (List.sublist_append_left _ _).trans boundary.order
    rw [letPass, List.filter_map, List.map_map] at order
    simpa [Function.comp_def] using order

/-- A slave on socket 0. Its file has the default number of keys, under the name "rules", and no
other file can be opened. -/
def rulesSlave : SlaveEnvironment (List M128i) Unit where
  files name := if name = "rules".toList then some [52, newline] else none
  lib := listHash
  bpf := ⟨fun _ => none, fun _ => some ()⟩
  strings := ⟨id, fun _ => true, fun _ _ => true, false⟩
  keysNb := 0
  linesNb := 0
  confId := 0
  socketId := 0

/-- The static variables of a slave before it starts its engine. -/
def noEngine : EngineStatics (List M128i) Unit := ⟨.initial, none, .empty, 0⟩

/-- Packets of the first rule, which leaks, and behind them a burst with packets of the second one
and of none. -/
theorem hash_leaks_one_rule_twoBursts :
    ∃ status s,
      BridgeOptimized.bridgeLoopOptimized ⟨fun _ pkts => pkts.length, fun _ _ => Nat.le_refl _⟩
        (hashPktFilter4 listHash) (hashPktFilter listHash) 1000000 (State.initial (fourRules 0))
        [⟨0, none, ⟨[firstRule, firstRule], by decide⟩⟩,
          ⟨1, none, ⟨mixedBurst, mixedBurst_length_le⟩⟩] = some (status, s) ∧
      s.filteredPkts = [secondRule, secondRule, secondRule] := by
  have begins : BeginsWithLine (rulesSlave.files "rules".toList) :=
    ⟨[52, newline], [], rfl, by decide⟩
  have started : bridgeInitEngine rulesSlave noEngine "HASH".toList "rules".toList =
      .enters .bridgeLoopOptimized { noEngine with hash := fourRules 0 } := by
    rw [bridgeInitEngine_hash]
    rfl
  obtain ⟨h, leak, installed, leaks, filters⟩ :=
    hash_leaks_one_rule listHash_documented rfl begins started
  obtain rfl : fewFlowKeys = h := Option.some.inj installed
  obtain rfl : some (packetKey firstRule) = leak := (leaks _).mp (by decide +kernel)
  obtain ⟨status, s, run, filtered, -⟩ := filters
    ⟨fun _ pkts => pkts.length, fun _ _ => Nat.le_refl _⟩ 1000000 (State.Fresh.initial _) rfl
    [⟨0, none, ⟨[firstRule, firstRule], by decide⟩⟩,
      ⟨1, none, ⟨mixedBurst, mixedBurst_length_le⟩⟩]
  refine ⟨status, s, run, filtered.trans ?_⟩
  decide +kernel

/-! ## A null table -/

/-- What the library documents of a null table: a lookup of one key fails, and a lookup of several
keys writes no result. -/
structure RteHash.RefusesNull (lib : RteHash Table) : Prop where
  lookup_none : ∀ k, lib.lookup none k < 0
  lookupMulti_none : ∀ keys ret, lib.lookupMulti none keys ret = ret

/-- Verdicts that all let pass. -/
def passAll (pkts : List RteMbuf) : List (RteMbuf × Bool) := pkts.map (·, false)

section NullTable

variable {lib : RteHash Table} {hash : HashState Table}

theorem judgeWith_nullTable (refuses : lib.RefusesNull) (single : hash.lookupStruct = none)
    (pkts : List RteMbuf) :
    judgeWith (Engine1.verdict (hashPktFilter lib)) hash pkts = (passAll pkts, hash) := by
  apply judgeWith_of_fixed
  intro m _
  have fails := refuses.lookup_none (keyUnder hash.mask0 m)
  have noMatch : ¬lib.lookup none (keyUnder hash.mask0 m) > 0 := by omega
  simp only [Engine1.verdict, hashPktFilter, single, noMatch, decide_false]

theorem judge4_nullTable (refuses : lib.RefusesNull)
    (grouped : hash.ipv4BridgeLookupStruct 0 = none) (m : Fin 4 → RteMbuf) :
    judge4 (hashPktFilter4 lib) hash m = (passAll ((List.finRange 4).map m), hash) := by
  simp only [judge4, hashPktFilter4, grouped, refuses.lookupMulti_none, passAll, List.map_map]
  rfl

/-- **Without a table, every packet of a burst passes**, in a group or alone. -/
theorem judgeGroups_nullTable (refuses : lib.RefusesNull) (single : hash.lookupStruct = none)
    (grouped : hash.ipv4BridgeLookupStruct 0 = none) (pkts : List RteMbuf) :
    judgeGroups (hashPktFilter4 lib) (hashPktFilter lib) hash pkts = (passAll pkts, hash) := by
  fun_induction lookups pkts with
  | case1 m0 m1 m2 m3 rest inductionHypothesis =>
      have four : judgeGroup (hashPktFilter4 lib) (hashPktFilter lib) hash ![m0, m1, m2, m3] =
          (passAll [m0, m1, m2, m3], hash) := by
        unfold judgeGroup
        split
        · exact judge4_nullTable refuses grouped _
        · split
          · exact judge4_nullTable refuses grouped _
          · exact judgeWith_nullTable refuses single _
      rw [judgeGroups, four, inductionHypothesis]
      rfl
  | case2 leftOver short =>
      rw [judgeGroups, judgeWith_nullTable refuses single]
      exact short

theorem verdicts_nullTable (refuses : lib.RefusesNull) (single : hash.lookupStruct = none)
    (grouped : hash.ipv4BridgeLookupStruct 0 = none) (inputs : List BridgeOptimized.Input) :
    BridgeOptimized.verdicts (hashPktFilter4 lib) (hashPktFilter lib) hash inputs =
      passAll (BridgeOptimized.arrivals inputs) := by
  unfold BridgeOptimized.verdicts BridgeOptimized.arrivals
  induction BridgeOptimized.served inputs with
  | nil => rfl
  | cons input inputs inductionHypothesis =>
      rw [BridgeOptimized.verdictsOn, judgeGroups_nullTable refuses single grouped,
        inductionHypothesis, List.flatMap_cons, passAll, passAll, passAll, List.map_append]

end NullTable

/-- **A slave whose hash engine fails to start lets every packet pass.** When the file cannot be
opened or begins with a blank line, `init_hash` returns -1, and `bridge_init_engine` enters the
loop with a null table. Then no packet of any run is filtered: all that arrive are given to the NIC
in the order of reception, but for those that it refuses and those that wait in the table. -/
theorem failed_hash_passes_everything (refuses : env.lib.RefusesNull) (clean : g.hash = .initial)
    (missing : ¬BeginsWithLine (env.files args)) :
    initHashCall env args g = .returns (-1) g ∧
      bridgeInitEngine env g "HASH".toList args = .enters .bridgeLoopOptimized g ∧
      ∀ (driver : TxDriver) (tscHz : UInt64) {s₀ : State (HashState Table)}, s₀.Fresh →
        s₀.engine = g.hash → ∀ inputs : List BridgeOptimized.Input, ∃ status s,
          BridgeOptimized.bridgeLoopOptimized driver (hashPktFilter4 env.lib)
            (hashPktFilter env.lib) tscHz s₀ inputs = some (status, s) ∧
          s.filteredPkts = [] ∧
          (BridgeOptimized.arrivals inputs).Perm (s.accepted ++ s.droppedPkts ++ s.queued) ∧
          (s.accepted ++ s.queued).Sublist (BridgeOptimized.arrivals inputs) := by
  have fails := initHashCall_reports (g := g) missing
  refine ⟨fails, by rw [bridgeInitEngine_hash, fails]; rfl, ?_⟩
  intro driver tscHz s₀ fresh engine inputs
  obtain ⟨status, s, run, boundary⟩ := BridgeOptimized.bridgeLoopOptimized_boundary
    (.fresh fresh) driver (hashPktFilter4 env.lib) (hashPktFilter env.lib) tscHz inputs
  have single : s₀.engine.lookupStruct = none := by rw [engine, clean]; rfl
  have grouped : s₀.engine.ipv4BridgeLookupStruct 0 = none := by rw [engine, clean]; rfl
  rw [List.nil_append, verdicts_nullTable refuses single grouped] at boundary
  have noneFiltered : s.filteredPkts = [] := by
    rw [boundary.filteredPkts_eq]
    simp [matched, passAll, List.filter_map, Function.comp_def]
  have received : s.received = BridgeOptimized.arrivals inputs := by
    rw [boundary.received_eq, passAll, List.map_map]
    exact List.map_id _
  refine ⟨status, s, run, noneFiltered, ?_, ?_⟩
  · have custody := boundary.custody
    rw [received, noneFiltered, List.append_nil] at custody
    exact custody
  · have order := boundary.order
    simpa [letPass, passAll, List.filter_map, Function.comp_def] using order

/-- The file "rule" cannot be opened. A packet of the second rule passes. -/
theorem failed_hash_passes_everything_noFile :
    ∃ status s,
      BridgeOptimized.bridgeLoopOptimized ⟨fun _ pkts => pkts.length, fun _ _ => Nat.le_refl _⟩
        (hashPktFilter4 listHash) (hashPktFilter listHash) 1000000 (State.initial .initial)
        [⟨0, none, ⟨[secondRule], by decide⟩⟩] = some (status, s) ∧ s.filteredPkts = [] := by
  have missing : ¬BeginsWithLine (rulesSlave.files "rule".toList) := by
    rintro ⟨buff, rest, read, -⟩
    cases read
  have nullTable : rulesSlave.lib.RefusesNull := by
    refine ⟨fun k => ?_, fun _ _ => rfl⟩
    change (-22 : ℤ) < 0
    decide
  have clean : noEngine.hash = .initial := rfl
  obtain ⟨-, -, passes⟩ := failed_hash_passes_everything nullTable clean missing
  obtain ⟨status, s, run, filtered, -⟩ := passes
    ⟨fun _ pkts => pkts.length, fun _ _ => Nat.le_refl _⟩ 1000000 (State.Fresh.initial _) rfl
    [⟨0, none, ⟨[secondRule], by decide⟩⟩]
  exact ⟨status, s, run, filtered⟩

end DdosFiltering.Engine
