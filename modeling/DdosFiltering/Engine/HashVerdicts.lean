import DdosFiltering.Datapath.Refinement
import DdosFiltering.Engine.Hash

/-!
# The verdicts of the hash engine

What `bridge_loop_optimized` does to a packet depends on two things besides the rules: the
position of the packet's key in the table, and whether the packet is looked up in a group.

* A result is a match when it is positive, and position 0 is not. So the packets of one rule,
  the one at position 0, pass (`Loaded.lookupVerdict_iff`).
* A group is looked up in the table of socket 0. On another socket there is none, and every
  packet of a group passes (`grouped_agrees_iff`).

A burst is filtered exactly as the rules say when no packet is of these kinds
(`hash_filters_rules`).
-/

set_option autoImplicit false

namespace DdosFiltering.Engine

open Datapath Foundation

variable {Table : Type} {lib : RteHash Table} {position : Table → M128i → Option ℕ}

/-- The mask of the IPv4 keys: the time to live and the checksum are not in the key. -/
def keyMask : M128i := mmSetEpi32 all32Bits all32Bits all32Bits bit8To15

/-- The masked key of a packet. -/
def packetKey (m : RteMbuf) : M128i := keyUnder keyMask m

/-- The table `h` of the socket has been installed, in a process that had no table. -/
structure Installed (socketId : Fin nbSockets) (h : Table) (g : HashState Table) : Prop where
  lookupStruct : g.lookupStruct = some h
  slots : ∀ i, g.ipv4BridgeLookupStruct i = if i = socketId then some h else none

/-- Besides, it has been created and filled with `keys`, and the mask is set. -/
structure Loaded (lib : RteHash Table) (socketId : Fin nbSockets) (keys : List M128i) (h : Table)
    (g : HashState Table) : Prop extends Installed socketId h g where
  filled : ∃ params t, lib.create params = some t ∧ insertAll lib.addKey t keys = some h
  mask0 : g.mask0 = keyMask

/-- The keys that `init_hash` inserts. -/
def insertedKeys (hashEntryNumber : UInt32) : List M128i :=
  if hashEntryNumber ≠ hashEntryNumberDefault then manyFlowKeys else fewFlowKeys

theorem fillIpv4_eq_some {g g' : HashState Table} {t h : Table}
    (filled : fillIpv4 lib g t = some (g', h)) :
    insertAll lib.addKey t (insertedKeys g.hashEntryNumber) = some h ∧
      g' = { g with mask0 := keyMask } := by
  unfold fillIpv4 populateIpv4ManyFlowIntoTable populateIpv4FewFlowIntoTable populate at filled
  unfold insertedKeys
  split at filled
  · rename_i many
    obtain ⟨h', inserted, same⟩ := Option.map_eq_some_iff.mp filled
    obtain ⟨rfl, rfl⟩ := Prod.mk.inj same
    rw [if_pos many]
    exact ⟨inserted, rfl⟩
  · rename_i few
    obtain ⟨h', inserted, same⟩ := Option.map_eq_some_iff.mp filled
    obtain ⟨rfl, rfl⟩ := Prod.mk.inj same
    rw [if_neg few]
    exact ⟨inserted, rfl⟩

/-- **What `init_hash` leaves behind.** -/
theorem initHash_loaded {file : Option (List UInt8)} {keysNb : UInt64} {procId : ℕ}
    {socketId : Fin nbSockets} {g : HashState Table}
    (initialized : initHash lib file keysNb procId socketId .initial = some (0, g)) :
    ∃ h, Loaded lib socketId (insertedKeys g.hashEntryNumber) h g := by
  unfold initHash at initialized
  split at initialized
  · exact absurd (congrArg Prod.fst (Option.some.inj initialized)) (by simp)
  · split at initialized
    · exact absurd (congrArg Prod.fst (Option.some.inj initialized)) (by simp)
    · obtain ⟨t, created, installed⟩ := Option.bind_eq_some_iff.mp initialized
      obtain ⟨⟨g', h⟩, filled, done⟩ := Option.map_eq_some_iff.mp installed
      obtain rfl := congrArg Prod.snd done
      obtain ⟨inserted, rfl⟩ := fillIpv4_eq_some filled
      exact ⟨h, ⟨rfl, fun i => Function.update_apply ..⟩, ⟨_, t, created, inserted⟩, rfl⟩

/-! ## The lookups -/

/-- The table holds the key, and not at position 0. -/
def isAboveZero (position : Table → M128i → Option ℕ) (h : Table) (k : M128i) : Bool :=
  (position h k).any (0 < ·)

/-- A lookup is a match when the table holds the key, and not at position 0. -/
theorem RteHash.LooksUp.lookup_pos_iff (looksUp : lib.LooksUp position) (h : Table) (k : M128i) :
    lib.lookup (some h) k > 0 ↔ isAboveZero position h k = true := by
  unfold isAboveZero
  cases at_k : position h k with
  | none =>
      have absent := looksUp.lookup_absent h k at_k
      simp only [Option.any_none, Bool.false_eq_true, iff_false]
      omega
  | some p =>
      rw [looksUp.lookup_present h k p at_k]
      simp

namespace Installed

variable {socketId : Fin nbSockets} {h : Table} {g : HashState Table}

/-- **The single lookup** reads the table of the socket. -/
theorem hashPktFilter_pos_iff (installed : Installed socketId h g)
    (looksUp : lib.LooksUp position) (m : RteMbuf) :
    (hashPktFilter lib g m 0).1 > 0 ↔ isAboveZero position h (keyUnder g.mask0 m) = true := by
  rw [hashPktFilter, installed.lookupStruct]
  exact looksUp.lookup_pos_iff h _

/-- **The grouped lookup** reads the same table on socket 0, and none on another socket. -/
theorem hashPktFilter4_pos_iff (installed : Installed socketId h g)
    (looksUp : lib.LooksUp position) (m : Fin 4 → RteMbuf) (i : Fin 4) :
    (hashPktFilter4 lib g m fun _ => 0).1 i > 0 ↔
      socketId = 0 ∧ isAboveZero position h (keyUnder g.mask0 (m i)) = true := by
  unfold hashPktFilter4
  rw [installed.slots]
  by_cases first : socketId = 0
  · subst first
    simp only [if_true, looksUp.lookupMulti_some, true_and]
    exact looksUp.lookup_pos_iff h _
  · simp [if_neg (Ne.symm first), looksUp.lookupMulti_none, first]

end Installed

/-! ## The packets of a burst -/

/-- The four packets are all IPv4 or all IPv6, by their flags, and are looked up together. -/
def areGrouped (m : Fin 4 → RteMbuf) : Bool :=
  decide ((BridgeOptimized.olFlag m).toUInt64 &&& BridgeOptimized.pktRxIpv4Hdr ≠ 0) ||
    decide ((BridgeOptimized.olFlag m).toUInt64 &&& BridgeOptimized.pktRxIpv6Hdr ≠ 0)

/-- The packets of a burst, each with whether it is looked up in a group. -/
def lookups : List RteMbuf → List (RteMbuf × Bool)
  | m0 :: m1 :: m2 :: m3 :: rest =>
      (List.finRange 4).map (fun i => (![m0, m1, m2, m3] i, areGrouped ![m0, m1, m2, m3])) ++
        lookups rest
  | leftOver => leftOver.map (·, false)

theorem lookups_fst (pkts : List RteMbuf) : (lookups pkts).map Prod.fst = pkts := by
  fun_induction lookups pkts with
  | case1 m0 m1 m2 m3 rest inductionHypothesis =>
      rw [List.map_append, inductionHypothesis]
      rfl
  | case2 leftOver short =>
      rw [List.map_map]
      exact List.map_id leftOver

/-- The verdict on a packet that is looked up in a group, or alone. -/
def lookupVerdict (position : Table → M128i → Option ℕ) (socketId : Fin nbSockets) (h : Table)
    (mask : M128i) (lookup : RteMbuf × Bool) : Bool :=
  (!lookup.2 || socketId == 0) && isAboveZero position h (keyUnder mask lookup.1)

namespace Installed

variable {socketId : Fin nbSockets} {h : Table} {g : HashState Table}

theorem judgeWith_eq (installed : Installed socketId h g) (looksUp : lib.LooksUp position)
    (pkts : List RteMbuf) :
    judgeWith (Engine1.verdict (hashPktFilter lib)) g pkts =
      (pkts.map fun m => (m, lookupVerdict position socketId h g.mask0 (m, false)), g) := by
  apply judgeWith_of_fixed
  intro m _
  refine congrArg (·, g) ?_
  rw [Bool.eq_iff_iff, decide_eq_true_iff, installed.hashPktFilter_pos_iff looksUp, lookupVerdict]
  simp

theorem judge4_eq (installed : Installed socketId h g) (looksUp : lib.LooksUp position)
    (m : Fin 4 → RteMbuf) :
    judge4 (hashPktFilter4 lib) g m =
      ((List.finRange 4).map fun i =>
        (m i, lookupVerdict position socketId h g.mask0 (m i, true)), g) := by
  refine congrArg (·, g) (List.map_congr_left fun i _ => ?_)
  refine congrArg (m i, ·) ?_
  rw [Bool.eq_iff_iff, decide_eq_true_iff, installed.hashPktFilter4_pos_iff looksUp,
    lookupVerdict]
  simp

/-- **The verdicts on a burst** depend on the table and on which packets are looked up in a
group. -/
theorem judgeGroups_eq (installed : Installed socketId h g) (looksUp : lib.LooksUp position)
    (pkts : List RteMbuf) :
    judgeGroups (hashPktFilter4 lib) (hashPktFilter lib) g pkts =
      ((lookups pkts).map fun j => (j.1, lookupVerdict position socketId h g.mask0 j), g) := by
  fun_induction lookups pkts with
  | case1 m0 m1 m2 m3 rest inductionHypothesis =>
      have group : judgeGroup (hashPktFilter4 lib) (hashPktFilter lib) g ![m0, m1, m2, m3] =
          (((List.finRange 4).map fun i =>
            (![m0, m1, m2, m3] i, areGrouped ![m0, m1, m2, m3])).map fun j =>
              (j.1, lookupVerdict position socketId h g.mask0 j), g) := by
        unfold judgeGroup areGrouped
        split
        · rename_i ipv4
          rw [installed.judge4_eq looksUp, List.map_map]
          simp [ipv4, Function.comp_def]
        · rename_i notIpv4
          split
          · rename_i ipv6
            rw [installed.judge4_eq looksUp, List.map_map]
            simp [ipv6, Function.comp_def]
          · rename_i notIpv6
            rw [installed.judgeWith_eq looksUp, List.map_map, List.map_map]
            simp only [notIpv4, notIpv6, decide_false, Bool.or_self]
            rfl
      rw [judgeGroups, group, inductionHypothesis, List.map_append]
  | case2 leftOver short =>
      rw [judgeGroups, installed.judgeWith_eq looksUp, List.map_map]
      · rfl
      · exact short

end Installed

/-! ## A small instance -/

/-- The library with lists of keys for tables. -/
def listHash : RteHash (List M128i) where
  create _ := some []
  addKey := listInsert
  lookup t k := t.elim (-22) fun t => (listPosition t k).elim (-2) fun p => p
  lookupMulti t keys ret i := t.elim (ret i) fun t => (listPosition t (keys i)).elim (-2) fun p => p

theorem listHash_documented : listHash.Documented listPosition where
  lookup_present t k p held := by simp [listHash, held]
  lookup_absent t k absent := by simp [listHash, absent]
  lookupMulti_some _ _ _ _ := rfl
  lookupMulti_none _ _ := rfl
  created params t made := by
    obtain rfl := Option.some.inj made
    exact fun _ => rfl
  numbers := list_numbers

/-- The static variables after `init_hash` with the default number of keys. -/
def fourRules (socketId : Fin nbSockets) : HashState (List M128i) :=
  { (HashState.initial.install socketId fewFlowKeys) with mask0 := keyMask }

theorem initHash_fourRules (socketId : Fin nbSockets) :
    initHash listHash (some [52, newline]) 0 0 socketId .initial =
      some (0, fourRules socketId) := by
  rfl

theorem fourRules_loaded (socketId : Fin nbSockets) :
    Loaded listHash socketId fewFlowKeys fewFlowKeys (fourRules socketId) := by
  obtain ⟨h, loaded⟩ := initHash_loaded (initHash_fourRules socketId)
  obtain rfl : fewFlowKeys = h := Option.some.inj loaded.lookupStruct
  exact loaded

/-- A frame that carries a 5-tuple, at the address `addr`, with the flag for IPv4. -/
def frame (addr : ℕ) (tuple : Ipv4_5tuple) : RteMbuf where
  addr := addr
  olFlags := BridgeOptimized.pktRxIpv4Hdr
  dataLen := 60
  data :=
    let key := (convertIpv4_5tuple tuple).xmm
    List.replicate 12 0 ++ [8, 0, 0x45, 0, 0, 46, 0, 0, 0, 0, 64, tuple.proto, 0, 0] ++
      ((List.finRange 16).drop 4).map key ++ List.replicate 22 0

/-- The frames of the first two rules. -/
def firstRule : RteMbuf := frame 1 ⟨ipv4 59 1 1 18, ipv4 19 168 2 1, 53, 54750, ipprotoUdp⟩

def secondRule : RteMbuf := frame 2 ⟨ipv4 201 0 0 0, ipv4 200 20 0 1, 102, 12, ipprotoTcp⟩

/-- A packet of no rule. -/
def stranger : RteMbuf := frame 3 ⟨ipv4 10 0 0 1, ipv4 10 0 0 2, 53, 53, ipprotoUdp⟩

/-- A burst with a group of four and a packet behind it. -/
def mixedBurst : List RteMbuf := [secondRule, stranger, stranger, secondRule, secondRule]

theorem mixedBurst_length_le : mixedBurst.length ≤ maxPktBurst := by decide

/-! ## Grouped and single lookups -/

variable {socketId : Fin nbSockets} {keys : List M128i} {h : Table} {g : HashState Table}

/-- **Grouped lookups agree with single ones** exactly on socket 0, and on packets whose keys
are not in the table above position 0: for the four results of a group, and for the verdicts
on a burst. -/
theorem grouped_agrees_iff (looksUp : lib.LooksUp position)
    (installed : Installed socketId h g) :
    (∀ m : Fin 4 → RteMbuf,
      (∀ i, (hashPktFilter4 lib g m fun _ => 0).1 i > 0 ↔ (hashPktFilter lib g (m i) 0).1 > 0) ↔
        socketId = 0 ∨ ∀ i, isAboveZero position h (keyUnder g.mask0 (m i)) = false) ∧
      ∀ pkts : List RteMbuf,
        judgeGroups (hashPktFilter4 lib) (hashPktFilter lib) g pkts =
            judgeWith (Engine1.verdict (hashPktFilter lib)) g pkts ↔
          socketId = 0 ∨ ∀ j ∈ lookups pkts, j.2 = true →
            isAboveZero position h (keyUnder g.mask0 j.1) = false := by
  constructor
  · intro m
    simp only [installed.hashPktFilter4_pos_iff looksUp, installed.hashPktFilter_pos_iff looksUp]
    by_cases first : socketId = 0
    · simp [first]
    · simp [first]
  · intro pkts
    have single : judgeWith (Engine1.verdict (hashPktFilter lib)) g pkts =
        ((lookups pkts).map fun j =>
          (j.1, lookupVerdict position socketId h g.mask0 (j.1, false)), g) := by
      conv_lhs => rw [← lookups_fst pkts]
      rw [installed.judgeWith_eq looksUp, List.map_map]
      rfl
    rw [installed.judgeGroups_eq looksUp, single, Prod.mk.injEq, List.map_inj_left]
    simp only [Prod.mk.injEq, true_and, and_true, lookupVerdict]
    by_cases first : socketId = 0
    · simp [first]
    · simp only [first, false_or]
      apply forall₂_congr
      intro j _
      cases j.2 <;> simp [first]

/-- A burst of five packets of the second rule, on socket 0. -/
theorem grouped_agrees_iff_socketZero :
    judgeGroups (hashPktFilter4 listHash) (hashPktFilter listHash) (fourRules 0)
        (List.replicate 5 secondRule) =
      judgeWith (Engine1.verdict (hashPktFilter listHash)) (fourRules 0)
        (List.replicate 5 secondRule) :=
  ((grouped_agrees_iff listHash_documented.toLooksUp (fourRules_loaded 0).toInstalled).2 _).mpr
    (.inl rfl)

/-- Four packets of the second rule on socket 1: each is matched when it is looked up alone. -/
theorem grouped_differs_on_socketOne :
    ¬∀ (lib : RteHash (List M128i)) (position : List M128i → M128i → Option ℕ),
      lib.LooksUp position → ∀ socketId h g, Installed socketId h g →
        ∀ (m : Fin 4 → RteMbuf) (i : Fin 4),
          (hashPktFilter4 lib g m fun _ => 0).1 i > 0 ↔ (hashPktFilter lib g (m i) 0).1 > 0 := by
  intro claim
  have agrees := claim listHash listPosition listHash_documented.toLooksUp 1 _ (fourRules 1)
    (fourRules_loaded 1).toInstalled (fun _ => secondRule) 0
  have single : (hashPktFilter listHash (fourRules 1) secondRule 0).1 = 1 := by decide +kernel
  have grouped : (hashPktFilter4 listHash (fourRules 1) (fun _ => secondRule) fun _ => 0).1 0 = 0 :=
    rfl
  rw [single, grouped] at agrees
  exact absurd (agrees.mpr (by decide)) (by decide)

/-! ## Exact filtering -/

/-- The packets of the bursts that a run serves, each with whether it is looked up in a
group. -/
def lookupsOf (inputs : List BridgeOptimized.Input) : List (RteMbuf × Bool) :=
  (BridgeOptimized.served inputs).flatMap fun input => lookups input.rx.pkts

theorem lookupsOf_fst (inputs : List BridgeOptimized.Input) :
    (lookupsOf inputs).map Prod.fst = BridgeOptimized.arrivals inputs := by
  rw [lookupsOf, List.map_flatMap, BridgeOptimized.arrivals]
  simp only [lookups_fst]

theorem Installed.verdicts_eq (installed : Installed socketId h g)
    (looksUp : lib.LooksUp position) (inputs : List BridgeOptimized.Input) :
    BridgeOptimized.verdicts (hashPktFilter4 lib) (hashPktFilter lib) g inputs =
      (lookupsOf inputs).map fun j => (j.1, lookupVerdict position socketId h g.mask0 j) := by
  unfold BridgeOptimized.verdicts lookupsOf
  induction BridgeOptimized.served inputs with
  | nil => rfl
  | cons input inputs inductionHypothesis =>
      rw [BridgeOptimized.verdictsOn, installed.judgeGroups_eq looksUp, inductionHypothesis,
        List.flatMap_cons, List.map_append]

/-- The table holds the inserted keys. -/
theorem Loaded.holds (loaded : Loaded lib socketId keys h g)
    (documented : lib.Documented position) (k : M128i) : position h k ≠ none ↔ k ∈ keys := by
  obtain ⟨params, t, created, filled⟩ := loaded.filled
  rw [documented.numbers.insertAll_holds filled, documented.created params t created]
  simp

theorem isAboveZero_iff (h : Table) (k : M128i) :
    isAboveZero position h k = true ↔ position h k ≠ none ∧ position h k ≠ some 0 := by
  unfold isAboveZero
  cases position h k with
  | none => simp
  | some p => simp [Nat.pos_iff_ne_zero]

/-- Which packets of rules are matched. -/
theorem Loaded.lookupVerdict_iff (loaded : Loaded lib socketId keys h g)
    (documented : lib.Documented position) (j : RteMbuf × Bool) :
    lookupVerdict position socketId h keyMask j = true ↔
      packetKey j.1 ∈ keys ∧ position h (packetKey j.1) ≠ some 0 ∧
        (j.2 = true → socketId = 0) := by
  rw [lookupVerdict, Bool.and_eq_true, isAboveZero_iff, ← loaded.holds documented]
  obtain ⟨m, grouped⟩ := j
  cases grouped <;> simp [packetKey, and_comm, and_left_comm]

/-- The rule whose packets pass is at most one. -/
theorem Loaded.passing_rule_unique (loaded : Loaded lib socketId keys h g)
    (documented : lib.Documented position) {k k' : M128i} (first : position h k = some 0)
    (second : position h k' = some 0) : k = k' := by
  obtain ⟨params, t, created, filled⟩ := loaded.filled
  have empty : Distinct position t := fun a _ p found =>
    absurd ((documented.created params t created a).symm.trans found) nofun
  exact documented.numbers.insertAll_distinct filled empty k k' 0 first second

/-- From `s₀` to `s`, the packets among `pkts` with one of the keys have been freed as
filtered and counted, and no others. -/
structure FiltersRules {σ : Type} (keys : List M128i) (pkts : List RteMbuf) (s₀ s : State σ) :
    Prop where
  freed : s.filteredPkts = s₀.filteredPkts ++ pkts.filter fun m => decide (packetKey m ∈ keys)
  counted : s.stats.filtered =
    s₀.stats.filtered + UInt64.ofNat (pkts.countP fun m => decide (packetKey m ∈ keys))

/-- Two selections of a list, one inside the other, are the same when they select the same
elements. -/
theorem map_filter_eq_iff {α β : Type*} {p q : α → Bool} (inside : ∀ a, p a = true → q a = true)
    (f : α → β) (l : List α) :
    (l.filter p).map f = (l.filter q).map f ↔ ∀ a ∈ l, q a = true → p a = true := by
  constructor
  · intro same a member selected
    have length := congrArg List.length same
    rw [List.length_map, List.length_map] at length
    have all := (List.monotone_filter_right l inside).eq_of_length length
    exact (List.mem_filter.mp (all ▸ List.mem_filter.mpr ⟨member, selected⟩)).2
  · intro selects
    refine congrArg (List.map f) (List.filter_congr fun a member => ?_)
    exact Bool.eq_iff_iff.mpr ⟨inside a, selects a member⟩

/-- **What a run filters**, for any rules: the packets that its lookups match. -/
theorem Loaded.run_filters (loaded : Loaded lib socketId keys h g)
    (documented : lib.Documented position) (driver : TxDriver) (tscHz : UInt64)
    {s₀ : State (HashState Table)} (fresh : s₀.Fresh) (engine : s₀.engine = g)
    (inputs : List BridgeOptimized.Input) :
    ∃ status s,
      BridgeOptimized.bridgeLoopOptimized driver (hashPktFilter4 lib) (hashPktFilter lib) tscHz
        s₀ inputs = some (status, s) ∧
      s.filteredPkts =
        ((lookupsOf inputs).filter (lookupVerdict position socketId h keyMask)).map Prod.fst ∧
      s.stats.filtered = s₀.stats.filtered + UInt64.ofNat s.filteredPkts.length := by
  obtain ⟨status, s, run, boundary⟩ := BridgeOptimized.bridgeLoopOptimized_boundary
    (.fresh fresh) driver (hashPktFilter4 lib) (hashPktFilter lib) tscHz inputs
  refine ⟨status, s, run, ?_, ?_⟩
  · rw [List.nil_append, engine, loaded.verdicts_eq documented.toLooksUp, loaded.mask0] at boundary
    rw [boundary.filteredPkts_eq, matched, List.filter_map, List.map_map]
    rfl
  · rw [boundary.filtered_eq, ← boundary.filteredPkts_eq]

/-- **Exact filtering.** A run of `bridge_loop_optimized` on any bursts filters exactly the
packets of the rules, if and only if no packet of a rule has its key at position 0 of the
table, or is looked up in a group on another socket than 0. -/
theorem hash_filters_rules (documented : lib.Documented position)
    (loaded : Loaded lib socketId keys h g) (driver : TxDriver) (tscHz : UInt64)
    {s₀ : State (HashState Table)} (fresh : s₀.Fresh) (engine : s₀.engine = g)
    (inputs : List BridgeOptimized.Input) :
    ∃ status s,
      BridgeOptimized.bridgeLoopOptimized driver (hashPktFilter4 lib) (hashPktFilter lib) tscHz
        s₀ inputs = some (status, s) ∧
      (FiltersRules keys (BridgeOptimized.arrivals inputs) s₀ s ↔
        ∀ j ∈ lookupsOf inputs, packetKey j.1 ∈ keys →
          position h (packetKey j.1) ≠ some 0 ∧ (j.2 = true → socketId = 0)) := by
  obtain ⟨status, s, run, freed, counted⟩ :=
    loaded.run_filters documented driver tscHz fresh engine inputs
  refine ⟨status, s, run, ?_⟩
  have nothingBefore : s₀.filteredPkts = [] := by simp [State.filteredPkts, fresh.trace]
  have ofRules : (BridgeOptimized.arrivals inputs).filter
      (fun m => decide (packetKey m ∈ keys)) =
        ((lookupsOf inputs).filter fun j => decide (packetKey j.1 ∈ keys)).map Prod.fst := by
    rw [← lookupsOf_fst, List.filter_map]
    rfl
  have inside (j : RteMbuf × Bool) (isMatch : lookupVerdict position socketId h keyMask j = true) :
      decide (packetKey j.1 ∈ keys) = true :=
    decide_eq_true ((loaded.lookupVerdict_iff documented j).mp isMatch).1
  have exact_iff := map_filter_eq_iff inside Prod.fst (lookupsOf inputs)
  simp only [loaded.lookupVerdict_iff documented, decide_eq_true_iff] at exact_iff
  have condition : (∀ j ∈ lookupsOf inputs, packetKey j.1 ∈ keys →
      position h (packetKey j.1) ≠ some 0 ∧ (j.2 = true → socketId = 0)) ↔
        s.filteredPkts =
          (BridgeOptimized.arrivals inputs).filter fun m => decide (packetKey m ∈ keys) := by
    rw [freed, ofRules, exact_iff]
    apply forall₂_congr
    intro j _
    exact forall_congr' fun isRule => ⟨fun rest => ⟨isRule, rest⟩, And.right⟩
  rw [condition]
  constructor
  · intro filters
    rw [filters.freed, nothingBefore, List.nil_append]
  · intro same
    refine ⟨by rw [same, nothingBefore, List.nil_append], ?_⟩
    rw [counted, same, List.countP_eq_length_filter]

/-- Packets of the second rule and of none, in a group and behind it, on socket 0. -/
theorem hash_filters_rules_mixedBurst :
    ∃ status s,
      BridgeOptimized.bridgeLoopOptimized ⟨fun _ pkts => pkts.length, fun _ _ => Nat.le_refl _⟩
        (hashPktFilter4 listHash) (hashPktFilter listHash) 1000000 (State.initial (fourRules 0))
        [⟨0, none, ⟨mixedBurst, mixedBurst_length_le⟩⟩] = some (status, s) ∧
      FiltersRules fewFlowKeys mixedBurst (State.initial (fourRules 0)) s := by
  obtain ⟨status, s, run, filters⟩ := hash_filters_rules listHash_documented (fourRules_loaded 0)
    ⟨fun _ pkts => pkts.length, fun _ _ => Nat.le_refl _⟩ 1000000 (State.Fresh.initial _) rfl
    [⟨0, none, ⟨mixedBurst, mixedBurst_length_le⟩⟩]
  have aboveZero : ∀ m ∈ mixedBurst, listPosition fewFlowKeys (packetKey m) ≠ some 0 := by
    decide +kernel
  refine ⟨status, s, run, filters.mpr fun j member _ => ⟨?_, fun _ => rfl⟩⟩
  have arrived := List.mem_map_of_mem (f := Prod.fst) member
  rw [lookupsOf_fst] at arrived
  exact aboveZero j.1 arrived

/-- A packet of the first rule, whose key is at position 0, is not filtered. -/
theorem first_rule_passes :
    ¬∀ (lib : RteHash (List M128i)) (position : List M128i → M128i → Option ℕ),
      lib.Documented position → ∀ socketId keys h g, Loaded lib socketId keys h g →
        ∀ (driver : TxDriver) (tscHz : UInt64) (s₀ : State (HashState (List M128i))), s₀.Fresh →
          s₀.engine = g → ∀ inputs status s,
            BridgeOptimized.bridgeLoopOptimized driver (hashPktFilter4 lib) (hashPktFilter lib)
              tscHz s₀ inputs = some (status, s) →
            FiltersRules keys (BridgeOptimized.arrivals inputs) s₀ s := by
  intro claim
  obtain ⟨status, s, run, boundary⟩ := BridgeOptimized.bridgeLoopOptimized_boundary
    (.fresh (State.Fresh.initial (fourRules 0)))
    ⟨fun _ pkts => pkts.length, fun _ _ => Nat.le_refl _⟩ (hashPktFilter4 listHash)
    (hashPktFilter listHash) 1000000 [⟨0, none, ⟨[firstRule], by decide⟩⟩]
  have filters := claim listHash listPosition listHash_documented 0 _ _ _ (fourRules_loaded 0) _
    _ _ (State.Fresh.initial _) rfl _ status s run
  have freed := filters.freed
  rw [boundary.filteredPkts_eq] at freed
  exact absurd (congrArg List.length freed) (by decide +kernel)

end DdosFiltering.Engine
