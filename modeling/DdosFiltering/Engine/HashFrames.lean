import DdosFiltering.Engine.HashVerdicts

/-!
# Frames that are not IPv4

`bridge_loop_optimized` has one path for a group of IPv4 packets and another one for a group of
IPv6 packets, and both call the same engine. The engine cuts the key of every frame at the
offsets of IPv4 and does not read its type. In an IPv6 frame these are the bytes of the source
address, which the sender chooses; so such a frame is filtered when its address is the key of
a rule (`only_ipv4_filtered_iff`).
-/

set_option autoImplicit false

namespace DdosFiltering.Engine

open Datapath Foundation

variable {Table : Type} {lib : RteHash Table} {position : Table → M128i → Option ℕ}
  {socketId : Fin nbSockets} {keys : List M128i} {h : Table} {g : HashState Table}

/-- The EtherType of a frame, the two bytes after the addresses, in network order. -/
def etherType (m : RteMbuf) : UInt8 × UInt8 := (m.data.getD 12 0, m.data.getD 13 0)

/-- `ETHER_TYPE_IPv4`. -/
def etherTypeIpv4 : UInt8 × UInt8 := (0x08, 0x00)

/-- The frame says that it is IPv4. -/
def isIpv4Frame (m : RteMbuf) : Bool := etherType m == etherTypeIpv4

/-- A lookup that matches no packet: its key is not that of a rule, or it is the one at position
0, or the packet is looked up in a group on another socket than 0. -/
theorem Loaded.not_lookupVerdict_iff (loaded : Loaded lib socketId keys h g)
    (documented : lib.Documented position) (j : RteMbuf × Bool) :
    ¬lookupVerdict position socketId h keyMask j = true ↔
      (packetKey j.1 ∈ keys →
        position h (packetKey j.1) = some 0 ∨ (j.2 = true ∧ socketId ≠ 0)) := by
  rw [loaded.lookupVerdict_iff documented]
  constructor
  · intro passes isRule
    by_cases atZero : position h (packetKey j.1) = some 0
    · exact .inl atZero
    · right
      apply Classical.not_imp.mp
      intro onZero
      exact passes ⟨isRule, atZero, onZero⟩
  · rintro passes ⟨isRule, aboveZero, onZero⟩
    rcases passes isRule with atZero | ⟨grouped, elsewhere⟩
    · exact aboveZero atZero
    · exact elsewhere (onZero grouped)

/-- **Only IPv4 frames are filtered** in a run on any bursts, if and only if every frame
that is not IPv4 and has the bytes of a rule where an IPv4 header has its 5-tuple is
looked up in a way that matches nothing. -/
theorem only_ipv4_filtered_iff (documented : lib.Documented position)
    (loaded : Loaded lib socketId keys h g) (driver : TxDriver) (tscHz : UInt64)
    {s₀ : State (HashState Table)} (fresh : s₀.Fresh) (engine : s₀.engine = g)
    (inputs : List BridgeOptimized.Input) :
    ∃ status s,
      BridgeOptimized.bridgeLoopOptimized driver (hashPktFilter4 lib) (hashPktFilter lib) tscHz
        s₀ inputs = some (status, s) ∧
      ((∀ m ∈ s.filteredPkts, isIpv4Frame m = true) ↔
        ∀ j ∈ lookupsOf inputs, isIpv4Frame j.1 = false → packetKey j.1 ∈ keys →
          position h (packetKey j.1) = some 0 ∨ (j.2 = true ∧ socketId ≠ 0)) := by
  obtain ⟨status, s, run, freed, -⟩ :=
    loaded.run_filters documented driver tscHz fresh engine inputs
  refine ⟨status, s, run, ?_⟩
  simp only [freed, List.forall_mem_map, List.mem_filter, and_imp]
  apply forall₂_congr
  intro j _
  rw [← loaded.not_lookupVerdict_iff documented j, ← Bool.not_eq_true]
  exact not_imp_not.symm

/-! ## An IPv6 frame -/

/-- A frame with the EtherType and the version of IPv6. -/
def asIpv6 (m : RteMbuf) : RteMbuf :=
  { m with
    olFlags := BridgeOptimized.pktRxIpv6Hdr
    data := (m.data.set 12 0x86 |>.set 13 0xdd).set 14 0x60 }

/-- The frame of the second rule with the EtherType and the version of IPv6. The bytes of the rule
are in its source address. -/
def addressFrame : RteMbuf := asIpv6 secondRule

/-- An IPv4 frame of the second rule, and frames of IPv6 with the bytes of the first rule, which is
at position 0, and of none. -/
def foreignBurst : List RteMbuf := [secondRule, asIpv6 firstRule, asIpv6 stranger]

theorem foreignBurst_length_le : foreignBurst.length ≤ maxPktBurst := by decide

theorem only_ipv4_filtered_iff_foreignBurst :
    ∃ status s,
      BridgeOptimized.bridgeLoopOptimized ⟨fun _ pkts => pkts.length, fun _ _ => Nat.le_refl _⟩
        (hashPktFilter4 listHash) (hashPktFilter listHash) 1000000 (State.initial (fourRules 0))
        [⟨0, none, ⟨foreignBurst, foreignBurst_length_le⟩⟩] = some (status, s) ∧
      ∀ m ∈ s.filteredPkts, isIpv4Frame m = true := by
  obtain ⟨status, s, run, filters⟩ := only_ipv4_filtered_iff listHash_documented
    (fourRules_loaded 0) ⟨fun _ pkts => pkts.length, fun _ _ => Nat.le_refl _⟩ 1000000
    (State.Fresh.initial _) rfl [⟨0, none, ⟨foreignBurst, foreignBurst_length_le⟩⟩]
  have harmless : ∀ m ∈ foreignBurst, isIpv4Frame m = false → packetKey m ∈ fewFlowKeys →
      listPosition fewFlowKeys (packetKey m) = some 0 := by
    decide +kernel
  refine ⟨status, s, run, filters.mpr fun j member notIpv4 isRule => .inl ?_⟩
  have arrived := List.mem_map_of_mem (f := Prod.fst) member
  rw [lookupsOf_fst] at arrived
  exact harmless j.1 arrived notIpv4 isRule

/-- Four such frames are handled as a group of IPv6 packets, and filtered. -/
theorem ipv6_group_filtered :
    ¬∀ (lib : RteHash (List M128i)) (position : List M128i → M128i → Option ℕ),
      lib.Documented position → ∀ socketId keys h g, Loaded lib socketId keys h g →
        ∀ (driver : TxDriver) (tscHz : UInt64) (s₀ : State (HashState (List M128i))), s₀.Fresh →
          s₀.engine = g → ∀ inputs status s,
            BridgeOptimized.bridgeLoopOptimized driver (hashPktFilter4 lib) (hashPktFilter lib)
              tscHz s₀ inputs = some (status, s) →
            ∀ m ∈ s.filteredPkts, isIpv4Frame m = true := by
  intro claim
  obtain ⟨status, s, run, freed, -⟩ := (fourRules_loaded 0).run_filters listHash_documented
    ⟨fun _ pkts => pkts.length, fun _ _ => Nat.le_refl _⟩ 1000000
    (State.Fresh.initial (fourRules 0)) rfl
    [⟨0, none, ⟨List.replicate 4 addressFrame, by decide⟩⟩]
  have onlyIpv4 := claim listHash listPosition listHash_documented 0 _ _ _ (fourRules_loaded 0) _
    _ _ (State.Fresh.initial _) rfl _ status s run addressFrame
  have isFiltered : addressFrame ∈ s.filteredPkts := by
    rw [freed]
    refine List.mem_map.mpr ⟨(addressFrame, true), List.mem_filter.mpr ⟨?_, ?_⟩, rfl⟩
    · exact List.mem_cons_self
    · decide +kernel
  exact absurd (onlyIpv4 isFiltered) (by decide)

end DdosFiltering.Engine
