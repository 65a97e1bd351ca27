import DdosFiltering.Datapath.Runs
import DdosFiltering.Engine.Initialisers
import DdosFiltering.Foundation.ClassicBpf

/-!
# The program of the packet filter

`compile_bpf_filter2` compiles a program that is written out in the source. It finds the end of
the IPv4 header from the length in its first byte, and compares the name of the DNS query
behind it with `isc.org`, in two words and a byte. Run as a classic packet filter, it accepts
exactly the packets that hold the name there (`compiledCode_accepts`), and so the engine filters
exactly these (`bpf_filters_queries`).
-/

set_option autoImplicit false

namespace DdosFiltering.Engine

open Foundation ClassicBpf

/-- The instruction in a `struct sock_filter`. -/
def SockFilter.instr (f : SockFilter) : Option Instr := decode f.code f.jt f.jf f.k

/-- What the program returns for a packet, if all its instructions are valid and it returns. -/
def runProgram (code : List SockFilter) (packet : List UInt8) : Option UInt32 :=
  (code.mapM SockFilter.instr).bind (run packet)

/-- The name `isc.org` in a DNS query. -/
def iscOrg : List UInt8 := [3, 0x69, 0x73, 0x63, 3, 0x6f, 0x72, 0x67, 0]

/-- Where the name of a query is: behind the headers of Ethernet (14 bytes), IPv4, UDP (8 bytes) and
DNS (12 bytes). The byte at 14 has the length of the IPv4 header in words. -/
def queryOffset (packet : List UInt8) : Option ℕ :=
  packet[14]?.map fun b => 34 + 4 * (b &&& 0xf).toNat

/-- The packet holds the name `isc.org` where the name of a query is. -/
def AsksForIscOrg (packet : List UInt8) : Prop :=
  ∃ offset ∈ queryOffset packet, iscOrg <+: packet.drop offset

instance : DecidablePred AsksForIscOrg := fun packet =>
  inferInstanceAs (Decidable (∃ offset ∈ queryOffset packet, iscOrg <+: packet.drop offset))

/-- The parts of the name that are read with one load. -/
def iscOrgLiterals : List Literal :=
  [⟨.word, 0, [3, 0x69, 0x73, 0x63], rfl⟩, ⟨.word, 4, [3, 0x6f, 0x72, 0x67], rfl⟩,
    ⟨.byte, 8, [0], rfl⟩]

/-- The program: the index register is set, and the name is looked for. -/
theorem mapM_compiledCode :
    compiledCode.mapM SockFilter.instr =
      some ([.ldxMsh 14, .ldImm 34, .alu .add .x, .tax] ++
        (lookFor iscOrgLiterals ++ [.retK 1, .retK 0])) := by
  decide

/-- The bytes of two lists in a row. -/
theorem append_prefix_drop_iff {front back text : List UInt8} {k : ℕ} :
    front ++ back <+: text.drop k ↔
      front <+: text.drop k ∧ back <+: text.drop (k + front.length) := by
  rw [← List.drop_drop]
  generalize text.drop k = text
  constructor
  · rintro ⟨rest, rfl⟩
    rw [List.append_assoc, List.drop_left]
    exact ⟨List.prefix_append _ _, List.prefix_append _ _⟩
  · rintro ⟨⟨rest, rfl⟩, second⟩
    rw [List.drop_left] at second
    exact (List.prefix_append_right_inj front).mpr second

theorem iscOrgLiterals_occur_iff (packet : List UInt8) (x : UInt32) :
    (∀ l ∈ iscOrgLiterals, l.Occurs packet x) ↔ iscOrg <+: packet.drop x.toNat := by
  have name : iscOrg = [3, 0x69, 0x73, 0x63] ++ ([3, 0x6f, 0x72, 0x67] ++ [0]) := rfl
  rw [name, append_prefix_drop_iff, append_prefix_drop_iff]
  simp only [iscOrgLiterals, List.forall_mem_cons, Literal.Occurs]
  exact and_congr_right' (and_congr_right' (and_iff_left nofun))

/-- The index register behind the first four instructions. -/
theorem toNat_queryOffset (b : UInt8) :
    (34 + 4 * (UInt32.ofNat b.toNat &&& 0xf)).toNat = 34 + 4 * (b &&& 0xf).toNat := by
  have small : b.toNat &&& 15 ≤ 15 := Nat.and_le_right
  have value : (UInt32.ofNat b.toNat).toNat = b.toNat :=
    UInt32.toNat_ofNat_of_lt' (b.toNat_lt.trans (by decide))
  rw [UInt32.toNat_add, UInt32.toNat_mul, UInt32.toNat_and, UInt8.toNat_and, value]
  change (34 + 4 * (b.toNat &&& 15) % 2 ^ 32) % 2 ^ 32 = 34 + 4 * (b.toNat &&& 15)
  omega

/-- What the program returns. -/
theorem runProgram_compiledCode (packet : List UInt8) :
    runProgram compiledCode packet = some (if AsksForIscOrg packet then 1 else 0) := by
  have header := load_byte packet 14
  have offset : (14 : UInt32).toNat = 14 := rfl
  rw [runProgram, mapM_compiledCode, Option.bind_some, run, List.cons_append]
  cases length : packet[14]? with
  | none =>
      rw [length, Option.map_none] at header
      have asksNot : ¬AsksForIscOrg packet := by
        rintro ⟨_, found, -⟩
        rw [queryOffset, length] at found
        cases found
      rw [if_neg asksNot]
      apply exec_cons_returns
      rw [step, offset, header, Step.ofRead]
  | some b =>
      rw [length, Option.map_some] at header
      have first : step packet .initial (.ldxMsh 14) =
          .goes 0 { Machine.initial with x := 4 * (UInt32.ofNat b.toNat &&& 0xf) } := by
        rw [step, offset, header, Step.ofRead]
      have asks : AsksForIscOrg packet ↔
          iscOrg <+: packet.drop (34 + 4 * (UInt32.ofNat b.toNat &&& 0xf)).toNat := by
        rw [toNat_queryOffset, AsksForIscOrg, queryOffset, length]
        simp only [Option.map_some, Option.mem_some_iff, exists_eq_left']
      rw [exec_cons_goes first, List.cons_append, exec_cons_goes rfl, List.cons_append,
        exec_cons_goes rfl, List.cons_append, exec_cons_goes rfl, List.nil_append, exec_lookFor]
      apply congrArg some
      exact if_congr ((iscOrgLiterals_occur_iff packet _).trans asks.symm) rfl rfl

/-- **The program accepts exactly its query name**, and returns 0 for every other packet. -/
theorem compiledCode_accepts (packet : List UInt8) :
    (runProgram compiledCode packet = some 1 ↔ AsksForIscOrg packet) ∧
      (¬AsksForIscOrg packet → runProgram compiledCode packet = some 0) := by
  rw [runProgram_compiledCode]
  constructor
  · split
    · rename_i asks
      exact iff_of_true rfl asks
    · rename_i asksNot
      exact iff_of_false (by decide) asksNot
  · intro asksNot
    rw [if_neg asksNot]

/-- A query behind an IPv4 header of five words, and one that is cut off. -/
example :
    let header : List UInt8 := List.replicate 14 0 ++ 0x45 :: List.replicate 39 0
    runProgram compiledCode (header ++ iscOrg) = some 1 ∧
      runProgram compiledCode (header ++ iscOrg.dropLast) = some 0 := by
  decide

/-! ## The engine -/

section Engine

open Datapath

variable {Table Prog : Type}

/-- What is asked of the libraries: `run_filter` runs a program that is compiled on the packet. -/
structure RunsPrograms (bpf : BpfLibrary Prog) (runFilter : Prog → List UInt8 → ℕ → UInt32) :
    Prop where
  runs : ∀ code fp pkt pktLength verdict, bpf.compileFilter code = some fp →
    pktLength ≤ pkt.length → runProgram code (pkt.take pktLength) = some verdict →
      runFilter fp pkt pktLength = verdict

/-- `BPF_pkt_filter`. -/
def bpfPktFilter (runFilter : Prog → List UInt8 → ℕ → UInt32) : Engine Prog :=
  fun fp pkt pktLength => ((runFilter fp pkt pktLength).toInt32.toInt, fp)

/-- **The engine filters exactly the queries for its name**, in every run behind `BPF_init`,
whatever the NIC delivers and takes. -/
theorem bpf_filters_queries {env : SlaveEnvironment Table Prog}
    {runFilter : Prog → List UInt8 → ℕ → UInt32} (library : RunsPrograms env.bpf runFilter)
    {g g' : EngineStatics Table Prog} {s₀ : State Prog} (fresh : s₀.Fresh)
    (initialised : bpfInit env g = .returns 0 g') (engine : g'.fp = some s₀.engine)
    (driver : TxDriver) (tscHz : UInt64) (inputs : List Bridge.Input)
    (inBuffer : ∀ m ∈ Bridge.arrivals inputs, m.dataLen.toNat ≤ m.data.length) :
    ∃ s, Bridge.bridgeMainLoop driver (bpfPktFilter runFilter) tscHz s₀ inputs = some s ∧
      s.filteredPkts = (Bridge.arrivals inputs).filter fun m =>
        AsksForIscOrg (m.data.take m.dataLen.toNat) := by
  have compiled : env.bpf.compileFilter compiledCode = some s₀.engine := by
    unfold bpfInit compileBpfProgram at initialised
    split at initialised
    · cases initialised
    · rename_i fp compiled
      obtain ⟨-, rfl⟩ := InitCall.returns.inj initialised
      rw [compiled, ← engine]
  have fixed : ∀ m ∈ Bridge.arrivals inputs,
      Engine.verdict (bpfPktFilter runFilter) s₀.engine m =
        (decide (AsksForIscOrg (m.data.take m.dataLen.toNat)), s₀.engine) := by
    intro m arrives
    have verdict := library.runs _ _ _ _ _ compiled (inBuffer m arrives)
      (runProgram_compiledCode _)
    rw [Engine.verdict, bpfPktFilter, verdict]
    by_cases asks : AsksForIscOrg (m.data.take m.dataLen.toNat)
    · simp only [asks]
      rfl
    · simp only [asks]
      rfl
  obtain ⟨s, run, boundary⟩ := Bridge.bridgeMainLoop_boundary (.fresh fresh) driver
    (bpfPktFilter runFilter) tscHz inputs
  refine ⟨s, run, ?_⟩
  rw [boundary.filteredPkts_eq, List.nil_append, Bridge.verdicts, judgeWith_of_fixed fixed, matched,
    List.filter_map, List.map_map]
  exact List.map_id _

/-- A slave whose libraries compile every program, to itself. -/
def bpfSlave : SlaveEnvironment Unit (List SockFilter) where
  files _ := none
  lib := ⟨fun _ => some (), fun t _ => (0, t), fun _ _ => -2, fun _ _ ret => ret⟩
  bpf := ⟨fun _ => none, some⟩
  strings := ⟨id, fun _ => true, fun _ _ => true, false⟩
  keysNb := 0
  linesNb := 0
  confId := 0
  socketId := 0

/-- The machine that runs the programs of `bpfSlave`. -/
def runFilterOf (fp : List SockFilter) (pkt : List UInt8) (pktLength : ℕ) : UInt32 :=
  (runProgram fp (pkt.take pktLength)).getD 0

theorem runFilterOf_runs : RunsPrograms bpfSlave.bpf runFilterOf := by
  refine ⟨fun code fp pkt pktLength verdict compiled _ returns => ?_⟩
  obtain rfl := Option.some.inj compiled
  rw [runFilterOf, returns, Option.getD_some]

/-- A burst of two packets, a query for the name and one that is cut off. -/
theorem bpf_filters_queries_twoPackets :
    let header : List UInt8 := List.replicate 14 0 ++ 0x45 :: List.replicate 39 0
    let query : RteMbuf := ⟨1, 0, 63, header ++ iscOrg⟩
    let cut : RteMbuf := ⟨2, 0, 62, header ++ iscOrg⟩
    ∃ s, Bridge.bridgeMainLoop ⟨fun _ pkts => pkts.length, fun _ _ => Nat.le_refl _⟩
        (bpfPktFilter runFilterOf) 1000000 (State.initial compiledCode)
        [⟨0, ⟨[query, cut], by decide⟩⟩] = some s ∧
      s.filteredPkts = [query, cut].filter fun m =>
        AsksForIscOrg (m.data.take m.dataLen.toNat) := by
  intro header query cut
  have initialised : bpfInit bpfSlave ⟨.initial, none, .empty, 0⟩ =
      .returns 0 ⟨.initial, some compiledCode, .empty, 0⟩ := rfl
  exact bpf_filters_queries runFilterOf_runs (State.Fresh.initial compiledCode) initialised rfl
    _ _ _ (by decide)

end Engine

end DdosFiltering.Engine
