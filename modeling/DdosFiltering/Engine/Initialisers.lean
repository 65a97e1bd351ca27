import DdosFiltering.Control.Recreation
import DdosFiltering.Engine.FastStrstr
import DdosFiltering.Engine.Hash
import DdosFiltering.Engine.Modulo

/-!
# How a slave starts its engine

`bridge_init_engine` looks up the engine of its configuration, calls the initialiser of the
engine and enters a packet loop. The initialisers return 0 or report a failure, and
`bridge_init_engine` drops what they return: behind a failure it enters the loop as well. Only an
engine that is not known makes it leave. So a failure is followed by -1 exactly when there is none
(`failsClosed_iff`); which files and arguments that are is `Initialisable`.

The libraries that compile packet filters are a parameter (`BpfLibrary`).
-/

set_option autoImplicit false

namespace DdosFiltering.Engine

open Control (string2key engineLookup engineError)

/-! ## Packet filters -/

/-- `struct sock_filter`. -/
structure SockFilter where
  code : UInt16
  jt : UInt8
  jf : UInt8
  k : UInt32
deriving DecidableEq, Repr

/-- What the engines call of the libraries. `pcapCompile` is `none` when `pcap_compile` fails and
leaves the program unset, and `compileFilter` when the first `int` of what `compile_filter`
returns is negative. -/
structure BpfLibrary (Prog : Type) where
  pcapCompile : List UInt8 → Option (List SockFilter)
  compileFilter : List SockFilter → Option Prog

/-- `BPF_PCAP_MAX_ARGS`. -/
def bpfPcapMaxArgs : ℕ := 1024

/-- The `code` of `compile_bpf_filter2`. -/
def compiledCode : List SockFilter :=
  [⟨0xb1, 0, 0, 0x0000000e⟩, ⟨0, 0, 0, 0x00000022⟩, ⟨0x0c, 0, 0, 0⟩, ⟨0x07, 0, 0, 0⟩,
    ⟨0x40, 0, 0, 0⟩, ⟨0x15, 0, 5, 0x03697363⟩, ⟨0x40, 0, 0, 0x00000004⟩,
    ⟨0x15, 0, 3, 0x036f7267⟩, ⟨0x50, 0, 0, 0x00000008⟩, ⟨0x15, 0, 1, 0⟩,
    ⟨0x06, 0, 0, 0x00000001⟩, ⟨0x06, 0, 0, 0⟩]

/-! ## The initialisers -/

/-- The static variables of the engines. -/
structure EngineStatics (Table Prog : Type) where
  hash : HashState Table
  fp : Option Prog
  fastStr : FastStr
  modulo : Int32

/-- What the initialisers find: the files, the libraries, what happens to be in their unset
variables, and the slave that they run in. -/
structure SlaveEnvironment (Table Prog : Type) where
  files : List Char → Option (List UInt8)
  lib : RteHash Table
  bpf : BpfLibrary Prog
  strings : StringLibrary
  keysNb : UInt64
  linesNb : ℤ
  confId : ℕ
  socketId : Fin nbSockets

variable {Table Prog : Type}

/-- How the call of an initialiser ends. -/
inductive InitCall (Table Prog : Type) where
  | undefined
  | exits
  | returns (ret : ℤ) (g : EngineStatics Table Prog)

/-- `compile_bpf_program` and `compile_pcap_bpf_program`, in an initialiser that then returns 0. -/
def compileBpfProgram (bpf : BpfLibrary Prog) (code : List SockFilter)
    (g : EngineStatics Table Prog) : InitCall Table Prog :=
  match bpf.compileFilter code with
  | none => .exits
  | some fp => .returns 0 { g with fp := some fp }

/-- `l2fwd_init`. -/
def l2fwdInit (g : EngineStatics Table Prog) : InitCall Table Prog := .returns 0 g

/-- `BPF_init`. -/
def bpfInit (env : SlaveEnvironment Table Prog) (g : EngineStatics Table Prog) :
    InitCall Table Prog :=
  compileBpfProgram env.bpf compiledCode g

/-- `BPF_pcap_init`. -/
def bpfPcapInit (env : SlaveEnvironment Table Prog) (args : List Char)
    (g : EngineStatics Table Prog) : InitCall Table Prog :=
  match env.files args with
  -- `getline` gets the null pointer of `fopen`.
  | none => .undefined
  | some file =>
      match lines file with
      | [] => .returns (-1) g
      | line :: _ =>
          if line.length > bpfPcapMaxArgs then
            .returns (-1) g
          else
            match env.bpf.pcapCompile line with
            -- The failure is printed, and the unset program is compiled.
            | none => .undefined
            | some code => compileBpfProgram env.bpf code g

/-- `fast_str_init`. -/
def fastStrInit (env : SlaveEnvironment Table Prog) (args : List Char)
    (g : EngineStatics Table Prog) : InitCall Table Prog :=
  match fastStrCompile env.strings (env.files args) env.linesNb with
  | .exits => .exits
  -- The process has ended as well.
  | .aborts => .exits
  | .fails => .exits
  | .returns t => .returns 0 { g with fastStr := t }

/-- The call of `init_hash`. -/
def initHashCall (env : SlaveEnvironment Table Prog) (args : List Char)
    (g : EngineStatics Table Prog) : InitCall Table Prog :=
  match initHash env.lib (env.files args) env.keysNb env.confId env.socketId g.hash with
  | none => .exits
  | some (ret, hash) => .returns ret { g with hash := hash }

/-- The call of `modulo_init`. -/
def moduloInitCall (args : List Char) (g : EngineStatics Table Prog) : InitCall Table Prog :=
  .returns (moduloInit args).1 { g with modulo := (moduloInit args).2 }

/-! ## `bridge_init_engine` -/

/-- The engines of `bridge_main_loop`. -/
inductive FilterEngine where
  | l2fwd
  | bpfPktFilter
  | fastStrstrFilterOneHashed
  | moduloEngine
deriving DecidableEq, Repr

/-- The packet loops. `bridge_loop_optimized` is called with `hash_pkt_filter4` and
`hash_pkt_filter`. -/
inductive Loop where
  | bridgeMainLoop (engine : FilterEngine)
  | bridgeLoopOptimized
deriving DecidableEq, Repr

/-- What `bridge_init_engine` does: it returns at once, or it enters a loop and returns 0 when the
loop comes back. -/
inductive Start (Table Prog : Type) where
  | undefined
  | exits
  | leaves (ret : ℤ)
  | enters (loop : Loop) (g : EngineStatics Table Prog)

/-- What `bridge_init_engine` returns, if it does. -/
def Start.Returns (start : Start Table Prog) (ret : ℤ) : Prop :=
  match start with
  | .leaves ret' => ret' = ret
  | .enters _ _ => 0 = ret
  | _ => True

/-- The result of the initialiser is dropped. -/
def InitCall.enters (call : InitCall Table Prog) (loop : Loop) : Start Table Prog :=
  match call with
  | .undefined => .undefined
  | .exits => .exits
  | .returns _ g => .enters loop g

/-- `bridge_init_engine`. -/
def bridgeInitEngine (env : SlaveEnvironment Table Prog) (g : EngineStatics Table Prog)
    (engine args : List Char) : Start Table Prog :=
  match string2key engine with
  | 0 => (l2fwdInit g).enters (.bridgeMainLoop .l2fwd)
  | 1 => (bpfInit env g).enters (.bridgeMainLoop .bpfPktFilter)
  | 2 => (bpfPcapInit env args g).enters (.bridgeMainLoop .bpfPktFilter)
  | 3 => (fastStrInit env args g).enters (.bridgeMainLoop .fastStrstrFilterOneHashed)
  | 4 => (moduloInitCall args g).enters (.bridgeMainLoop .moduloEngine)
  | 5 => (initHashCall env args g).enters .bridgeLoopOptimized
  -- `ENGINE_ERROR`: `string2key` has no other results.
  | _ => .leaves (-1)

/-- The initialiser of an engine. -/
def initialiser (env : SlaveEnvironment Table Prog) (g : EngineStatics Table Prog)
    (engine args : List Char) : Option (InitCall Table Prog) :=
  match string2key engine with
  | 0 => some (l2fwdInit g)
  | 1 => some (bpfInit env g)
  | 2 => some (bpfPcapInit env args g)
  | 3 => some (fastStrInit env args g)
  | 4 => some (moduloInitCall args g)
  | 5 => some (initHashCall env args g)
  | _ => none

/-! ## Reported failures -/

namespace InitCall

/-- The call does not report a failure. -/
def Succeeds (call : InitCall Table Prog) : Prop := ∀ ret g, call = .returns ret g → ret = 0

theorem succeeds_returns {ret : ℤ} {g : EngineStatics Table Prog} :
    (InitCall.returns ret g).Succeeds ↔ ret = 0 := by
  constructor
  · exact fun succeeds => succeeds ret g rfl
  · rintro zero ret' g' same
    obtain ⟨rfl, -⟩ := InitCall.returns.inj same
    exact zero

theorem succeeds_undefined : (InitCall.undefined : InitCall Table Prog).Succeeds := by
  intro ret g same
  cases same

theorem succeeds_exits : (InitCall.exits : InitCall Table Prog).Succeeds := by
  intro ret g same
  cases same

theorem enters_returns (call : InitCall Table Prog) (loop : Loop) :
    (call.enters loop).Returns 0 := by
  cases call with
  | undefined => trivial
  | exits => trivial
  | returns ret g => rfl

/-- Behind a reported failure, `bridge_init_engine` enters the loop. -/
theorem enters_ne_leaves (call : InitCall Table Prog) (loop : Loop) (ret : ℤ) :
    call.enters loop ≠ .leaves ret := by
  cases call <;> exact nofun

end InitCall

section Initialisers

variable {env : SlaveEnvironment Table Prog} {g : EngineStatics Table Prog} {args : List Char}

theorem compileBpfProgram_succeeds (bpf : BpfLibrary Prog) (code : List SockFilter) :
    (compileBpfProgram bpf code g).Succeeds := by
  unfold compileBpfProgram
  cases bpf.compileFilter code with
  | none => exact InitCall.succeeds_exits
  | some fp => exact InitCall.succeeds_returns.mpr rfl

theorem l2fwdInit_succeeds (g : EngineStatics Table Prog) : (l2fwdInit g).Succeeds :=
  InitCall.succeeds_returns.mpr rfl

theorem fastStrInit_succeeds : (fastStrInit env args g).Succeeds := by
  unfold fastStrInit
  cases fastStrCompile env.strings (env.files args) env.linesNb with
  | exits | aborts | fails => exact InitCall.succeeds_exits
  | returns t => exact InitCall.succeeds_returns.mpr rfl

/-- `BPF_pcap_init` reports a file without a first line, and a line that is too long. -/
theorem bpfPcapInit_succeeds_iff :
    (bpfPcapInit env args g).Succeeds ↔
      ∀ file, env.files args = some file →
        ∃ line rest, lines file = line :: rest ∧ line.length ≤ bpfPcapMaxArgs := by
  unfold bpfPcapInit
  cases env.files args with
  | none => exact iff_of_true InitCall.succeeds_undefined nofun
  | some file =>
      simp only [Option.some.injEq, forall_eq']
      cases lines file with
      | nil => exact iff_of_false (mt InitCall.succeeds_returns.mp (by decide)) nofun
      | cons line rest =>
          simp only [List.cons.injEq]
          by_cases long : line.length > bpfPcapMaxArgs
          · rw [if_pos long]
            refine iff_of_false (mt InitCall.succeeds_returns.mp (by decide)) ?_
            rintro ⟨line', rest', ⟨rfl, -⟩, short⟩
            exact Nat.not_le.mpr long short
          · rw [if_neg long]
            refine iff_of_true ?_ ⟨line, rest, ⟨rfl, rfl⟩, Nat.le_of_not_lt long⟩
            cases env.bpf.pcapCompile line with
            | none => exact InitCall.succeeds_undefined
            | some code => exact compileBpfProgram_succeeds env.bpf code

/-- `modulo_init` reports a negative number. -/
theorem moduloInitCall_succeeds_iff :
    (moduloInitCall args g).Succeeds ↔ ¬atoiInt args < 0 := by
  rw [moduloInitCall, InitCall.succeeds_returns]
  unfold moduloInit
  by_cases negative : atoiInt args < 0
  · simp only [if_pos negative]
    exact iff_of_false (by decide) (not_not.mpr negative)
  · simp only [if_neg negative]
    exact iff_of_true trivial negative

/-- What `init_hash` returns. -/
theorem initHashCall_succeeds_of_zero
    (zero : ∀ ret hash, initHash env.lib (env.files args) env.keysNb env.confId env.socketId
      g.hash = some (ret, hash) → ret = 0) : (initHashCall env args g).Succeeds := by
  unfold initHashCall
  cases called : initHash env.lib (env.files args) env.keysNb env.confId env.socketId g.hash with
  | none => exact InitCall.succeeds_exits
  | some result => exact InitCall.succeeds_returns.mpr (zero result.1 result.2 called)

/-- A table that is created and filled is installed, and `init_hash` returns 0. -/
theorem filled_returns_zero {lib : RteHash Table} {params : RteHashParameters}
    {state : HashState Table} {socketId : Fin nbSockets} {result : ℤ × HashState Table}
    (filled : ((lib.create params).bind fun h =>
      (fillIpv4 lib state h).map fun (g, h) => ((0 : ℤ), g.install socketId h)) = some result) :
    result.1 = 0 := by
  obtain ⟨h, -, mapped⟩ := Option.bind_eq_some_iff.mp filled
  obtain ⟨after, -, rfl⟩ := Option.map_eq_some_iff.mp mapped
  rfl

/-- The file begins with a line that is not blank. -/
def BeginsWithLine (file : Option (List UInt8)) : Prop :=
  ∃ buff rest, file.bind (fgets configMaxArgsLen) = some (buff, rest) ∧
    scanInteger (cString buff) ≠ .eof

/-- A file that cannot be opened or begins with a blank line is reported, and nothing is set. -/
theorem initHashCall_reports (missing : ¬BeginsWithLine (env.files args)) :
    initHashCall env args g = .returns (-1) g := by
  cases read : (env.files args).bind (fgets configMaxArgsLen) with
  | none =>
      simp only [initHashCall, initHash, read]
  | some result =>
      obtain ⟨buff, rest⟩ := result
      have eof : scanInteger (cString buff) = .eof := by
        by_contra number
        exact missing ⟨buff, rest, read, number⟩
      simp only [initHashCall, initHash, read, eof]

theorem initHashCall_succeeds (begins : BeginsWithLine (env.files args)) :
    (initHashCall env args g).Succeeds := by
  obtain ⟨buff, rest, read, number⟩ := begins
  apply initHashCall_succeeds_of_zero
  intro ret hash called
  simp only [initHash, read] at called
  cases conversion : scanInteger (cString buff) with
  | eof => exact absurd conversion number
  | noMatch =>
      rw [conversion] at called
      exact filled_returns_zero called
  | value n =>
      rw [conversion] at called
      exact filled_returns_zero called

/-- `init_hash` reports a file that it cannot open, and one with a blank first line. -/
theorem initHashCall_succeeds_iff :
    (initHashCall env args g).Succeeds ↔ BeginsWithLine (env.files args) := by
  constructor
  · intro succeeds
    by_contra missing
    rw [initHashCall_reports missing, InitCall.succeeds_returns] at succeeds
    exact absurd succeeds (by decide)
  · exact initHashCall_succeeds

end Initialisers

/-! ## Failures and the loops -/

/-- A reported failure of the initialiser makes `bridge_init_engine` return -1, without a loop. -/
def FailsClosed (env : SlaveEnvironment Table Prog) (g : EngineStatics Table Prog)
    (engine args : List Char) : Prop :=
  ∀ ret g', initialiser env g engine args = some (.returns ret g') → ret ≠ 0 →
    bridgeInitEngine env g engine args = .leaves (-1)

/-- The initialiser of the engine finds nothing to report: the file of `HASH` begins with a line
that is not blank, the number of `MODULO` is not negative, and the file of `BPF_PCAP`, if it can
be opened, has a first line that is not too long. -/
structure Initialisable (files : List Char → Option (List UInt8)) (engine args : List Char) :
    Prop where
  hash : engine = "HASH".toList → BeginsWithLine (files args)
  modulo : engine = "MODULO".toList → ¬atoiInt args < 0
  bpfPcap : engine = "BPF_PCAP".toList →
    ∀ file, files args = some file →
      ∃ line rest, lines file = line :: rest ∧ line.length ≤ bpfPcapMaxArgs

section Start

variable {env : SlaveEnvironment Table Prog} {g : EngineStatics Table Prog}
  {engine args : List Char}

/-- When the engine is known, failures lead to no loop only if there are none. -/
theorem failsClosed_iff_succeeds {call : InitCall Table Prog} {loop : Loop}
    (called : initialiser env g engine args = some call)
    (entered : bridgeInitEngine env g engine args = call.enters loop) :
    FailsClosed env g engine args ↔ call.Succeeds := by
  unfold FailsClosed InitCall.Succeeds
  rw [called, entered]
  constructor
  · intro closed ret g' same
    by_contra failure
    exact call.enters_ne_leaves loop (-1) (closed ret g' (congrArg some same) failure)
  · intro succeeds ret g' same failure
    exact absurd (succeeds ret g' (Option.some.inj same)) failure

/-- A name is in the table of the engines, or it is not known. -/
theorem string2key_cases (engine : List Char) :
    (∃ e ∈ engineLookup, e.1 = engine ∧ string2key engine = e.2) ∨
      engine ∉ engineLookup.map Prod.fst ∧ string2key engine = engineError := by
  unfold string2key
  cases found : engineLookup.find? fun e => e.1 == engine with
  | some e =>
      have same : e.1 = engine := by simpa using List.find?_some found
      exact .inl ⟨e, List.mem_of_find?_eq_some found, same, rfl⟩
  | none =>
      refine .inr ⟨?_, rfl⟩
      intro listed
      obtain ⟨e, member, same⟩ := List.mem_map.mp listed
      exact List.find?_eq_none.mp found e member (beq_iff_eq.mpr same)

/-- Three engines have something to report. -/
theorem initialisable_of_silent {files : List Char → Option (List UInt8)}
    (silent : engine ∉ ["HASH".toList, "MODULO".toList, "BPF_PCAP".toList]) :
    Initialisable files engine args := by
  simp only [List.mem_cons, List.not_mem_nil, or_false, not_or] at silent
  obtain ⟨notHash, notModulo, notPcap⟩ := silent
  exact ⟨fun hash => absurd hash notHash, fun modulo => absurd modulo notModulo,
    fun pcap => absurd pcap notPcap⟩

/-- **When a failed engine never filters**: the initialiser of the engine has nothing to report. -/
theorem failsClosed_iff :
    FailsClosed env g engine args ↔ Initialisable env.files engine args := by
  rcases string2key_cases engine with ⟨e, listed, rfl, key⟩ | ⟨unlisted, key⟩
  · simp only [engineLookup, List.mem_cons, List.not_mem_nil, or_false] at listed
    rcases listed with rfl | rfl | rfl | rfl | rfl | rfl
    · exact iff_of_true ((failsClosed_iff_succeeds rfl rfl).mpr (l2fwdInit_succeeds g))
        (initialisable_of_silent (by decide))
    · exact iff_of_true
        ((failsClosed_iff_succeeds rfl rfl).mpr (compileBpfProgram_succeeds env.bpf _))
        (initialisable_of_silent (by decide))
    · rw [failsClosed_iff_succeeds rfl rfl, bpfPcapInit_succeeds_iff]
      exact ⟨fun pcap => ⟨fun no => absurd no (by decide), fun no => absurd no (by decide),
        fun _ => pcap⟩, fun initialisable => initialisable.bpfPcap rfl⟩
    · exact iff_of_true ((failsClosed_iff_succeeds rfl rfl).mpr fastStrInit_succeeds)
        (initialisable_of_silent (by decide))
    · rw [failsClosed_iff_succeeds rfl rfl, moduloInitCall_succeeds_iff]
      exact ⟨fun modulo => ⟨fun no => absurd no (by decide), fun _ => modulo,
        fun no => absurd no (by decide)⟩, fun initialisable => initialisable.modulo rfl⟩
    · rw [failsClosed_iff_succeeds rfl rfl, initHashCall_succeeds_iff]
      exact ⟨fun hash => ⟨fun _ => hash, fun no => absurd no (by decide),
        fun no => absurd no (by decide)⟩, fun initialisable => initialisable.hash rfl⟩
  · refine iff_of_true ?_ (initialisable_of_silent ?_)
    · intro ret g' called
      simp only [initialiser, key, engineError] at called
      cases called
    · intro member
      simp only [List.mem_cons, List.not_mem_nil, or_false] at member
      rcases member with rfl | rfl | rfl <;> exact unlisted (by decide)

/-- What `bridge_init_engine` returns depends on the name of the engine only. -/
theorem bridgeInitEngine_returns (env : SlaveEnvironment Table Prog)
    (g : EngineStatics Table Prog) (engine args : List Char) :
    (bridgeInitEngine env g engine args).Returns (Control.bridgeInitEngine engine) := by
  rcases string2key_cases engine with ⟨e, listed, rfl, key⟩ | ⟨unlisted, key⟩
  · simp only [engineLookup, List.mem_cons, List.not_mem_nil, or_false] at listed
    rcases listed with rfl | rfl | rfl | rfl | rfl | rfl
    · exact (l2fwdInit g).enters_returns (.bridgeMainLoop .l2fwd)
    · exact (bpfInit env g).enters_returns (.bridgeMainLoop .bpfPktFilter)
    · exact (bpfPcapInit env args g).enters_returns (.bridgeMainLoop .bpfPktFilter)
    · exact (fastStrInit env args g).enters_returns (.bridgeMainLoop .fastStrstrFilterOneHashed)
    · exact (moduloInitCall args g).enters_returns (.bridgeMainLoop .moduloEngine)
    · exact (initHashCall env args g).enters_returns .bridgeLoopOptimized
  · simp only [bridgeInitEngine, key, engineError, Control.bridgeInitEngine, if_true]
    rfl

/-- A slave whose `init_hash` fails enters the loop with the tables it had before. Where it had
none, four packets at a time get no verdict. -/
theorem failed_hash_enters {position : Table → M128i → Option ℕ}
    (library : env.lib.LooksUp position) (missing : ¬BeginsWithLine (env.files args)) :
    bridgeInitEngine env g "HASH".toList args = .enters .bridgeLoopOptimized g ∧
      (g.hash.ipv4BridgeLookupStruct 0 = none →
        ∀ m ret, hashPktFilter4 env.lib g.hash m ret = (ret, g.hash)) := by
  constructor
  · have entered : bridgeInitEngine env g "HASH".toList args =
        (initHashCall env args g).enters .bridgeLoopOptimized := rfl
    rw [entered, initHashCall_reports missing]
    rfl
  · intro noTable m ret
    rw [hashPktFilter4, noTable, library.lookupMulti_none]

end Start

/-- A slave without files and without tables. -/
def noFiles : SlaveEnvironment Unit Unit where
  files _ := none
  lib := ⟨fun _ => some (), fun t _ => (0, t), fun _ _ => -2, fun _ _ ret => ret⟩
  bpf := ⟨fun _ => none, fun _ => some ()⟩
  strings := ⟨id, fun _ => true, fun _ _ => true, false⟩
  keysNb := 0
  linesNb := 0
  confId := 0
  socketId := 0

/-- Without its file, the engine `HASH` still filters. -/
theorem failed_engine_filters :
    ¬∀ (env : SlaveEnvironment Unit Unit) (g : EngineStatics Unit Unit) (engine args : List Char),
      FailsClosed env g engine args := by
  intro claim
  have closed := claim noFiles ⟨.initial, none, .empty, 0⟩ "HASH".toList "keys".toList
    (-1) ⟨.initial, none, .empty, 0⟩ rfl (by decide)
  have entered : bridgeInitEngine noFiles ⟨.initial, none, .empty, 0⟩ "HASH".toList
      "keys".toList = .enters .bridgeLoopOptimized ⟨.initial, none, .empty, 0⟩ := rfl
  cases closed.symm.trans entered

end DdosFiltering.Engine
