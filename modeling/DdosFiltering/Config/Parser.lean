import DdosFiltering.Libc
import DdosFiltering.MainHeader
import Mathlib.Logic.Function.Basic

/-!
# The configuration file

`parse_configfile` of `parser.c`. The file begins with lines that are skipped, and the first
one says how many. Every other line describes one entry of `proc_config`, under an id that the
file chooses. A line with a port that is not in the port mask is passed over, and the
others are counted in `proc_config_nb`.

An access outside an array or a shift by 32 or more makes the outcome `undefined`. `getline`
keeps its buffer from line to line; how large it is after a line is a parameter. So is the value
of `lines_nb` where `sscanf` stores none.
-/

set_option autoImplicit false

namespace DdosFiltering.Config

/-- `RTE_MAX_ETHPORTS`, as DPDK is configured by default. -/
def rteMaxEthports : ℕ := 32

/-- `CONFIG_MAX_ENGINE_LEN`. -/
def configMaxEngineLen : ℕ := 64

/-- `CONFIG_MAX_ARGS_LEN`. -/
def configMaxArgsLen : ℕ := 128

/-- `IPC_MSG_SIZE`. -/
def ipcMsgSize : ℕ := 128

/-- What the parser writes in a `struct proc_config_s`. -/
structure ProcConfig where
  enabled : ℤ
  used : ℤ
  portRx : UInt8
  portTx : UInt8
  queueRx : UInt8
  queueTx : UInt8
  engine : List Char
  args : List Char
deriving DecidableEq, Repr

/-- What the parser writes in a `struct port_queue_conf_s`. -/
structure PortQueueConf where
  queueRxNb : UInt16
  queueTxNb : UInt16
deriving DecidableEq, Repr

/-- The global variables that the parser reads and writes. -/
structure Globals where
  portMask : UInt32
  procConfigNb : ℤ
  procConfig : LcoreId → ProcConfig
  portQueueConf : Fin rteMaxEthports → PortQueueConf

/-- What `parse_configfile` returns and leaves in the global variables. -/
inductive Outcome where
  | undefined
  | returns (ret : ℤ) (g : Globals)

/-- The values that `sscanf` reads from a line. -/
structure ConfigLine where
  configId : ℤ
  pRx : UInt32
  pTx : UInt32
  qRx : UInt32
  qTx : UInt32
  engine : List Char
  args : List Char
deriving DecidableEq, Repr

/-- `sscanf(line,"%d %d %d %d %d %s %s",...)`. `none`: it returns less than 6. -/
def ConfigLine.scan (text : List Char) : Option ConfigLine := do
  let (configId, text) ← scanInt text
  let (pRx, text) ← scanInt text
  let (pTx, text) ← scanInt text
  let (qRx, text) ← scanInt text
  let (qTx, text) ← scanInt text
  let (engine, text) ← scanWord text
  let args := match scanWord text with
    | some (args, _) => args
    | none => []
  return {
    configId, engine, args
    pRx := UInt32.ofInt pRx
    pTx := UInt32.ofInt pTx
    qRx := UInt32.ofInt qRx
    qTx := UInt32.ofInt qTx }

namespace Globals

/-- `main_information.port_mask & (1 << port)`, for a port below 32. -/
def inMask (mask : UInt32) (port : UInt32) : Bool := mask &&& (1 <<< port) != 0

/-- `memset(proc_config, 0, sizeof(proc_config))`. -/
def zeroProcConfig (g : Globals) : Globals :=
  { g with procConfig := fun _ => ⟨0, 0, 0, 0, 0, 0, [], []⟩ }

/-- The entry `c` is enabled and filled from the line, and its queues are counted. -/
def enable (g : Globals) (c : LcoreId) (rx tx : Fin rteMaxEthports) (line : ConfigLine) :
    Globals :=
  let entry : ProcConfig :=
    { g.procConfig c with
      enabled := 1
      portTx := line.pTx.toUInt8
      portRx := line.pRx.toUInt8
      queueTx := line.qTx.toUInt8
      queueRx := line.qRx.toUInt8
      engine := line.engine
      args := line.args }
  let ports := g.portQueueConf
  let ports := Function.update ports tx { ports tx with queueTxNb := (ports tx).queueTxNb + 1 }
  let ports := Function.update ports rx { ports rx with queueRxNb := (ports rx).queueRxNb + 1 }
  { g with procConfig := Function.update g.procConfig c entry, portQueueConf := ports }

end Globals

/-- The loop over the lines of the configuration. `nb` is the local variable `proc_config_nb`,
and `len` the size of the buffer of `getline`. -/
def parseLines (grow : ℕ → ℕ → ℕ) (g : Globals) (nb : ℤ) (len : ℕ) : List (List UInt8) → Outcome
  | [] => .returns 0 { g with procConfigNb := nb }
  | bytes :: rest =>
      let len := grow len bytes.length
      if len > ipcMsgSize - 1 then
        .returns (-1) g
      else
        match ConfigLine.scan (cString bytes) with
        | none => .returns (-1) g
        | some line =>
            if configMaxEngineLen ≤ line.engine.length ∨ configMaxArgsLen ≤ line.args.length then
              .undefined
            else if ports : line.pRx.toNat < rteMaxEthports ∧ line.pTx.toNat < rteMaxEthports then
              if !Globals.inMask g.portMask line.pRx || !Globals.inMask g.portMask line.pTx then
                parseLines grow g nb len rest
              else if inside : 0 ≤ line.configId ∧ line.configId.toNat < rteMaxLcore then
                let c : LcoreId := ⟨line.configId.toNat, inside.2⟩
                if (g.procConfig c).enabled = 0 then
                  let g := g.enable c ⟨line.pRx.toNat, ports.1⟩ ⟨line.pTx.toNat, ports.2⟩ line
                  parseLines grow g (nb + 1) len rest
                else
                  .returns (-1) g
              else
                .undefined
            else
              .undefined

/-- The loop over the lines that are skipped: the lines after them and the size of the buffer.
`none`: a line is missing. -/
def skipLines (grow : ℕ → ℕ → ℕ) (linesNb : ℤ) (len : ℕ) :
    List (List UInt8) → Option (List (List UInt8) × ℕ)
  | [] => if linesNb = 0 then some ([], len) else none
  | bytes :: rest =>
      if linesNb = 0 then
        some (bytes :: rest, len)
      else
        skipLines grow (linesNb - 1) (grow len bytes.length) rest

/-- `lines_nb` after the `sscanf` of the first line. `none`: there is no number to read. -/
def readLinesNb (unset : ℤ) (buff : List UInt8) : Option ℤ :=
  match scanInteger (cString buff) with
  | .eof => none
  | .noMatch => some unset
  | .value n => some (storedInt n)

/-- `parse_configfile`. `file` is `none` when it cannot be opened. -/
def parseConfigfile (grow : ℕ → ℕ → ℕ) (unset : ℤ) (g : Globals) (file : Option (List UInt8)) :
    Outcome :=
  let g := g.zeroProcConfig
  match file with
  | none => .returns (-1) g
  | some file =>
      match fgets 29 file with
      | none => .returns (-1) g
      | some (buff, _) =>
          match readLinesNb unset buff with
          | none => .returns (-1) g
          | some linesNb =>
              if linesNb > 200 then
                .returns (-1) g
              else
                match skipLines grow linesNb 0 (lines file) with
                | none => .returns (-1) g
                | some (rest, len) => parseLines grow g 0 len rest

end DdosFiltering.Config
