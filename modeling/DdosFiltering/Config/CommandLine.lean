import DdosFiltering.Config.Lines

/-!
# The command line

`parse_args` of `parser.c`. `getopt_long` goes through the arguments and gives the options one by
one; `parse_args` acts on each option before it asks for the next one, and `--config-master`
parses the configuration file at once. `main` leaves the program when the result is
negative.

The arguments are those behind the name of the program. A product that does not fit in an `int`
makes the outcome `undefined`.
-/

set_option autoImplicit false

namespace DdosFiltering.Config

/-! ## `getopt_long` -/

/-- The entries of `options_long`. -/
inductive LongOption where
  | configMaster
  | configFdir
  | help
  | statsFile
  | statsTimer
deriving DecidableEq, Repr

namespace LongOption

/-- `name`: `PARAM_CONF_MASTER` and the others. -/
def name : LongOption → List Char
  | configMaster => "config-master".toList
  | configFdir => "config-fdir".toList
  | help => "help".toList
  | statsFile => "stats_f".toList
  | statsTimer => "stats_t".toList

/-- `has_arg`. -/
def hasArg : LongOption → Bool
  | help => false
  | _ => true

end LongOption

/-- `options_long`. -/
def optionsLong : List LongOption := [.configMaster, .configFdir, .help, .statsFile, .statsTimer]

/-- The long option with a name, or with a name that begins so. Several options may begin so,
when all of them have an argument or none has. -/
def findLong (name : List Char) : Option LongOption :=
  match optionsLong.find? fun o => o.name == name with
  | some o => some o
  | none =>
      match optionsLong.filter fun o => name.isPrefixOf o.name with
      | [] => none
      | o :: others => if others.all fun o' => o'.hasArg == o.hasArg then some o else none

/-- What `getopt_long` returns: an option with its argument, or `'?'`. -/
inductive Opt where
  | portmask (arg : List Char)
  | timer (arg : List Char)
  | long (o : LongOption) (arg : List Char)
  | invalid
deriving DecidableEq, Repr

/-- What one argument of the program is to `getopt_long`. -/
inductive Argument where
  | operand
  | endsOptions
  | option (o : Opt)
  | wantsNext (o : List Char → Opt)

/-- A long option, without its two dashes. -/
def longArgument (text : List Char) : Argument :=
  match findLong (text.takeWhile (· ≠ '=')), text.dropWhile (· ≠ '=') with
  | none, _ => .option .invalid
  | some o, [] => if o.hasArg then .wantsNext (.long o) else .option (.long o [])
  | some o, _ :: arg => .option (if o.hasArg then .long o arg else .invalid)

/-- A short option of `"p:T:"`, with the text behind it. -/
def shortArgument (c : Char) (text : List Char) : Argument :=
  let option : Option (List Char → Opt) :=
    match c with
    | 'p' => some .portmask
    | 'T' => some .timer
    | _ => none
  match option, text with
  | none, _ => .option .invalid
  | some o, [] => .wantsNext o
  | some o, arg => .option (o arg)

/-- What an argument is. -/
def argument : List Char → Argument
  | ['-', '-'] => .endsOptions
  | '-' :: '-' :: text => longArgument text
  | '-' :: c :: text => shortArgument c text
  | _ => .operand

/-- The options that `getopt_long` finds, and how many arguments they take. Operands are passed
over, or end the options where `POSIXLY_CORRECT` is set. -/
def getoptLong (posixlyCorrect : Bool) : List (List Char) → List Opt × ℕ
  | [] => ([], 0)
  | text :: rest =>
      match argument text with
      | .operand => if posixlyCorrect then ([], 0) else getoptLong posixlyCorrect rest
      | .endsOptions => ([], 1)
      | .option o =>
          let (os, n) := getoptLong posixlyCorrect rest
          (o :: os, n + 1)
      | .wantsNext o =>
          match rest with
          | [] => ([.invalid], 1)
          | arg :: rest =>
              let (os, n) := getoptLong posixlyCorrect rest
              (o arg :: os, n + 2)

/-! ## `parse_args` -/

/-- `MAX_FILE_NAME`. -/
def maxFileName : ℕ := 128

/-- `TIMER_MILLISECOND`. -/
def timerMillisecond : ℤ := 2660046

/-- `MAX_TIMER_PERIOD`. -/
def maxTimerPeriod : ℤ := 86400

/-- What the program finds: the files with their names, and what `parseConfigfile` and
`getoptLong` take as parameters. -/
structure Environment where
  files : List Char → Option (List UInt8)
  grow : ℕ → ℕ → ℕ
  unset : ℤ
  posixlyCorrect : Bool

/-- The global variables that `parse_args` writes. The names are what `strncpy` leaves in their
arrays. -/
structure Settings where
  globals : Globals
  configFileName : List Char
  fdir : ℤ
  fdirFileName : List Char
  timerFile : List Char
  timerPeriod : ℤ
  timerStats : ℤ

/-- `parse_portmask`. -/
def parsePortmask (portmask : List Char) : ℤ :=
  let (pm, rest) := strtoul portmask
  if portmask = [] ∨ rest ≠ [] then
    -1
  else if pm = 0 then
    -1
  else
    (pm.toNat : ℤ).bmod (2 ^ 32)

/-- `parse_timer_period`. -/
def parseTimerPeriod (arg : List Char) : ℤ :=
  let (value, rest) := strtol arg
  let n := value.bmod (2 ^ 32)
  if arg = [] ∨ rest ≠ [] then
    -1
  else if n ≥ maxTimerPeriod then
    -1
  else
    n

/-- An `int` times `TIMER_MILLISECOND`, an `unsigned long long`, in an `int64_t`. -/
def ticks (n : ℤ) : ℤ := (n * timerMillisecond).bmod (2 ^ 64)

theorem parseTimerPeriod_bounds (arg : List Char) :
    -2 ^ 31 ≤ parseTimerPeriod arg ∧ parseTimerPeriod arg < maxTimerPeriod := by
  simp only [parseTimerPeriod]
  generalize value : (strtol arg).1.bmod (2 ^ 32) = n
  have low : -2 ^ 31 ≤ n := value ▸ Int.le_bmod (by decide)
  have period : (-1 : ℤ) < maxTimerPeriod := by decide
  split
  · exact ⟨by decide, period⟩
  · split
    · exact ⟨by decide, period⟩
    · rename_i short
      exact ⟨low, Int.not_le.mp short⟩

/-- The product with an `int` fits in an `int64_t`. -/
theorem ticks_eq {n : ℤ} (low : -2 ^ 31 ≤ n) (high : n < 2 ^ 31) :
    ticks n = n * timerMillisecond := by
  unfold ticks timerMillisecond
  exact Int.bmod_eq_of_le (by omega) (by omega)

theorem ticks_neg_iff {n : ℤ} (low : -2 ^ 31 ≤ n) (high : n < 2 ^ 31) : ticks n < 0 ↔ n < 0 := by
  rw [ticks_eq low high]
  unfold timerMillisecond
  omega

/-- How `parse_args` goes on after an option. -/
inductive Handled where
  | undefined
  | exits
  | fails (s : Settings)
  | goesOn (s : Settings)

/-- One turn of the loop of `parse_args`. -/
def handle (env : Environment) (s : Settings) : Opt → Handled
  | .portmask arg =>
      let s := { s with globals.portMask := UInt32.ofInt (parsePortmask arg) }
      if s.globals.portMask = 0 then .fails s else .goesOn s
  | .timer arg =>
      let n := parseTimerPeriod arg * 1000
      if n < -2 ^ 31 ∨ 2 ^ 31 ≤ n then
        .undefined
      else
        let s := { s with timerPeriod := ticks n }
        if s.timerPeriod < 0 then .fails s else .goesOn s
  | .long .configMaster arg =>
      -- The result of `parse_configfile` is not used.
      match parseConfigfile env.grow env.unset s.globals (env.files arg) with
      | .undefined => .undefined
      | .returns _ g => .goesOn { s with configFileName := arg.take maxFileName, globals := g }
  | .long .configFdir arg => .goesOn { s with fdirFileName := arg.take maxFileName, fdir := 1 }
  | .long .help _ => .exits
  | .long .statsFile arg => .goesOn { s with timerFile := arg.take maxFileName }
  | .long .statsTimer arg =>
      let s := { s with timerStats := ticks (parseTimerPeriod arg) }
      if s.timerStats < 0 then .fails s else .goesOn s
  | .invalid => .fails s

/-- The loop of `parse_args`. -/
def handleAll (env : Environment) (s : Settings) : List Opt → Handled
  | [] => .goesOn s
  | o :: os =>
      match handle env s o with
      | .goesOn s => handleAll env s os
      | other => other

/-- What `parse_args` returns, unless the program leaves before. -/
inductive ArgsOutcome where
  | undefined
  | exits
  | returns (ret : ℤ) (s : Settings)

/-- `parse_args`. -/
def parseArgs (env : Environment) (s : Settings) (argv : List (List Char)) : ArgsOutcome :=
  let (os, n) := getoptLong env.posixlyCorrect argv
  match handleAll env s os with
  | .undefined => .undefined
  | .exits => .exits
  | .fails s => .returns (-1) s
  | .goesOn s => .returns n s

/-! ## Small instances -/

/-- The variables as `main` has set them before it calls `parse_args`. -/
def initial : Settings := ⟨unconfigured 0, [], 0, [], [], 10 * timerMillisecond * 1000, 0⟩

/-- A command line, in words. -/
def words (line : List String) : List (List Char) := line.map String.toList

end DdosFiltering.Config
