import DdosFiltering.Config.Rejections

/-!
# The order of the options

`--config-master` parses the file under the port mask of that moment. In front of `-p` the mask is
still zero and every line is passed over; behind it, the lines of the enabled ports are
stored. So the two orders leave the same exactly if the file stores nothing under the mask
either (`option_order_iff`).
-/

set_option autoImplicit false

namespace DdosFiltering.Config

/-! ## Results -/

/-- The kind of a result, refused or not, and the globals that it leaves. -/
def Handled.result : Handled → Option (Bool × Globals)
  | .fails s => some (true, s.globals)
  | .goesOn s => some (false, s.globals)
  | _ => none

/-- The kind of a result, negative or not, and the globals that it leaves. -/
def ArgsOutcome.result : ArgsOutcome → Option (Bool × Globals)
  | .returns ret s => some (ret < 0, s.globals)
  | _ => none

/-- `parse_args` returns with the same globals, and with a negative value both times or none. -/
def SameResult (outcome outcome' : ArgsOutcome) : Prop :=
  outcome.result ≠ none ∧ outcome.result = outcome'.result

theorem parseArgs_result (env : Environment) (s : Settings) (argv : List (List Char)) :
    (parseArgs env s argv).result =
      (handleAll env s (getoptLong env.posixlyCorrect argv).1).result := by
  simp only [parseArgs]
  cases handleAll env s (getoptLong env.posixlyCorrect argv).1 with
  | undefined => rfl
  | exits => rfl
  | fails s' => rfl
  | goesOn s' =>
      have count : decide (((getoptLong env.posixlyCorrect argv).2 : ℤ) < 0) = false :=
        decide_eq_false (by omega)
      simp only [ArgsOutcome.result, Handled.result, count]

/-! ## Other options -/

/-- `parse_args` accepts the option, and it is neither `-p` nor `--config-master`. -/
def Opt.Plain : Opt → Prop
  | .timer arg => 0 ≤ parseTimerPeriod arg
  | .long .configFdir _ => True
  | .long .statsFile _ => True
  | .long .statsTimer arg => 0 ≤ parseTimerPeriod arg
  | _ => False

theorem handle_plain {o : Opt} (plain : o.Plain) (env : Environment) (s : Settings) :
    ∃ s', handle env s o = .goesOn s' ∧ s'.globals = s.globals := by
  cases o with
  | portmask arg => exact absurd plain id
  | timer arg =>
      have nonneg : 0 ≤ parseTimerPeriod arg := plain
      rw [handle_timer, if_neg (by omega), if_neg (by omega)]
      exact ⟨_, rfl, rfl⟩
  | long option arg =>
      cases option with
      | configMaster => exact absurd plain id
      | configFdir => exact ⟨_, rfl, rfl⟩
      | help => exact absurd plain id
      | statsFile => exact ⟨_, rfl, rfl⟩
      | statsTimer =>
          have nonneg : 0 ≤ parseTimerPeriod arg := plain
          rw [handle_statsTimer, if_neg (by omega)]
          exact ⟨_, rfl, rfl⟩
  | invalid => exact absurd plain id

/-- Other options do not change the globals, by induction on the options. -/
theorem handleAll_plain {os : List Opt} (plain : ∀ o ∈ os, o.Plain) (env : Environment)
    (s : Settings) : ∃ s', s'.globals = s.globals ∧ handleAll env s os = .goesOn s' := by
  induction os generalizing s with
  | nil => exact ⟨s, rfl, rfl⟩
  | cons o os inductionHypothesis =>
      obtain ⟨first, later⟩ := List.forall_mem_cons.mp plain
      obtain ⟨s', handled, same⟩ := handle_plain first env s
      obtain ⟨s'', same', reached⟩ := inductionHypothesis later s'
      refine ⟨s'', same'.trans same, ?_⟩
      rw [handleAll, handled]
      exact reached

theorem handleAll_plain_append {os : List Opt} (plain : ∀ o ∈ os, o.Plain) (env : Environment)
    (s : Settings) (more : List Opt) :
    ∃ s', s'.globals = s.globals ∧ handleAll env s (os ++ more) = handleAll env s' more := by
  obtain ⟨s', same, reached⟩ := handleAll_plain plain env s
  exact ⟨s', same, handleAll_append reached more⟩

/-! ## The file under a mask -/

/-- The globals that `parse_configfile` leaves. -/
def configured (env : Environment) (g : Globals) (f : List Char) : Option Globals :=
  match parseConfigfile env.grow env.unset g (env.files f) with
  | .undefined => none
  | .returns _ g' => some g'

/-- The lines that are read of the file. -/
def linesOf (env : Environment) (f : List Char) : List ConfigLine :=
  (readFile env.grow env.unset (env.files f)).lines

/-- Lines that leave no entry enabled are passed over, by induction on the lines. -/
theorem masked_of_unused {g g' : Globals} {nb ret : ℤ} {ls : List ConfigLine} {complete : Bool}
    (stored : storeLines g nb ls complete = .returns ret g')
    (unused : ∀ line : ConfigLine, ¬line.IsUsed g') :
    ∀ line ∈ ls, line.Safe g.portMask ∧ line.unmasked g.portMask = false := by
  induction ls generalizing nb with
  | nil =>
      intro line member
      exact absurd member List.not_mem_nil
  | cons line ls inductionHypothesis =>
      obtain ⟨safe, ⟨masked, later⟩ | ⟨-, used, rfl⟩ | ⟨unmasked, later⟩⟩ := storeLines_cons stored
      · exact List.forall_mem_cons.mpr ⟨⟨safe, masked⟩, inductionHypothesis later⟩
      · exact absurd used (unused line)
      · have used : line.IsUsed (g.enableLine line) :=
          (isUsed_enableLine_iff safe unmasked line).mpr (.inl rfl)
        exact absurd (storeLines_keeps later used) (unused line)

/-- Lines that are passed over change nothing, by induction on the lines. -/
theorem storeLines_of_masked {g : Globals} {nb : ℤ} {ls : List ConfigLine} {complete : Bool}
    (masked : ∀ line ∈ ls, line.Safe g.portMask ∧ line.unmasked g.portMask = false) :
    storeLines g nb ls complete = storeLines g nb [] complete := by
  induction ls with
  | nil => rfl
  | cons line ls inductionHypothesis =>
      obtain ⟨⟨safe, passed⟩, later⟩ := List.forall_mem_cons.mp masked
      rw [storeLines, if_neg (not_not.mpr safe), if_pos passed]
      exact inductionHypothesis later

/-- **A file that configures nothing** has no line with both ports in the mask. -/
theorem configured_eq_iff {env : Environment} {mask : UInt32} {f : List Char} :
    configured env (unconfigured mask) f = some (unconfigured mask) ↔
      ∀ line ∈ linesOf env f, line.Safe mask ∧ line.unmasked mask = false := by
  unfold configured linesOf
  rw [parseConfigfile_eq]
  constructor
  · intro same
    split at same
    · exact absurd same nofun
    · rename_i stored
      obtain rfl := Option.some.inj same
      exact masked_of_unused stored fun line => not_isUsed_zeroProcConfig (unconfigured mask) line
  · intro masked
    rw [storeLines_of_masked (g := (unconfigured mask).zeroProcConfig) masked]
    cases (readFile env.grow env.unset (env.files f)).complete with
    | true => rfl
    | false => rfl

theorem unmasked_zero (line : ConfigLine) : line.unmasked 0 = false := by
  have outside : Globals.inMask 0 line.pRx = false := by
    unfold Globals.inMask
    rw [UInt32.zero_and]
    rfl
  rw [ConfigLine.unmasked, outside, Bool.false_and]

/-- Under the mask zero, an access is outside an array, or nothing is configured. -/
theorem configured_zero (env : Environment) (f : List Char) :
    configured env (unconfigured 0) f =
      if ∀ line ∈ linesOf env f, line.Safe 0 then some (unconfigured 0) else none := by
  by_cases safe : ∀ line ∈ linesOf env f, line.Safe 0
  · rw [if_pos safe]
    exact configured_eq_iff.mpr fun line member => ⟨safe line member, unmasked_zero line⟩
  · rw [if_neg safe]
    unfold configured
    rw [parseConfigfile_eq]
    have masked (line : ConfigLine) : line.unmasked (unconfigured 0).portMask = false :=
      unmasked_zero line
    rcases storable_or_stops (unconfigured 0).portMask (linesOf env f) with
      storable | ⟨pre, line, post, split, storable, leaves | ⟨_, repeats⟩⟩
    · exact absurd storable.safe safe
    · unfold linesOf at split
      rw [split, storeLines_of_not_safe storable leaves]
    · exact absurd repeats.1 (by simp [masked])

/-- What is inside the arrays under the mask zero is so under a mask that passes it over. -/
theorem ConfigLine.Safe.of_zero {line : ConfigLine} {mask : UInt32} (safe : line.Safe 0)
    (masked : line.unmasked mask = false) : line.Safe mask :=
  ⟨safe.engine, safe.args, safe.pRx, safe.pTx, fun unmasked => by simp [masked] at unmasked⟩

/-! ## The two orders -/

section Orders

variable {env : Environment} {s : Settings} {before between behind : List Opt} {arg f : List Char}

theorem handle_configMaster_result (plain : ∀ o ∈ behind, o.Plain) (env : Environment)
    (s : Settings) (f : List Char) :
    (handleAll env s (.long .configMaster f :: behind)).result =
      (configured env s.globals f).map fun g => (false, g) := by
  rw [handleAll]
  simp only [handle, configured]
  cases parseConfigfile env.grow env.unset s.globals (env.files f) with
  | undefined => rfl
  | returns ret g =>
      obtain ⟨s', same, reached⟩ := handleAll_plain plain env
        { s with configFileName := f.take maxFileName, globals := g }
      simp only [reached, Handled.result, same, Option.map_some]

theorem handle_portmask_result (plain : ∀ o ∈ behind, o.Plain) (env : Environment) (s : Settings)
    (arg : List Char) :
    (handleAll env s (.portmask arg :: behind)).result =
      some (decide (UInt32.ofInt (parsePortmask arg) = 0),
        { s.globals with portMask := UInt32.ofInt (parsePortmask arg) }) := by
  rw [handleAll]
  simp only [handle]
  by_cases zero : UInt32.ofInt (parsePortmask arg) = 0
  · rw [if_pos zero, decide_eq_true zero]
    rfl
  · rw [if_neg zero, decide_eq_false zero]
    obtain ⟨s', same, reached⟩ := handleAll_plain plain env
      { s with globals.portMask := UInt32.ofInt (parsePortmask arg) }
    simp only [reached, Handled.result, same]

/-- **`-p` first**: the file is parsed under the new mask. -/
theorem portmask_first (plainBefore : ∀ o ∈ before, o.Plain)
    (plainBetween : ∀ o ∈ between, o.Plain) (plainBehind : ∀ o ∈ behind, o.Plain)
    (start : s.globals = unconfigured 0) :
    (handleAll env s
      (before ++ .portmask arg :: (between ++ .long .configMaster f :: behind))).result =
      if UInt32.ofInt (parsePortmask arg) = 0 then
        some (true, unconfigured 0)
      else
        (configured env (unconfigured (UInt32.ofInt (parsePortmask arg))) f).map
          fun g => (false, g) := by
  obtain ⟨s₁, same₁, reached₁⟩ := handleAll_plain_append plainBefore env s
    (.portmask arg :: (between ++ .long .configMaster f :: behind))
  rw [reached₁, handleAll]
  simp only [handle, same₁, start]
  by_cases zero : UInt32.ofInt (parsePortmask arg) = 0
  · rw [if_pos zero, if_pos zero, zero]
    simp only [Handled.result]
    rfl
  · rw [if_neg zero, if_neg zero]
    obtain ⟨s₂, same₂, reached₂⟩ := handleAll_plain_append plainBetween env
      { s₁ with globals := { unconfigured 0 with portMask := UInt32.ofInt (parsePortmask arg) } }
      (.long .configMaster f :: behind)
    simp only [reached₂, handle_configMaster_result plainBehind, same₂]
    rfl

/-- **`--config-master` first**: the file is parsed under the mask zero. -/
theorem configMaster_first (plainBefore : ∀ o ∈ before, o.Plain)
    (plainBetween : ∀ o ∈ between, o.Plain) (plainBehind : ∀ o ∈ behind, o.Plain)
    (start : s.globals = unconfigured 0) :
    (handleAll env s
      (before ++ .long .configMaster f :: (between ++ .portmask arg :: behind))).result =
      (configured env (unconfigured 0) f).map fun g =>
        (decide (UInt32.ofInt (parsePortmask arg) = 0),
          { g with portMask := UInt32.ofInt (parsePortmask arg) }) := by
  obtain ⟨s₁, same₁, reached₁⟩ := handleAll_plain_append plainBefore env s
    (.long .configMaster f :: (between ++ .portmask arg :: behind))
  rw [reached₁, handleAll]
  simp only [handle, configured, same₁, start]
  cases parseConfigfile env.grow env.unset (unconfigured 0) (env.files f) with
  | undefined => rfl
  | returns ret g =>
      obtain ⟨s₂, same₂, reached₂⟩ := handleAll_plain_append plainBetween env
        { s₁ with configFileName := f.take maxFileName, globals := g } (.portmask arg :: behind)
      simp only [reached₂, handle_portmask_result plainBehind, same₂, Option.map_some]

/-- **The order of `-p` and `--config-master` does not matter** exactly if the file has no line
outside the arrays, and none whose ports are both in the mask. -/
theorem option_order_iff {argv argv' : List (List Char)}
    (plainBefore : ∀ o ∈ before, o.Plain) (plainBetween : ∀ o ∈ between, o.Plain)
    (plainBehind : ∀ o ∈ behind, o.Plain) (start : s.globals = unconfigured 0)
    (options : (getoptLong env.posixlyCorrect argv).1 =
      before ++ .portmask arg :: (between ++ .long .configMaster f :: behind))
    (options' : (getoptLong env.posixlyCorrect argv').1 =
      before ++ .long .configMaster f :: (between ++ .portmask arg :: behind)) :
    SameResult (parseArgs env s argv) (parseArgs env s argv') ↔
      ∀ line ∈ linesOf env f,
        line.Safe 0 ∧ line.unmasked (UInt32.ofInt (parsePortmask arg)) = false := by
  unfold SameResult
  rw [parseArgs_result, parseArgs_result, options, options',
    portmask_first plainBefore plainBetween plainBehind start,
    configMaster_first plainBefore plainBetween plainBehind start, configured_zero]
  generalize UInt32.ofInt (parsePortmask arg) = mask
  by_cases safe : ∀ line ∈ linesOf env f, line.Safe 0
  · rw [if_pos safe, Option.map_some]
    by_cases zero : mask = 0
    · rw [if_pos zero, zero]
      refine iff_of_true ⟨nofun, rfl⟩ ?_
      intro line member
      exact ⟨safe line member, unmasked_zero line⟩
    · rw [if_neg zero, decide_eq_false zero]
      constructor
      · rintro ⟨-, same⟩ line member
        obtain ⟨g, nothing, pair⟩ := Option.map_eq_some_iff.mp same
        obtain rfl : g = unconfigured mask := (Prod.mk.inj pair).2
        exact ⟨safe line member, (configured_eq_iff.mp nothing line member).2⟩
      · intro masked
        have nothing : configured env (unconfigured mask) f = some (unconfigured mask) := by
          apply configured_eq_iff.mpr
          intro line member
          have passed := (masked line member).2
          exact ⟨(safe line member).of_zero passed, passed⟩
        rw [nothing]
        exact ⟨nofun, rfl⟩
  · rw [if_neg safe, Option.map_none]
    refine iff_of_false ?_ fun masked => safe fun line member => (masked line member).1
    rintro ⟨returns, none⟩
    exact returns none

end Orders

/-! ## A file with one line -/

/-- The only file is named `f`, and its line is on the port 0. -/
def onPortZero : Environment where
  files name := if name = ['f'] then some (fileOf "1\n0 0 0 0 0 DEFAULT\n") else none
  grow := growTo
  unset := 0
  posixlyCorrect := false

/-- With the port 1 alone in the mask, both orders configure nothing. -/
theorem option_order_iff_otherPort :
    SameResult (parseArgs onPortZero initial (words ["-p", "2", "--config-master", "f"]))
      (parseArgs onPortZero initial (words ["--config-master", "f", "-p", "2"])) := by
  have masked : ∀ line ∈ linesOf onPortZero ['f'],
      line.Safe 0 ∧ line.unmasked (UInt32.ofInt (parsePortmask ['2'])) = false := by
    decide +kernel
  have options : (getoptLong false (words ["-p", "2", "--config-master", "f"])).1 =
      [] ++ .portmask ['2'] :: ([] ++ .long .configMaster ['f'] :: []) := by decide
  have options' : (getoptLong false (words ["--config-master", "f", "-p", "2"])).1 =
      [] ++ .long .configMaster ['f'] :: ([] ++ .portmask ['2'] :: []) := by decide
  have none : ∀ o ∈ ([] : List Opt), o.Plain := nofun
  exact (option_order_iff none none none rfl options options').mpr masked

/-- The line is stored when `-p 1` comes first, and passed over when it comes last. -/
theorem order_matters :
    ¬∀ (env : Environment) (s : Settings) (argv argv' : List (List Char)) (arg f : List Char),
      s.globals = unconfigured 0 →
      (getoptLong env.posixlyCorrect argv).1 = [.portmask arg, .long .configMaster f] →
      (getoptLong env.posixlyCorrect argv').1 = [.long .configMaster f, .portmask arg] →
        SameResult (parseArgs env s argv) (parseArgs env s argv') := by
  intro claim
  have options : (getoptLong false (words ["-p", "1", "--config-master", "f"])).1 =
      [.portmask ['1'], .long .configMaster ['f']] := by decide
  have options' : (getoptLong false (words ["--config-master", "f", "-p", "1"])).1 =
      [.long .configMaster ['f'], .portmask ['1']] := by decide
  obtain ⟨-, same⟩ := claim onPortZero initial _ _ _ _ rfl options options'
  have first : (parseArgs onPortZero initial
      (words ["-p", "1", "--config-master", "f"])).result.map (·.2.procConfigNb) = some 1 := by rfl
  have last : (parseArgs onPortZero initial
      (words ["--config-master", "f", "-p", "1"])).result.map (·.2.procConfigNb) = some 0 := by rfl
  rw [same, last] at first
  exact absurd (Option.some.inj first) (by decide)

end DdosFiltering.Config
