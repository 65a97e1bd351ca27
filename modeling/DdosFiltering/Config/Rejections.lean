import DdosFiltering.Config.Bounds
import DdosFiltering.Config.CommandLine

/-!
# Rejected configurations

`parse_args` drops the result of `parse_configfile`, and so a configuration that is
rejected does not stop the program. What stops it is an option behind `--config-master` that
`parse_args` refuses itself; and where there is none, `parse_args` returns the number of arguments
that it has read, over tables that are filled in part (`rejection_stops_iff`).
-/

set_option autoImplicit false

namespace DdosFiltering.Config

/-! ## One option -/

namespace Opt

/-- `parse_args` returns -1 at the option. -/
def Refused : Opt → Prop
  | .portmask arg => UInt32.ofInt (parsePortmask arg) = 0
  | .timer arg => -2 ^ 31 ≤ parseTimerPeriod arg * 1000 ∧ parseTimerPeriod arg < 0
  | .long .statsTimer arg => parseTimerPeriod arg < 0
  | .long _ _ => False
  | .invalid => True

/-- `parse_args` goes on behind the option. -/
def Passes (env : Environment) (mask : UInt32) : Opt → Prop
  | .portmask arg => UInt32.ofInt (parsePortmask arg) ≠ 0
  | .timer arg => 0 ≤ parseTimerPeriod arg
  | .long .configMaster arg =>
      ∀ pre line post, (readFile env.grow env.unset (env.files arg)).lines = pre ++ line :: post →
        Storable mask pre → line.Safe mask
  | .long .help _ => False
  | .long .statsTimer arg => 0 ≤ parseTimerPeriod arg
  | .long _ _ => True
  | .invalid => False

/-- The port mask behind the option. -/
def maskAfter (mask : UInt32) : Opt → UInt32
  | .portmask arg => UInt32.ofInt (parsePortmask arg)
  | _ => mask

end Opt

/-- What a timer does: its value is negative, too small for an `int`, or neither. -/
theorem handle_timer (env : Environment) (s : Settings) (arg : List Char) :
    handle env s (.timer arg) =
      if parseTimerPeriod arg * 1000 < -2 ^ 31 then
        .undefined
      else if parseTimerPeriod arg < 0 then
        .fails { s with timerPeriod := ticks (parseTimerPeriod arg * 1000) }
      else
        .goesOn { s with timerPeriod := ticks (parseTimerPeriod arg * 1000) } := by
  obtain ⟨-, below⟩ := parseTimerPeriod_bounds arg
  have small : parseTimerPeriod arg * 1000 < 2 ^ 31 := by
    unfold maxTimerPeriod at below
    omega
  simp only [handle]
  by_cases low : parseTimerPeriod arg * 1000 < -2 ^ 31
  · rw [if_pos low, if_pos (.inl low)]
  · have negative := ticks_neg_iff (Int.not_lt.mp low) small
    rw [if_neg low, if_neg (by omega)]
    refine if_congr (negative.trans ?_) rfl rfl
    omega

theorem handle_statsTimer (env : Environment) (s : Settings) (arg : List Char) :
    handle env s (.long .statsTimer arg) =
      if parseTimerPeriod arg < 0 then
        .fails { s with timerStats := ticks (parseTimerPeriod arg) }
      else
        .goesOn { s with timerStats := ticks (parseTimerPeriod arg) } := by
  obtain ⟨low, below⟩ := parseTimerPeriod_bounds arg
  have small : parseTimerPeriod arg < 2 ^ 31 := by
    unfold maxTimerPeriod at below
    omega
  simp only [handle]
  exact if_congr (ticks_neg_iff low small) rfl rfl

/-- What the result of an option says about it. -/
def Opt.Explains (env : Environment) (mask : UInt32) (o : Opt) : Handled → Prop
  | .fails _ => o.Refused ∧ ¬o.Passes env mask
  | .goesOn s' => ¬o.Refused ∧ o.Passes env mask ∧ s'.globals.portMask = o.maskAfter mask
  | _ => ¬o.Refused ∧ ¬o.Passes env mask

/-- **One turn of the loop**, one case per option. -/
theorem handle_explains (env : Environment) (s : Settings) (o : Opt) :
    o.Explains env s.globals.portMask (handle env s o) := by
  cases o with
  | portmask arg =>
      simp only [handle]
      by_cases zero : UInt32.ofInt (parsePortmask arg) = 0
      · rw [if_pos zero]
        exact ⟨zero, not_not.mpr zero⟩
      · rw [if_neg zero]
        exact ⟨zero, zero, rfl⟩
  | timer arg =>
      rw [handle_timer]
      by_cases low : parseTimerPeriod arg * 1000 < -2 ^ 31
      · rw [if_pos low]
        exact ⟨fun ⟨fits, _⟩ => Int.not_le.mpr low fits, fun nonneg : 0 ≤ _ => by omega⟩
      rw [if_neg low]
      by_cases negative : parseTimerPeriod arg < 0
      · rw [if_pos negative]
        exact ⟨⟨Int.not_lt.mp low, negative⟩, Int.not_le.mpr negative⟩
      · rw [if_neg negative]
        exact ⟨fun refused => negative refused.2, Int.not_lt.mp negative, rfl⟩
  | long option arg =>
      cases option with
      | configMaster =>
          simp only [handle]
          cases parsed : parseConfigfile env.grow env.unset s.globals (env.files arg) with
          | undefined =>
              obtain ⟨pre, line, post, read, storable, leaves⟩ :=
                parseConfigfile_eq_undefined_iff.mp parsed
              exact ⟨id, fun safe => leaves (safe pre line post read storable)⟩
          | returns ret g =>
              refine ⟨id, ?_, parseConfigfile_portMask parsed⟩
              intro pre line post read storable
              by_contra leaves
              have undefined :=
                parseConfigfile_eq_undefined_iff.mpr ⟨pre, line, post, read, storable, leaves⟩
              exact absurd (parsed.symm.trans undefined) nofun
      | configFdir => exact ⟨id, trivial, rfl⟩
      | help => exact ⟨id, id⟩
      | statsFile => exact ⟨id, trivial, rfl⟩
      | statsTimer =>
          rw [handle_statsTimer]
          by_cases negative : parseTimerPeriod arg < 0
          · rw [if_pos negative]
            exact ⟨negative, Int.not_le.mpr negative⟩
          · rw [if_neg negative]
            exact ⟨negative, Int.not_lt.mp negative, rfl⟩
  | invalid => exact ⟨trivial, id⟩

/-! ## All options -/

/-- One of the options is refused, and `parse_args` goes on behind those before it. -/
inductive RefusedLater (env : Environment) : UInt32 → List Opt → Prop where
  | here {mask : UInt32} {o : Opt} {os : List Opt} (refused : o.Refused) :
      RefusedLater env mask (o :: os)
  | behind {mask : UInt32} {o : Opt} {os : List Opt} (passes : o.Passes env mask)
      (later : RefusedLater env (o.maskAfter mask) os) : RefusedLater env mask (o :: os)

theorem refusedLater_cons_iff {env : Environment} {mask : UInt32} {o : Opt} {os : List Opt} :
    RefusedLater env mask (o :: os) ↔
      o.Refused ∨ o.Passes env mask ∧ RefusedLater env (o.maskAfter mask) os := by
  constructor
  · intro refused
    cases refused with
    | here refused => exact .inl refused
    | behind passes later => exact .inr ⟨passes, later⟩
  · rintro (refused | ⟨passes, later⟩)
    · exact .here refused
    · exact .behind passes later

/-- **When the loop fails**, by induction on the options. -/
theorem handleAll_fails_iff {env : Environment} {s : Settings} {os : List Opt} :
    (∃ s', handleAll env s os = .fails s') ↔ RefusedLater env s.globals.portMask os := by
  induction os generalizing s with
  | nil => exact iff_of_false nofun nofun
  | cons o os inductionHypothesis =>
      have explained := handle_explains env s o
      rw [handleAll, refusedLater_cons_iff]
      cases handled : handle env s o with
      | fails s' =>
          rw [handled] at explained
          exact iff_of_true ⟨s', rfl⟩ (.inl explained.1)
      | goesOn s' =>
          rw [handled] at explained
          obtain ⟨accepted, passes, sameMask⟩ := explained
          rw [or_iff_right accepted, and_iff_right passes, ← sameMask]
          exact inductionHypothesis
      | undefined =>
          rw [handled] at explained
          rw [or_iff_right explained.1]
          exact iff_of_false nofun fun later => explained.2 later.1
      | exits =>
          rw [handled] at explained
          rw [or_iff_right explained.1]
          exact iff_of_false nofun fun later => explained.2 later.1

/-- The options are handled one after the other. -/
theorem handleAll_append {env : Environment} {s s' : Settings} {pre : List Opt}
    (reached : handleAll env s pre = .goesOn s') (post : List Opt) :
    handleAll env s (pre ++ post) = handleAll env s' post := by
  induction pre generalizing s with
  | nil =>
      obtain rfl := Handled.goesOn.inj reached
      rfl
  | cons o pre inductionHypothesis =>
      rw [handleAll] at reached
      rw [List.cons_append, handleAll]
      cases handled : handle env s o with
      | goesOn s' =>
          rw [handled] at reached
          exact inductionHypothesis reached
      | fails s' => exact absurd (handled ▸ reached) nofun
      | undefined => exact absurd (handled ▸ reached) nofun
      | exits => exact absurd (handled ▸ reached) nofun

/-- `parse_args` returns a negative value, and `main` calls `rte_exit`. -/
def ArgsOutcome.Stops (outcome : ArgsOutcome) : Prop :=
  ∃ ret s, outcome = .returns ret s ∧ ret < 0

theorem stops_iff {env : Environment} {s : Settings} {argv : List (List Char)} :
    (parseArgs env s argv).Stops ↔
      ∃ s', handleAll env s (getoptLong env.posixlyCorrect argv).1 = .fails s' := by
  simp only [ArgsOutcome.Stops, parseArgs]
  cases handled : handleAll env s (getoptLong env.posixlyCorrect argv).1 with
  | undefined => exact iff_of_false nofun nofun
  | exits => exact iff_of_false nofun nofun
  | fails s' => exact iff_of_true ⟨-1, s', rfl, by decide⟩ ⟨s', rfl⟩
  | goesOn s' =>
      refine iff_of_false ?_ nofun
      rintro ⟨ret, s'', same, negative⟩
      obtain ⟨count, -⟩ := ArgsOutcome.returns.inj same
      omega

/-- **A rejected configuration stops the program** exactly if an option behind it is refused. -/
theorem rejection_stops_iff {env : Environment} {s s' : Settings} {argv : List (List Char)}
    {pre post : List Opt} {f : List Char} {g' : Globals}
    (options : (getoptLong env.posixlyCorrect argv).1 = pre ++ .long .configMaster f :: post)
    (reached : handleAll env s pre = .goesOn s')
    (rejected : parseConfigfile env.grow env.unset s'.globals (env.files f) =
      .returns (-1) g') :
    (parseArgs env s argv).Stops ↔ RefusedLater env s'.globals.portMask post := by
  rw [stops_iff, options, handleAll_append reached, handleAll]
  simp only [handle, rejected]
  rw [handleAll_fails_iff]
  simp only [parseConfigfile_portMask rejected]

/-! ## A file with one id twice -/

/-- The only file is named `f`, and its second line repeats an id. -/
def twice : Environment where
  files name :=
    if name = ['f'] then some (fileOf "1\n0 0 0 0 0 DEFAULT\n0 0 0 1 1 DEFAULT\n") else none
  grow := growTo
  unset := 0
  posixlyCorrect := false

/-- The variables behind `-p 1`. -/
def behindPortmask : Settings := { initial with globals := unconfigured 1 }

theorem twice_reached : handleAll twice initial [.portmask ['1']] = .goesOn behindPortmask := by
  rfl

/-- The file is rejected when its second line is stored. -/
theorem twice_rejected :
    parseConfigfile twice.grow twice.unset behindPortmask.globals (twice.files ['f']) =
      .returns (-1) ((unconfigured 1).storing [⟨0, 0, 0, 0, 0, "DEFAULT".toList, []⟩]) := by
  rfl

/-- An unknown option behind `--config-master` stops the program. -/
theorem rejection_stops_iff_unknown :
    (parseArgs twice initial (words ["-p", "1", "--config-master", "f", "--unknown"])).Stops := by
  have options : (getoptLong twice.posixlyCorrect
      (words ["-p", "1", "--config-master", "f", "--unknown"])).1 =
      [.portmask ['1']] ++ .long .configMaster ['f'] :: [.invalid] := by decide
  have refused : Opt.invalid.Refused := trivial
  exact (rejection_stops_iff options twice_reached twice_rejected).mpr (.here refused)

/-- Nothing stops the program behind the rejected file. -/
theorem rejected_file_used :
    ¬∀ (env : Environment) (s s' : Settings) (argv : List (List Char)) (pre post : List Opt)
      (f : List Char) (g' : Globals),
      (getoptLong env.posixlyCorrect argv).1 = pre ++ .long .configMaster f :: post →
      handleAll env s pre = .goesOn s' →
      parseConfigfile env.grow env.unset s'.globals (env.files f) = .returns (-1) g' →
        (parseArgs env s argv).Stops := by
  intro claim
  have options : (getoptLong twice.posixlyCorrect
      (words ["-p", "1", "--config-master", "f"])).1 =
      [.portmask ['1']] ++ .long .configMaster ['f'] :: [] := by decide
  have stops := claim twice initial _ _ _ _ _ _ options twice_reached twice_rejected
  obtain ⟨s', failed⟩ := stops_iff.mp stops
  rw [options, handleAll_append twice_reached, handleAll] at failed
  simp only [handle, twice_rejected] at failed
  exact absurd failed nofun

end DdosFiltering.Config
