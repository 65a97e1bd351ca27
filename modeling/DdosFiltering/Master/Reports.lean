import DdosFiltering.Config.CommandLine
import DdosFiltering.Config.SlaveQueues
import DdosFiltering.Foundation.Due
import DdosFiltering.Master.StatsFile

/-!
# When the master reports

`main_loop` adds up the cycles that pass between its iterations, in one timer for the statistics
that it prints and one for those that it writes to a file, and starts a timer again when it
reaches its period. The time stamp counter is a register of 64 bits, and so are the timers.

In every run, whatever the counter is at the start and however often it wraps, the reports are
those that are due: a report comes at the first iteration at which a period has passed since the
last one (`reports_are_due`). So two reports are at least a period apart, none is late by more
than an iteration, and what is written to the file are the lines of all of them under their
time. What is reported can be read back from these lines (`reports_readable`).

What is written is what `main_loop` hands to `fwrite`. The file on the disk may have more: a slave
is forked with the buffer of the stream, and writes what is in it when it exits.
-/

set_option autoImplicit false

namespace DdosFiltering.Master

open Config (Globals Settings)
open Foundation

/-! ## The timers of `main_loop` -/

/-- What an iteration finds: the cycles since the machine was started, the statistics that the
slaves have left, and what the calls of `write_stats` answer. -/
structure Input where
  time : ℕ
  portStatistics : ℕ → PortStatistics
  io : StatsIo

/-- `rte_rdtsc`. -/
def rdtsc (time : ℕ) : UInt64 := UInt64.ofNat time

/-- The variables of `main_loop`, what it has printed and what it has handed to `fwrite`. -/
structure LoopState where
  prevTsc : UInt64
  cumulativeTsc : UInt64
  timerTsc : UInt64
  timerStatsTsc : UInt64
  screens : List StatsScreen
  written : List Char

/-- The timer for printed statistics. The counters of the NIC are printed as well. -/
def printTimer (s : Settings) (input : Input) (diffTsc : UInt64) (t : LoopState) : LoopState :=
  if s.timerPeriod > 0 then
    let timerTsc := t.timerTsc + diffTsc
    if timerTsc ≥ UInt64.ofInt s.timerPeriod then
      let screen := printStats s.globals.procConfigNb input.portStatistics
      { t with timerTsc := 0, screens := t.screens ++ [screen] }
    else
      { t with timerTsc }
  else
    t

/-- The timer for logged statistics. `none`: the program has left. -/
def logTimer (s : Settings) (input : Input) (diffTsc : UInt64) (t : LoopState) :
    Option LoopState :=
  if s.timerStats > 0 then
    let timerStatsTsc := t.timerStatsTsc + diffTsc
    if timerStatsTsc ≥ UInt64.ofInt s.timerStats then
      match writeStats s.globals input.portStatistics input.io t.cumulativeTsc with
      | .writes text => some { t with timerStatsTsc := 0, written := t.written ++ text }
      | _ => none
    else
      some { t with timerStatsTsc }
  else
    some t

/-- The timers of one iteration of `main_loop`. -/
def iteration (s : Settings) (t : LoopState) (input : Input) : Option LoopState := do
  let curTsc := rdtsc input.time
  let diffTsc := curTsc - t.prevTsc
  let t := { t with cumulativeTsc := t.cumulativeTsc + diffTsc }
  let t ← logTimer s input diffTsc (printTimer s input diffTsc t)
  return { t with prevTsc := curTsc }

/-- `main_loop`, entered at the time `start`, after the iterations that find `inputs`. `fopen` says
whether the file can be opened; nothing is written then. -/
def mainLoop (s : Settings) (fopen : Bool) (start : ℕ) (inputs : List Input) : Option LoopState :=
  if s.timerStats > 0 ∧ fopen = false then
    none
  else
    inputs.foldlM (iteration s) ⟨rdtsc start, 0, 0, 0, [], []⟩

/-! ## One timer -/

/-- The inputs at which a report is due. A period that is not positive switches the reports
off. -/
def reportsDue (period : ℤ) (start : ℕ) (inputs : List Input) : List Input :=
  if 0 < period then due Input.time period.toNat start inputs else []

/-- A timer that is on holds what has passed since the last report, and that is less than its
period. -/
structure Runs (period : ℤ) (start now : ℕ) (inputs : List Input) (timer : UInt64) : Prop where
  last_le : lastDue Input.time period.toNat start inputs ≤ now
  early : now < lastDue Input.time period.toNat start inputs + period.toNat
  timer : timer = UInt64.ofNat (now - lastDue Input.time period.toNat start inputs)

theorem Runs.entered {period : ℤ} (positive : 0 < period) (start : ℕ) :
    Runs period start start [] 0 where
  last_le := Nat.le_refl start
  early := by
    have atLeastOne : 0 < period.toNat := by omega
    exact Nat.lt_add_of_pos_right atLeastOne
  timer := by
    have none : start - lastDue Input.time period.toNat start [] = 0 := Nat.sub_self start
    rw [none]
    rfl

section Timer

variable {period : ℤ} {start now : ℕ} {inputs : List Input} {timer : UInt64} {input : Input}

/-- What the timer reads before it is compared. -/
theorem Runs.advanced (runs : Runs period start now inputs timer) (later : now ≤ input.time) :
    timer + (rdtsc input.time - rdtsc now) =
      UInt64.ofNat (input.time - lastDue Input.time period.toNat start inputs) := by
  have passed : rdtsc input.time - rdtsc now = UInt64.ofNat (input.time - now) :=
    (UInt64.ofNat_sub later).symm
  have total : now - lastDue Input.time period.toNat start inputs + (input.time - now) =
      input.time - lastDue Input.time period.toNat start inputs := by
    have before := runs.last_le
    omega
  rw [runs.timer, passed, ← UInt64.ofNat_add, total]

/-- **The timer tells when a report is due.** -/
theorem Runs.reaches_iff (runs : Runs period start now inputs timer) (small : period < 2 ^ 63)
    (later : now ≤ input.time) (soon : input.time < now + 2 ^ 63) :
    timer + (rdtsc input.time - rdtsc now) ≥ UInt64.ofInt period ↔
      lastDue Input.time period.toNat start inputs + period.toNat ≤ input.time := by
  have before := runs.last_le
  have early := runs.early
  have asNumber : (UInt64.ofInt period).toNat = period.toNat := by
    rw [UInt64.ofInt, UInt64.toNat_ofNat']
    omega
  rw [runs.advanced later, ge_iff_le, UInt64.le_iff_toNat_le, UInt64.toNat_ofNat', asNumber]
  omega

/-- The timer is started again at a report. -/
theorem Runs.restarted (positive : 0 < period)
    (isDue : lastDue Input.time period.toNat start inputs + period.toNat ≤ input.time) :
    Runs period start input.time (inputs ++ [input]) 0 := by
  have last : lastDue Input.time period.toNat start (inputs ++ [input]) = input.time := by
    rw [lastDue_concat, if_pos isDue]
  refine ⟨last.le, ?_, ?_⟩
  · omega
  · rw [last, Nat.sub_self]
    rfl

/-- The timer goes on while no report is due. -/
theorem Runs.goesOn (runs : Runs period start now inputs timer) (later : now ≤ input.time)
    (notDue : ¬lastDue Input.time period.toNat start inputs + period.toNat ≤ input.time) :
    Runs period start input.time (inputs ++ [input])
      (timer + (rdtsc input.time - rdtsc now)) := by
  have last : lastDue Input.time period.toNat start (inputs ++ [input]) =
      lastDue Input.time period.toNat start inputs := by
    rw [lastDue_concat, if_neg notDue]
  have before := runs.last_le
  refine ⟨?_, ?_, ?_⟩
  · omega
  · omega
  · rw [runs.advanced later, last]

theorem reportsDue_concat (positive : 0 < period) :
    reportsDue period start (inputs ++ [input]) =
      reportsDue period start inputs ++
        if lastDue Input.time period.toNat start inputs + period.toNat ≤ input.time then [input]
        else [] := by
  rw [reportsDue, reportsDue, if_pos positive, if_pos positive, due_concat]

theorem reportsDue_off (off : ¬0 < period) (inputs : List Input) :
    reportsDue period start inputs = [] := if_neg off

end Timer

/-! ## The settings -/

/-- What the timers need of the settings. -/
structure Ready (s : Settings) : Prop where
  printable : Printable s.globals
  timerPeriod : s.timerPeriod < 2 ^ 63
  timerStats : s.timerStats < 2 ^ 63

theorem Ready.initial : Ready Config.initial where
  printable :=
    { engines := fun _ => ⟨Nat.succ_pos 63, List.forall_mem_nil _⟩
      procConfigNb := by decide }
  timerPeriod := by decide
  timerStats := by decide

theorem ticks_lt (n : ℤ) : Config.ticks n < 2 ^ 63 := by
  have below : (n * Config.timerMillisecond).bmod (2 ^ 64) < ((2 ^ 64 : ℕ) + 1) / 2 :=
    Int.bmod_lt (by decide)
  unfold Config.ticks
  omega

/-- No option makes the settings unfit. -/
theorem Ready.handle {env : Config.Environment} {s s' : Settings} {o : Config.Opt}
    (ready : Ready s) (handled : Config.handle env s o = .goesOn s') : Ready s' := by
  cases o with
  | portmask arg =>
      simp only [Config.handle] at handled
      split at handled
      · cases handled
      · obtain rfl := Config.Handled.goesOn.inj handled
        exact ⟨⟨ready.printable.engines, ready.printable.procConfigNb⟩, ready.timerPeriod,
          ready.timerStats⟩
  | timer arg =>
      simp only [Config.handle] at handled
      split at handled
      · cases handled
      split at handled
      · cases handled
      · obtain rfl := Config.Handled.goesOn.inj handled
        exact ⟨ready.printable, ticks_lt _, ready.timerStats⟩
  | long name arg =>
      cases name with
      | configMaster =>
          simp only [Config.handle] at handled
          split at handled
          · cases handled
          · rename_i returned
            obtain rfl := Config.Handled.goesOn.inj handled
            exact ⟨ready.printable.parseConfigfile returned, ready.timerPeriod, ready.timerStats⟩
      | configFdir =>
          obtain rfl := Config.Handled.goesOn.inj handled
          exact ⟨ready.printable, ready.timerPeriod, ready.timerStats⟩
      | help => cases handled
      | statsFile =>
          obtain rfl := Config.Handled.goesOn.inj handled
          exact ⟨ready.printable, ready.timerPeriod, ready.timerStats⟩
      | statsTimer =>
          simp only [Config.handle] at handled
          split at handled
          · cases handled
          · obtain rfl := Config.Handled.goesOn.inj handled
            exact ⟨ready.printable, ready.timerPeriod, ticks_lt _⟩
  | invalid => cases handled

theorem Ready.handleAll {env : Config.Environment} {s s' : Settings} {os : List Config.Opt}
    (ready : Ready s) (handled : Config.handleAll env s os = .goesOn s') : Ready s' := by
  induction os generalizing s with
  | nil =>
      obtain rfl := Config.Handled.goesOn.inj handled
      exact ready
  | cons o os inductionHypothesis =>
      rw [Config.handleAll] at handled
      split at handled
      · rename_i next once
        exact inductionHypothesis (ready.handle once) handled
      · rename_i stopped
        exact absurd handled (stopped s')

/-- **An accepted command line makes the settings fit for the timers.** -/
theorem Ready.parseArgs {env : Config.Environment} {argv : List (List Char)} {ret : ℤ}
    {s : Settings} (accepted : 0 ≤ ret)
    (parsed : Config.parseArgs env Config.initial argv = .returns ret s) : Ready s := by
  simp only [Config.parseArgs] at parsed
  split at parsed
  · cases parsed
  · cases parsed
  · obtain ⟨rfl, -⟩ := Config.ArgsOutcome.returns.inj parsed
    exact absurd accepted (by decide)
  · rename_i handled
    obtain ⟨-, rfl⟩ := Config.ArgsOutcome.returns.inj parsed
    exact Ready.initial.handleAll handled

/-! ## Runs -/

/-- The readings come one after the other, and an iteration takes less than half the range of the
time stamp counter. -/
def Steady : ℕ → List Input → Prop
  | _, [] => True
  | now, input :: inputs =>
      now ≤ input.time ∧ input.time < now + 2 ^ 63 ∧ Steady input.time inputs

/-- What is printed at an input. -/
def screenAt (s : Settings) (input : Input) : StatsScreen :=
  printStats s.globals.procConfigNb input.portStatistics

/-- The lines that are written at an input. -/
def rowsAt (s : Settings) (start : ℕ) (input : Input) : List StatsRow :=
  statsRows s.globals input.portStatistics (UInt64.ofNat (input.time - start))

/-- The state of the loop at the time `now`, behind the inputs. -/
structure Reached (s : Settings) (start now : ℕ) (inputs : List Input) (t : LoopState) :
    Prop where
  started : start ≤ now
  prevTsc : t.prevTsc = rdtsc now
  cumulativeTsc : t.cumulativeTsc = UInt64.ofNat (now - start)
  timer : 0 < s.timerPeriod → Runs s.timerPeriod start now inputs t.timerTsc
  timerStats : 0 < s.timerStats → Runs s.timerStats start now inputs t.timerStatsTsc
  screens : t.screens = (reportsDue s.timerPeriod start inputs).map (screenAt s)
  written : t.written =
    ((reportsDue s.timerStats start inputs).flatMap (rowsAt s start)).flatMap StatsRow.text
  succeeded : ∀ input ∈ reportsDue s.timerStats start inputs,
    input.io.succeeds s.globals.procConfigNb = true

section Step

variable {s : Settings} {start now : ℕ} {inputs : List Input} {t u : LoopState} {input : Input}

/-- The timer for printed statistics, in an iteration. -/
theorem printTimer_eq (ready : Ready s) (reached : Reached s start now inputs t)
    (later : now ≤ input.time) (soon : input.time < now + 2 ^ 63)
    (sameTimer : u.timerTsc = t.timerTsc) (sameScreens : u.screens = t.screens) :
    ∃ timerTsc, printTimer s input (rdtsc input.time - rdtsc now) u =
        { u with
          timerTsc
          screens := (reportsDue s.timerPeriod start (inputs ++ [input])).map (screenAt s) } ∧
      (0 < s.timerPeriod → Runs s.timerPeriod start input.time (inputs ++ [input]) timerTsc) := by
  have before := sameScreens.trans reached.screens
  by_cases positive : 0 < s.timerPeriod
  · have runs := reached.timer positive
    have isDue_iff := runs.reaches_iff ready.timerPeriod later soon
    rw [reportsDue_concat positive, List.map_append, ← before]
    unfold printTimer
    rw [if_pos positive, sameTimer]
    dsimp only
    by_cases isDue :
        lastDue Input.time s.timerPeriod.toNat start inputs + s.timerPeriod.toNat ≤ input.time
    · rw [if_pos isDue, if_pos (isDue_iff.mpr isDue)]
      exact ⟨0, rfl, fun _ => Runs.restarted positive isDue⟩
    · rw [if_neg isDue, if_neg (isDue_iff.not.mpr isDue), List.map_nil, List.append_nil]
      exact ⟨_, rfl, fun _ => runs.goesOn later isDue⟩
  · have none (inputs : List Input) : reportsDue s.timerPeriod start inputs = [] :=
      reportsDue_off positive inputs
    have empty : u.screens = [] := by rw [before, none, List.map_nil]
    refine ⟨u.timerTsc, ?_, fun on => absurd on positive⟩
    rw [printTimer, if_neg positive, none, List.map_nil, ← empty]

/-- The timer for logged statistics, in an iteration: it leaves the program when a report is due
that cannot be written. -/
theorem logTimer_eq (ready : Ready s) (reached : Reached s start now inputs t)
    (later : now ≤ input.time) (soon : input.time < now + 2 ^ 63)
    (sameTimer : u.timerStatsTsc = t.timerStatsTsc) (sameFile : u.written = t.written)
    (cumulativeTsc : u.cumulativeTsc = UInt64.ofNat (input.time - start)) :
    (∃ timerStatsTsc, logTimer s input (rdtsc input.time - rdtsc now) u = some
          { u with
            timerStatsTsc
            written := ((reportsDue s.timerStats start (inputs ++ [input])).flatMap
              (rowsAt s start)).flatMap StatsRow.text } ∧
        (0 < s.timerStats → Runs s.timerStats start input.time (inputs ++ [input]) timerStatsTsc) ∧
        ∀ input' ∈ reportsDue s.timerStats start (inputs ++ [input]),
          input'.io.succeeds s.globals.procConfigNb = true) ∨
      logTimer s input (rdtsc input.time - rdtsc now) u = none ∧
        input ∈ reportsDue s.timerStats start (inputs ++ [input]) ∧
        input.io.succeeds s.globals.procConfigNb = false := by
  have before := sameFile.trans reached.written
  by_cases positive : 0 < s.timerStats
  · have runs := reached.timerStats positive
    have isDue_iff := runs.reaches_iff ready.timerStats later soon
    rw [reportsDue_concat positive, List.flatMap_append, List.flatMap_append, ← before]
    unfold logTimer
    rw [if_pos positive, sameTimer]
    dsimp only
    by_cases isDue :
        lastDue Input.time s.timerStats.toNat start inputs + s.timerStats.toNat ≤ input.time
    · rw [if_pos isDue, if_pos (isDue_iff.mpr isDue), writeStats_eq ready.printable]
      cases answer : input.io.succeeds s.globals.procConfigNb with
      | false =>
          exact .inr ⟨rfl, List.mem_append_right _ List.mem_cons_self, rfl⟩
      | true =>
          refine .inl ⟨0, ?_, fun _ => Runs.restarted positive isDue, ?_⟩
          · rw [if_pos rfl, cumulativeTsc, List.flatMap_singleton, rowsAt]
          · intro input' member
            rcases List.mem_append.mp member with earlier | here
            · exact reached.succeeded input' earlier
            · obtain rfl := List.mem_singleton.mp here
              exact answer
    · rw [if_neg isDue, if_neg (isDue_iff.not.mpr isDue), List.flatMap_nil, List.flatMap_nil,
        List.append_nil, List.append_nil]
      exact .inl ⟨_, rfl, fun _ => runs.goesOn later isDue, reached.succeeded⟩
  · have none (inputs : List Input) : reportsDue s.timerStats start inputs = [] :=
      reportsDue_off positive inputs
    have empty : u.written = [] := by rw [before, none]; rfl
    refine .inl ⟨u.timerStatsTsc, ?_, fun on => absurd on positive, ?_⟩
    · rw [logTimer, if_neg positive, none, List.flatMap_nil, List.flatMap_nil, ← empty]
    · rw [none]
      exact List.forall_mem_nil _

/-- **One iteration** reaches the state at the input, or leaves the program at a report that is
due and cannot be written. -/
theorem Reached.iteration (ready : Ready s) (reached : Reached s start now inputs t)
    (later : now ≤ input.time) (soon : input.time < now + 2 ^ 63) :
    (∃ t', Master.iteration s t input = some t' ∧
        Reached s start input.time (inputs ++ [input]) t') ∨
      Master.iteration s t input = none ∧
        input ∈ reportsDue s.timerStats start (inputs ++ [input]) ∧
        input.io.succeeds s.globals.procConfigNb = false := by
  have started := reached.started.trans later
  have cumulativeTsc : t.cumulativeTsc + (rdtsc input.time - rdtsc now) =
      UInt64.ofNat (input.time - start) := by
    have passed : rdtsc input.time - rdtsc now = UInt64.ofNat (input.time - now) :=
      (UInt64.ofNat_sub later).symm
    have total : now - start + (input.time - now) = input.time - start := by
      have before := reached.started
      omega
    rw [reached.cumulativeTsc, passed, ← UInt64.ofNat_add, total]
  obtain ⟨timerTsc, printed, timer⟩ := printTimer_eq
    (u := { t with cumulativeTsc := t.cumulativeTsc + (rdtsc input.time - rdtsc now) })
    ready reached later soon rfl rfl
  have ran : Master.iteration s t input =
      (logTimer s input (rdtsc input.time - rdtsc now)
        { t with
          cumulativeTsc := t.cumulativeTsc + (rdtsc input.time - rdtsc now)
          timerTsc
          screens := (reportsDue s.timerPeriod start (inputs ++ [input])).map (screenAt s) }).bind
        fun t => some { t with prevTsc := rdtsc input.time } := by
    rw [← printed, ← reached.prevTsc]
    rfl
  rw [ran]
  rcases logTimer_eq
    (u := { t with
      cumulativeTsc := t.cumulativeTsc + (rdtsc input.time - rdtsc now)
      timerTsc
      screens := (reportsDue s.timerPeriod start (inputs ++ [input])).map (screenAt s) })
    ready reached later soon rfl rfl cumulativeTsc with
    ⟨timerStatsTsc, logged, timerStats, succeeded⟩ | ⟨left, isDue, fails⟩
  · refine .inl ⟨_, by rw [logged, Option.bind_some], ?_⟩
    exact ⟨started, rfl, cumulativeTsc, timer, timerStats, rfl, rfl, succeeded⟩
  · exact .inr ⟨by rw [left, Option.bind_none], isDue, fails⟩

end Step

/-- What is due stays due. -/
theorem reportsDue_append (period : ℤ) (start : ℕ) (front back : List Input) :
    ∃ more, reportsDue period start (front ++ back) = reportsDue period start front ++ more := by
  unfold reportsDue
  split
  · exact ⟨_, due_append _ _ _ _ _⟩
  · exact ⟨[], rfl⟩

/-- **A run**, by induction on the inputs. -/
theorem Reached.run {s : Settings} (ready : Ready s) {start now : ℕ} {before inputs : List Input}
    {t : LoopState} (reached : Reached s start now before t) (steady : Steady now inputs) :
    (∃ now' t', inputs.foldlM (Master.iteration s) t = some t' ∧
        Reached s start now' (before ++ inputs) t') ∨
      inputs.foldlM (Master.iteration s) t = none ∧
        ∃ input ∈ reportsDue s.timerStats start (before ++ inputs),
          input.io.succeeds s.globals.procConfigNb = false := by
  induction inputs generalizing now before t with
  | nil =>
      rw [List.append_nil]
      exact .inl ⟨now, t, rfl, reached⟩
  | cons input inputs inductionHypothesis =>
      obtain ⟨later, soon, rest⟩ := steady
      have split : before ++ input :: inputs = before ++ [input] ++ inputs := by simp
      rw [List.foldlM_cons, split]
      rcases reached.iteration ready later soon with ⟨t', once, next⟩ | ⟨left, isDue, fails⟩
      · rw [once]
        exact inductionHypothesis next rest
      · obtain ⟨more, asBefore⟩ :=
          reportsDue_append s.timerStats start (before ++ [input]) inputs
        rw [left, asBefore]
        exact .inr ⟨rfl, input, List.mem_append_left _ isDue, fails⟩

theorem reportsDue_apart (period : ℤ) (start : ℕ) (inputs : List Input) :
    (reportsDue period start inputs).Pairwise fun a b => a.time + period.toNat ≤ b.time := by
  unfold reportsDue
  split
  · exact due_apart _ _ _ _
  · exact .nil

/-- How a run ends: the program has left the loop at a call that failed, or all reports that were
due have been made. -/
theorem mainLoop_cases {s : Settings} (ready : Ready s) (fopen : Bool) {start : ℕ}
    {inputs : List Input} (steady : Steady start inputs) :
    (mainLoop s fopen start inputs = none ∧ 0 < s.timerStats ∧
      (fopen = false ∨ ∃ input ∈ reportsDue s.timerStats start inputs,
        input.io.succeeds s.globals.procConfigNb = false)) ∨
    ∃ t, mainLoop s fopen start inputs = some t ∧ (0 < s.timerStats → fopen = true) ∧
      (∀ input ∈ reportsDue s.timerStats start inputs,
        input.io.succeeds s.globals.procConfigNb = true) ∧
      t.screens = (reportsDue s.timerPeriod start inputs).map (screenAt s) ∧
      t.written = ((reportsDue s.timerStats start inputs).flatMap (rowsAt s start)).flatMap
        StatsRow.text := by
  have entered : Reached s start start [] ⟨rdtsc start, 0, 0, 0, [], []⟩ := by
    have noneDue (period : ℤ) : reportsDue period start [] = [] := by
      unfold reportsDue
      split <;> rfl
    refine ⟨Nat.le_refl _, rfl, ?_, ?_, ?_, ?_, ?_, ?_⟩
    · rw [Nat.sub_self]
      rfl
    · exact fun positive => Runs.entered positive start
    · exact fun positive => Runs.entered positive start
    · rw [noneDue]
      rfl
    · rw [noneDue]
      rfl
    · rw [noneDue]
      exact List.forall_mem_nil _
  unfold mainLoop
  by_cases closed : s.timerStats > 0 ∧ fopen = false
  · rw [if_pos closed]
    exact .inl ⟨rfl, closed.1, .inl closed.2⟩
  · rw [if_neg closed]
    have opened (on : 0 < s.timerStats) : fopen = true := by
      simpa using fun notOpened => closed ⟨on, notOpened⟩
    rcases entered.run ready steady with ⟨now, t, run, state⟩ | ⟨left, input, isDue, fails⟩
    · exact .inr ⟨t, run, opened, state.succeeded, state.screens, state.written⟩
    · refine .inl ⟨left, ?_, .inr ⟨input, isDue, fails⟩⟩
      by_contra off
      rw [List.nil_append, reportsDue_off off] at isDue
      cases isDue

theorem written_of_mainLoop {s : Settings} (ready : Ready s) {fopen : Bool} {start : ℕ}
    {inputs : List Input} (steady : Steady start inputs) {t : LoopState}
    (run : mainLoop s fopen start inputs = some t) :
    t.written = ((reportsDue s.timerStats start inputs).flatMap (rowsAt s start)).flatMap
      StatsRow.text := by
  rcases mainLoop_cases ready fopen steady with ⟨left, -⟩ | ⟨t', run', -, -, -, written⟩
  · rw [left] at run
    cases run
  · obtain rfl := Option.some.inj (run'.symm.trans run)
    exact written

/-- **The reports are those that are due.** With the settings of any accepted command line, in every
run of `main_loop`: the program leaves the loop exactly if the file cannot be opened, or a call
of `write_stats` fails at a report that is due. Otherwise it has printed the statistics at the
inputs that are due by the one period, and handed their lines to `fwrite` at the inputs that are due
by the other one; and the reports of either kind are a period apart. -/
theorem reports_are_due {env : Config.Environment} {argv : List (List Char)} {ret : ℤ}
    {s : Settings} (accepted : 0 ≤ ret)
    (parsed : Config.parseArgs env Config.initial argv = .returns ret s) (fopen : Bool)
    {start : ℕ} {inputs : List Input} (steady : Steady start inputs) :
    (mainLoop s fopen start inputs = none ↔
      0 < s.timerStats ∧ (fopen = false ∨
        ∃ input ∈ reportsDue s.timerStats start inputs,
          input.io.succeeds s.globals.procConfigNb = false)) ∧
    (∀ t, mainLoop s fopen start inputs = some t →
      t.screens = (reportsDue s.timerPeriod start inputs).map (screenAt s) ∧
      t.written =
        ((reportsDue s.timerStats start inputs).flatMap (rowsAt s start)).flatMap
          StatsRow.text) ∧
    ∀ period, (reportsDue period start inputs).Pairwise fun a b =>
      a.time + period.toNat ≤ b.time := by
  have ready := Ready.parseArgs accepted parsed
  refine ⟨?_, ?_, fun period => reportsDue_apart period start inputs⟩
  · rcases mainLoop_cases ready fopen steady with
      ⟨left, on, fails⟩ | ⟨t, run, opened, succeeded, -, -⟩
    · exact iff_of_true left ⟨on, fails⟩
    · refine iff_of_false (run ▸ Option.some_ne_none t) ?_
      rintro ⟨on, notOpened | ⟨input, isDue, fails⟩⟩
      · exact absurd ((opened on).symm.trans notOpened) (by decide)
      · exact absurd ((succeeded input isDue).symm.trans fails) (by decide)
  · intro t run
    rcases mainLoop_cases ready fopen steady with
      ⟨left, -⟩ | ⟨t', run', -, -, screens, written⟩
    · rw [left] at run
      cases run
    · obtain rfl := Option.some.inj (run'.symm.trans run)
      exact ⟨screens, written⟩

/-! ### A report every millisecond -/

/-- The configuration file has the name `f`. -/
def twoQueuesFile : Config.Environment where
  files name := if name = ['f'] then some Config.twoQueues else none
  grow := Config.growTo
  unset := 0
  posixlyCorrect := false

/-- The settings of a command line that asks for a report every millisecond. -/
def everyMillisecond : Settings :=
  { Config.initial with
    globals := Config.twoQueuesTables
    configFileName := ['f']
    timerStats := 2660046 }

theorem everyMillisecond_parsed :
    Config.parseArgs twoQueuesFile Config.initial
      (Config.words ["-p", "3", "--config-master", "f", "--stats_t", "1"]) =
        .returns 6 everyMillisecond := by
  rfl

/-- An iteration at a time, without traffic. -/
def idleAt (time : ℕ) : Input := ⟨time, fun _ => ⟨{}, 0, by decide⟩, ⟨true, fun _ => true⟩⟩

/-- A run at some times, without traffic. -/
theorem everyMillisecond_runs {times : List ℕ} (steady : Steady 0 (times.map idleAt)) :
    ∃ t, mainLoop everyMillisecond true 0 (times.map idleAt) = some t := by
  have ready := Ready.parseArgs (by decide) everyMillisecond_parsed
  rcases mainLoop_cases ready true steady with
    ⟨-, -, notOpened | ⟨input, isDue, fails⟩⟩ | ⟨t, run, -⟩
  · cases notOpened
  · unfold reportsDue at isDue
    split at isDue
    · obtain ⟨time, -, rfl⟩ := List.mem_map.mp ((due_sublist _ _ _ _).subset isDue)
      simp [idleAt, StatsIo.succeeds] at fails
    · cases isDue
  · exact ⟨t, run⟩

/-- Of three iterations, the first is due, and the third. -/
theorem reports_are_due_threeIterations :
    ∃ t, mainLoop everyMillisecond true 0 ([2660046, 3000000, 6000000].map idleAt) = some t ∧
      t.written = ([idleAt 2660046, idleAt 6000000].flatMap (rowsAt everyMillisecond 0)).flatMap
        StatsRow.text := by
  have steady : Steady 0 ([2660046, 3000000, 6000000].map idleAt) := by
    simp [Steady, idleAt]
  obtain ⟨t, run⟩ := everyMillisecond_runs steady
  obtain ⟨-, reports, -⟩ := reports_are_due (by decide) everyMillisecond_parsed true steady
  exact ⟨t, run, (reports t run).2⟩

/-! ## What the lines tell -/

/-- The engines in the lines are words. -/
theorem noBlank_of_mem_rowsAt {s : Settings} (engines : EngineWords s.globals) {start : ℕ}
    {inputs : List Input} : ∀ r ∈ inputs.flatMap (rowsAt s start), ' ' ∉ r.engine := by
  intro r member blank
  obtain ⟨input, -, inRows⟩ := List.mem_flatMap.mp member
  obtain ⟨c, -, rfl⟩ := List.mem_map.mp inRows
  exact absurd ((engines c).2 ' ' blank) (by decide)

/-- **What `main_loop` writes can be read back.** When two runs of it, with the settings of any
accepted command lines, have handed the same to `fwrite`, they have reported the same rows in the
same order: the same times, the same configurations with the same processes and engines, and the
same counters. -/
theorem reports_readable {env env' : Config.Environment} {argv argv' : List (List Char)}
    {ret ret' : ℤ} {s s' : Settings} (accepted : 0 ≤ ret) (accepted' : 0 ≤ ret')
    (parsed : Config.parseArgs env Config.initial argv = .returns ret s)
    (parsed' : Config.parseArgs env' Config.initial argv' = .returns ret' s')
    {fopen fopen' : Bool} {start start' : ℕ} {inputs inputs' : List Input}
    (steady : Steady start inputs) (steady' : Steady start' inputs') {t t' : LoopState}
    (run : mainLoop s fopen start inputs = some t)
    (run' : mainLoop s' fopen' start' inputs' = some t') (same : t.written = t'.written) :
    (reportsDue s.timerStats start inputs).flatMap (rowsAt s start) =
      (reportsDue s'.timerStats start' inputs').flatMap (rowsAt s' start') := by
  have ready := Ready.parseArgs accepted parsed
  have ready' := Ready.parseArgs accepted' parsed'
  rw [written_of_mainLoop ready steady run, written_of_mainLoop ready' steady' run'] at same
  exact statsRows_injective (noBlank_of_mem_rowsAt ready.printable.engines)
    (noBlank_of_mem_rowsAt ready'.printable.engines) same

/-- A run with an iteration more between the reports writes the same. -/
theorem reports_readable_threeIterations :
    ∃ t t', mainLoop everyMillisecond true 0 ([2660046, 3000000, 6000000].map idleAt) = some t ∧
      mainLoop everyMillisecond true 0 ([2660046, 6000000].map idleAt) = some t' ∧
      t.written = t'.written ∧
      (reportsDue 2660046 0 ([2660046, 3000000, 6000000].map idleAt)).flatMap
          (rowsAt everyMillisecond 0) =
        (reportsDue 2660046 0 ([2660046, 6000000].map idleAt)).flatMap
          (rowsAt everyMillisecond 0) := by
  have ready := Ready.parseArgs (by decide) everyMillisecond_parsed
  have steady : Steady 0 ([2660046, 3000000, 6000000].map idleAt) := by
    simp [Steady, idleAt]
  have steady' : Steady 0 ([2660046, 6000000].map idleAt) := by
    simp [Steady, idleAt]
  obtain ⟨t, run⟩ := everyMillisecond_runs steady
  obtain ⟨t', run'⟩ := everyMillisecond_runs steady'
  have same : t.written = t'.written := by
    rw [written_of_mainLoop ready steady run, written_of_mainLoop ready steady' run']
    rfl
  exact ⟨t, t', run, run', same, reports_readable (by decide) (by decide)
    everyMillisecond_parsed everyMillisecond_parsed steady steady' run run' same⟩

end DdosFiltering.Master
