import DdosFiltering.Config.Lines
import DdosFiltering.Control.Answers

/-!
# Configuration ids and the statistics array

`bridge_malloc_shared_struct` allocates one entry of `port_statistics` for each configuration
that the parser has counted, and the slaves use the id of their configuration as the index. The
ids are the file's own choice, and the port mask may leave out any of them. An accepted file
enables one entry for each of its lines whose ports are in the mask (`parseConfigfile_filled`);
so the index is inside the array for every slave in every run exactly if each of these lines has
an id that is smaller than their number (`statistics_allocated_iff`).
-/

set_option autoImplicit false

namespace DdosFiltering.Config

open Control Foundation

/-! ## What an accepted file enables -/

/-- What the lines `stored`, all of them with their ports in the mask, make of the globals. -/
structure Filled (g : Globals) (nb : ℤ) (stored : List ConfigLine) (g' : Globals) : Prop where
  procConfigNb : g'.procConfigNb = nb + stored.length
  inside : ∀ line ∈ stored, ∃ c : LcoreId, line.configId = c.val
  enabled : ∀ c, (g'.procConfig c).enabled ≠ 0 ↔
    (g.procConfig c).enabled ≠ 0 ∨ ∃ line ∈ stored, line.configId = (c.val : ℤ)

/-- **An accepted file enables the ids of its unmasked lines, and counts these.** -/
theorem parseConfigfile_filled {grow : ℕ → ℕ → ℕ} {unset : ℤ} {g g' : Globals} {file : List UInt8}
    (accepted : parseConfigfile grow unset g (some file) = .returns 0 g') :
    Filled g.zeroProcConfig 0 (unmaskedLines g.portMask unset file) g' := by
  obtain ⟨-, storable, rfl⟩ := accepted_iff.mp accepted
  constructor
  · exact (zero_add _).symm
  · intro line member
    obtain ⟨safe, unmasked⟩ := storable.kept line member
    obtain ⟨c, -, -, configId, -, -⟩ := safe.place unmasked
    exact ⟨c, configId⟩
  · intro c
    -- A line with the id `c`, to ask whether its entry is enabled.
    have used_iff := isUsed_enableLines_iff (g := g.zeroProcConfig) storable.kept
      ⟨c.val, 0, 0, 0, 0, [], []⟩
    rw [ConfigLine.isUsed_iff (c := c) rfl, ConfigLine.isUsed_iff (c := c) rfl, or_comm] at used_iff
    exact used_iff

/-! ## The array of the statistics -/

/-- How many entries `bridge_malloc_shared_struct` allocates for `port_statistics`; also the
bound of the loops of `print_stats` and `write_stats`. -/
def portStatisticsNb (g : Globals) : ℤ := g.procConfigNb

/-- Every configuration id that `main_set_lcore_cfg` can pick, whatever entries are used, is
inside `port_statistics`, and so is the `conf_id` of every slave in every run. -/
structure StatisticsAllocated (g : Globals) : Prop where
  picked : ∀ s : System, (∀ c, (s.procConfig c).enabled = (g.procConfig c).enabled) →
    ∀ c, s.findFreeProc = some c → (c.val : ℤ) < portStatisticsNb g
  indexed : ∀ (eal : Eal) (pool : List BufPtr) (content : BufPtr → BridgeMsg) (s : System),
    pool.Nodup →
      Run (System.step eal) anyAction
        (System.initial eal (fun c => (g.procConfig c).enabled) pool content) s →
        ∀ l conf, (s.phase l).conf? = some conf → (conf.toNat : ℤ) < portStatisticsNb g

/-- The master picks an enabled entry when it is the only one that is not used. -/
theorem exists_findFreeProc (g : Globals) {c : LcoreId} (isEnabled : (g.procConfig c).enabled ≠ 0) :
    ∃ s : System, (∀ c, (s.procConfig c).enabled = (g.procConfig c).enabled) ∧
      s.findFreeProc = some c := by
  let s : System :=
    { System.initial ⟨fun _ => false, 0⟩ (fun _ => 0) [] (fun _ => ⟨.start, []⟩) with
      procConfig := fun c' => ⟨(g.procConfig c').enabled, if c' = c then 0 else 1⟩ }
  refine ⟨s, fun _ => rfl, ?_⟩
  cases found : s.findFreeProc with
  | none =>
      have free : s.FreeConf c := ⟨isEnabled, by simp [s]⟩
      exact absurd ⟨c, free⟩ (findFreeProc_eq_none.mp found)
  | some c' =>
      have unused := (s.findFreeProc_spec found).2
      by_cases same : c' = c
      · rw [same]
      · exact absurd (by simp [System.used, s, same]) unused

/-- **The statistics index is allocated exactly if the ids are dense.** For a configuration file
that is accepted: every id that can be handed to a slave, and the index of every slave in every run,
is inside `port_statistics`, if and only if each line whose ports are in the mask has an id
smaller than the number of these lines. -/
theorem statistics_allocated_iff (grow : ℕ → ℕ → ℕ) (unset : ℤ) (g : Globals) (file : List UInt8)
    {g' : Globals} (accepted : parseConfigfile grow unset g (some file) = .returns 0 g') :
    StatisticsAllocated g' ↔
      ∀ line ∈ unmaskedLines g.portMask unset file,
        line.configId < (unmaskedLines g.portMask unset file).length := by
  have filled := parseConfigfile_filled accepted
  have nb : portStatisticsNb g' = (unmaskedLines g.portMask unset file).length := by
    rw [portStatisticsNb, filled.procConfigNb, zero_add]
  have enabled (c : LcoreId) : (g'.procConfig c).enabled ≠ 0 ↔
      ∃ line ∈ unmaskedLines g.portMask unset file, line.configId = (c.val : ℤ) := by
    rw [filled.enabled]
    simp [Globals.zeroProcConfig]
  rw [← nb]
  constructor
  · intro allocated line member
    obtain ⟨c, configId⟩ := filled.inside line member
    obtain ⟨s, table, found⟩ := exists_findFreeProc g' ((enabled c).mpr ⟨line, member, configId⟩)
    rw [configId]
    exact allocated.picked s table c found
  · intro dense
    have inside (c : LcoreId) (isEnabled : (g'.procConfig c).enabled ≠ 0) :
        (c.val : ℤ) < portStatisticsNb g' := by
      obtain ⟨line, member, configId⟩ := (enabled c).mp isEnabled
      rw [← configId]
      exact dense line member
    constructor
    · intro s table c found
      have picked := (s.findFreeProc_spec found).1
      rw [table] at picked
      exact inside c picked
    · intro eal pool content s distinct run l conf serves
      have initial := Sound.initial eal (fun c => (g'.procConfig c).enabled) distinct content
      have sound := initial.run run
      obtain ⟨noted, isEnabled⟩ := (sound.agreed l).serves conf serves
      rw [noted]
      exact inside _ isEnabled

/-! ## A file of two lines -/

/-- A file with two configurations, 0 on port 0 and 1 on port 1. -/
def twoPorts : List UInt8 := fileOf "1\n0 0 0 0 0 DEFAULT\n1 1 1 0 0 DEFAULT\n"

/-- The globals after `twoPorts` with the port mask 2, which leaves out configuration 0. -/
def secondPort : Globals :=
  { (unconfigured 2).zeroProcConfig.enable 1 ⟨1, by decide⟩ ⟨1, by decide⟩
      ⟨1, 1, 1, 0, 0, "DEFAULT".toList, []⟩ with procConfigNb := 1 }

/-- With the port mask 1, the index of configuration 0 is allocated. -/
theorem statistics_allocated_iff_firstPort :
    ∃ g', parseConfigfile growTo 0 (unconfigured 1) (some twoPorts) = .returns 0 g' ∧
      StatisticsAllocated g' := by
  have accepted : parseConfigfile growTo 0 (unconfigured 1) (some twoPorts) = .returns 0
      { (unconfigured 1).zeroProcConfig.enable 0 ⟨0, by decide⟩ ⟨0, by decide⟩
          ⟨0, 0, 0, 0, 0, "DEFAULT".toList, []⟩ with procConfigNb := 1 } := by rfl
  exact ⟨_, accepted, (statistics_allocated_iff growTo 0 (unconfigured 1) twoPorts accepted).mpr
    (by decide +kernel)⟩

/-- With the port mask 2, configuration 1 is the only one, and one entry of `port_statistics`
is allocated. The first slave gets configuration 1, and its index is outside the array. -/
theorem index_outside_statistics :
    ¬∀ (grow : ℕ → ℕ → ℕ) (unset : ℤ) (g g' : Globals) (file : List UInt8),
      parseConfigfile grow unset g (some file) = .returns 0 g' → StatisticsAllocated g' := by
  intro claim
  have accepted : parseConfigfile growTo 0 (unconfigured 2) (some twoPorts) =
      .returns 0 secondPort := by rfl
  obtain ⟨s, executed, phase⟩ : ∃ s, exec (System.step threeLcores)
      (.initial threeLcores (fun c => (secondPort.procConfig c).enabled) [1, 2, 3] fun _ =>
        ⟨.start, []⟩) (asks 1 3 ++ isAnswered 1) = some s ∧ s.phase 1 = .running 3 1 :=
    Option.map_eq_some_iff.mp (by rfl)
  have inside := (claim growTo 0 (unconfigured 2) secondPort twoPorts accepted).indexed threeLcores
    [1, 2, 3] (fun _ => ⟨.start, []⟩) s (by decide) (.of_exec (fun _ _ _ => trivial) executed) 1 1
    (by rw [phase]; rfl)
  exact absurd inside (by decide)

end DdosFiltering.Config
