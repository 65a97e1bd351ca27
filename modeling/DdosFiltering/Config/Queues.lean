import DdosFiltering.Config.Tables
import DdosFiltering.Foundation.InitialSegments

/-!
# Queue numbers and the port mask

`port_init` sets up as many queues on a port as `parse_configfile` has counted for it, and a slave
polls the queue that its line names. A line is dropped when one of its two ports is not in the
mask, and then the other port has one queue less while the later lines keep their numbers. So the
queues of all slaves exist exactly when the lines that are kept have the first numbers
on each port (`queues_exist_iff`).
-/

set_option autoImplicit false

namespace DdosFiltering.Config

open Foundation

/-- Every enabled entry uses queues that its ports have. -/
def QueuesExist (g : Globals) : Prop :=
  ∀ c, (g.procConfig c).enabled ≠ 0 → ∀ (d : Direction) (p : Fin rteMaxEthports),
    (d.portOf (g.procConfig c)).toNat = p.val →
      (d.queueOf (g.procConfig c)).toNat < (d.queueNb (g.portQueueConf p)).toNat

/-- How many queues `main` and `port_init` set up on a port: what has been counted, and one when
nothing has been. -/
def queuesSetUp (d : Direction) (conf : PortQueueConf) : ℕ :=
  if d.queueNb conf = 0 then 1 else (d.queueNb conf).toNat

/-- So every slave polls a queue that has been set up. -/
theorem QueuesExist.setUp {g : Globals} (exist : QueuesExist g) {c : LcoreId}
    (isEnabled : (g.procConfig c).enabled ≠ 0) (d : Direction) {p : Fin rteMaxEthports}
    (port : (d.portOf (g.procConfig c)).toNat = p.val) :
    (d.queueOf (g.procConfig c)).toNat < queuesSetUp d (g.portQueueConf p) := by
  have counted := exist c isEnabled d p port
  unfold queuesSetUp
  split
  · rename_i none
    rw [none] at counted
    exact absurd counted (Nat.not_lt_zero _)
  · exact counted

/-- On each port, the lines have the receive queues from 0 on without gaps and repetitions, and
the transmit queues likewise. -/
def Dense (ls : List ConfigLine) : Prop :=
  ∀ (d : Direction) (port : UInt32), ∃ k,
    ((ls.filter fun line => d.port line = port).map fun line => (d.queue line).toNat).Perm
      (List.range k)

/-- How many queues the port of the line has when the lines `kept` have been counted. -/
def queuesFor (g : Globals) (kept : List ConfigLine) (d : Direction) (p : Fin rteMaxEthports) : ℕ :=
  (d.queueNb (g.portQueueConf p) + UInt16.ofNat (usersAmong d p kept)).toNat

theorem queueOf_entry (line : ConfigLine) (d : Direction) :
    (d.queueOf line.entry).toNat = (d.queue line).toNat % 2 ^ 8 := by
  cases d with
  | rx => exact UInt32.toNat_toUInt8 _
  | tx => exact UInt32.toNat_toUInt8 _

/-- The queues of the entries are those of the lines. -/
theorem Tabulates.queuesExist_iff {g₀ g : Globals} {kept : List ConfigLine} {mask : UInt32}
    (tables : Tabulates g₀ g kept) (safe : ∀ line ∈ kept, line.Safe mask) :
    QueuesExist g ↔ ∀ line ∈ kept, ∀ (d : Direction) (p : Fin rteMaxEthports),
      (d.port line).toNat = p.val → (d.queue line).toNat % 2 ^ 8 < queuesFor g₀ kept d p := by
  constructor
  · intro exist line member d p port
    obtain ⟨c, -, entry⟩ := tables.entry line member
    have counted := exist c (by rw [entry]; exact one_ne_zero) d p
      (by rw [entry, portOf_entry ((safe line member).port d), port])
    rwa [entry, queueOf_entry, tables.queueNb] at counted
  · intro numbered c isEnabled d p port
    have hasLine : ∃ line ∈ kept, line.configId = c.val := by
      by_contra absent
      have blank := tables.blank c fun line member same => absent ⟨line, member, same⟩
      exact isEnabled (congrArg ProcConfig.enabled blank)
    obtain ⟨line, member, configId⟩ := hasLine
    obtain ⟨c', configId', entry⟩ := tables.entry line member
    obtain rfl : c' = c := Fin.val_inj.mp (by omega)
    rw [entry, portOf_entry ((safe line member).port d)] at port
    rw [entry, queueOf_entry, tables.queueNb]
    exact numbered line member d p port

/-- The number of users of a port among the lines that are kept. -/
theorem usersAmong_keptLines {d : Direction} {p : Fin rteMaxEthports} {line : ConfigLine}
    (port : (d.port line).toNat = p.val) (mask : UInt32) (ls : List ConfigLine) :
    usersAmong d p (keptLines mask ls) =
      ((ls.filter fun other => d.port other = d.port line).filter
        (ConfigLine.unmasked mask)).length := by
  rw [usersAmong, keptLines, List.countP_eq_length_filter, List.filter_filter, List.filter_filter]
  apply congrArg List.length
  apply List.filter_congr
  intro other _
  simp only [← port, UInt32.toNat_inj, Bool.and_comm]

/-- No line that is dropped has a smaller queue number than a line on the same port that is
kept. -/
def KeepsFirst (mask : UInt32) (ls : List ConfigLine) : Prop :=
  ∀ (d : Direction), ∀ line ∈ keptLines mask ls, ∀ other ∈ ls, d.port other = d.port line →
    (d.queue other).toNat < (d.queue line).toNat → other.unmasked mask = true

theorem keepsFirst_iff {mask : UInt32} {ls : List ConfigLine} (dense : Dense ls)
    (inside : ∀ line ∈ keptLines mask ls, line.Safe mask) :
    KeepsFirst mask ls ↔ ∀ line ∈ keptLines mask ls, ∀ (d : Direction) (p : Fin rteMaxEthports),
      (d.port line).toNat = p.val → (d.queue line).toNat < usersAmong d p (keptLines mask ls) := by
  constructor
  · intro first line member d p port
    obtain ⟨inList, unmasked⟩ := List.mem_filter.mp member
    obtain ⟨k, numbers⟩ := dense d (d.port line)
    have onPort := (forall_lt_length_iff numbers (ConfigLine.unmasked mask)).mpr ?_
    · rw [usersAmong_keptLines port]
      refine onPort line (List.mem_filter.mpr ⟨List.mem_filter.mpr ⟨inList, ?_⟩, unmasked⟩)
      exact decide_eq_true rfl
    · intro a onIt isKept b onIt' smaller
      obtain ⟨inList, samePort⟩ := List.mem_filter.mp onIt
      obtain ⟨inList', samePort'⟩ := List.mem_filter.mp onIt'
      refine first d a (List.mem_filter.mpr ⟨inList, isKept⟩) b inList' ?_ smaller
      exact (of_decide_eq_true samePort').trans (of_decide_eq_true samePort).symm
  · intro below d line member other inList samePort smaller
    obtain ⟨inList', unmasked⟩ := List.mem_filter.mp member
    obtain ⟨k, numbers⟩ := dense d (d.port line)
    refine (forall_lt_length_iff numbers (ConfigLine.unmasked mask)).mp ?_ line
      (List.mem_filter.mpr ⟨inList', decide_eq_true rfl⟩) unmasked other
      (List.mem_filter.mpr ⟨inList, decide_eq_true samePort⟩) smaller
    intro a isKept
    obtain ⟨onIt, unmasked⟩ := List.mem_filter.mp isKept
    obtain ⟨inList, samePort⟩ := List.mem_filter.mp onIt
    have aKept := List.mem_filter.mpr ⟨inList, unmasked⟩
    have port : (d.port line).toNat = (d.port a).toNat := by rw [of_decide_eq_true samePort]
    have counted := below a aKept d ⟨_, (inside a aKept).port d⟩ rfl
    rwa [usersAmong_keptLines port] at counted

/-- **Masking keeps queue numbers valid** exactly if the number of every line that is kept, as
the entry stores it, is smaller than the number of queues that the lines kept on the
port make. In tables that held nothing, and for numbers that fit the entry, this says that no line
is dropped below one that is kept. -/
theorem queues_exist_iff {grow : ℕ → ℕ → ℕ} {unset : ℤ} {g g' : Globals} {file : List UInt8}
    (accepted : parseConfigfile grow unset g (some file) = .returns 0 g')
    (dense : Dense (configLines unset file)) :
    (QueuesExist g' ↔
      ∀ line ∈ unmaskedLines g.portMask unset file, ∀ (d : Direction) (p : Fin rteMaxEthports),
        (d.port line).toNat = p.val →
          (d.queue line).toNat % 2 ^ 8 <
            queuesFor g (unmaskedLines g.portMask unset file) d p) ∧
      ((∀ p, g.portQueueConf p = ⟨0, 0⟩) →
        (∀ line ∈ unmaskedLines g.portMask unset file, ∀ d : Direction,
          (d.queue line).toNat < 2 ^ 8) →
          (QueuesExist g' ↔ KeepsFirst g.portMask (configLines unset file))) := by
  obtain ⟨-, storable, rfl⟩ := accepted_iff.mp accepted
  have tables := tabulates_storing storable
  have safe : ∀ line ∈ unmaskedLines g.portMask unset file, line.Safe g.portMask :=
    fun line member => (storable.kept line member).1
  have general := tables.queuesExist_iff safe
  refine ⟨general, ?_⟩
  intro zeroed small
  have counted (d : Direction) (p : Fin rteMaxEthports) :
      queuesFor g (keptLines g.portMask (configLines unset file)) d p =
        usersAmong d p (keptLines g.portMask (configLines unset file)) :=
    tables.toNat_queueNb zeroed d p
  rw [keepsFirst_iff dense safe]
  apply general.trans
  apply forall₂_congr
  intro line member
  apply forall₂_congr
  intro d p
  rw [counted, Nat.mod_eq_of_lt (small line member d)]

/-! ## Two lines that receive from one port -/

/-- Both lines receive from port 1, and the first one sends to port 0. -/
def twoQueues : List UInt8 := fileOf "1\n0 1 0 0 0 DEFAULT\n1 1 1 1 0 DEFAULT\n"

theorem twoQueues_lines : configLines 0 twoQueues =
    [⟨0, 1, 0, 0, 0, "DEFAULT".toList, []⟩, ⟨1, 1, 1, 1, 0, "DEFAULT".toList, []⟩] := by
  rfl

theorem twoQueues_dense : Dense (configLines 0 twoQueues) := by
  rw [twoQueues_lines]
  intro d port
  cases d with
  | rx =>
      by_cases one : port = 1
      · subst one
        exact ⟨2, by decide⟩
      · exact ⟨0, by simp [Direction.port, Ne.symm one]⟩
  | tx =>
      by_cases zero : port = 0
      · subst zero
        exact ⟨1, by decide⟩
      · by_cases one : port = 1
        · subst one
          exact ⟨1, by decide⟩
        · exact ⟨0, by simp [Direction.port, Ne.symm one, Ne.symm zero]⟩

/-- With both ports, the port mask leaves out no line, and both queues exist. -/
theorem queues_exist_iff_bothPorts :
    ∃ g', parseConfigfile growTo 0 (unconfigured 3) (some twoQueues) = .returns 0 g' ∧
      QueuesExist g' := by
  have accepted : parseConfigfile growTo 0 (unconfigured 3) (some twoQueues) = .returns 0
      { ((unconfigured 3).zeroProcConfig.enable 0 ⟨1, by decide⟩ ⟨0, by decide⟩
          ⟨0, 1, 0, 0, 0, "DEFAULT".toList, []⟩).enable 1 ⟨1, by decide⟩ ⟨1, by decide⟩
          ⟨1, 1, 1, 1, 0, "DEFAULT".toList, []⟩ with procConfigNb := 2 } := by rfl
  have small : ∀ line ∈ configLines 0 twoQueues, ∀ d : Direction,
      (d.queue line).toNat < 2 ^ 8 := by
    rw [twoQueues_lines]
    intro line member d
    rcases List.mem_pair.mp member with rfl | rfl <;> cases d <;> decide
  have unmasked : ∀ line ∈ configLines 0 twoQueues, line.unmasked 3 = true := by
    rw [twoQueues_lines]
    decide
  have first := (queues_exist_iff accepted twoQueues_dense).2 (fun _ => rfl)
    fun line member => small line (List.mem_of_mem_filter member)
  exact ⟨_, accepted, first.mpr fun _ _ _ other member _ _ => unmasked other member⟩

/-- With port 1 only, the second line is the only one, and its receive queue is queue 1 of
one. -/
theorem queue_missing :
    ¬∀ (grow : ℕ → ℕ → ℕ) (unset : ℤ) (g g' : Globals) (file : List UInt8),
      parseConfigfile grow unset g (some file) = .returns 0 g' →
        Dense (configLines unset file) → (∀ p, g.portQueueConf p = ⟨0, 0⟩) → QueuesExist g' := by
  intro claim
  have accepted : parseConfigfile growTo 0 (unconfigured 2) (some twoQueues) = .returns 0
      { (unconfigured 2).zeroProcConfig.enable 1 ⟨1, by decide⟩ ⟨1, by decide⟩
          ⟨1, 1, 1, 1, 0, "DEFAULT".toList, []⟩ with procConfigNb := 1 } := by rfl
  have exist := claim growTo 0 (unconfigured 2) _ twoQueues accepted twoQueues_dense fun _ => rfl
  exact absurd (exist 1 (by decide) .rx ⟨1, by decide⟩ rfl) (by decide)

end DdosFiltering.Config
