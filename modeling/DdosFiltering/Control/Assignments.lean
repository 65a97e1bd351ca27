import DdosFiltering.Control.Answers

/-!
# The assignment of a configuration

`main_set_lcore_cfg` looks for a free entry of `proc_config`, sends its number to the slave and
then notes the entry as used. The send fails in four ways, in one of them after a
message buffer has been taken. The function either does all of this or leaves
everything that others see as it was (`assignment_atomic`), in every state of the master.
-/

set_option autoImplicit false

namespace DdosFiltering.Control

open scoped List

variable {s t : System} {l c : LcoreId}

/-- **What `send_cmd` does to the memory**, in any state: it moves one buffer from the pool
to the ring, or puts back what it has taken. -/
theorem sendCmd_memory (table : IpcTable) (mem : IpcMem) (slaveId : LcoreId) (msg : BridgeMsg)
    (isMaster : Bool) (k : ℕ) :
    ∃ ret mem', sendCmd table mem slaveId msg isMaster k = (ret, mem') ∧
      (∀ b, b ∉ mem.free → mem'.content b = mem.content b) ∧
      (ret = 0 ∧ (∃ b, mem.free ~ b :: mem'.free ∧ mem'.content b = msg ∧
          mem'.ring = Function.update mem.ring (sendRing slaveId isMaster)
            (mem.ring (sendRing slaveId isMaster) ++ [b])) ∨
        ret = -1 ∧ mem'.ring = mem.ring ∧ mem'.free ~ mem.free) := by
  unfold sendCmd
  by_cases disabled : (isMaster && !table.enabled slaveId) = true
  · rw [if_pos disabled]
    exact ⟨_, _, rfl, fun _ _ => rfl, .inr ⟨rfl, rfl, .refl _⟩⟩
  by_cases missing : (!table.created (sendRing slaveId isMaster)) = true
  · rw [if_neg disabled, if_pos missing]
    exact ⟨_, _, rfl, fun _ _ => rfl, .inr ⟨rfl, rfl, .refl _⟩⟩
  rw [if_neg disabled, if_neg missing]
  cases allocated : mem.mempoolGet k with
  | none => exact ⟨_, _, rfl, fun _ _ => rfl, .inr ⟨rfl, rfl, .refl _⟩⟩
  | some r =>
      obtain ⟨b, mem₁⟩ := r
      obtain ⟨taken, same⟩ := IpcMem.mempoolGet_eq_some allocated
      have sameRing : (mem₁.write b msg).ring = mem.ring := by rw [same]; rfl
      have written : (mem₁.write b msg).content b = msg := Function.update_self ..
      have others (b' : BufPtr) (notFree : b' ∉ mem.free) :
          (mem₁.write b msg).content b' = mem.content b' := by
        have different : b' ≠ b := by
          intro isTaken
          exact notFree (taken.mem_iff.mpr (isTaken ▸ List.mem_cons_self))
        rw [same]
        exact Function.update_of_ne different _ _
      simp only
      cases enqueued : (mem₁.write b msg).ringEnqueue (sendRing slaveId isMaster) b with
      | none => exact ⟨_, _, rfl, others, .inr ⟨rfl, sameRing, taken.symm⟩⟩
      | some mem₂ =>
          obtain rfl := IpcMem.ringEnqueue_eq_some enqueued
          refine ⟨_, _, rfl, others, .inl ⟨rfl, b, taken, written, ?_⟩⟩
          rw [← sameRing]

/-- The search of `main_set_lcore_cfg` finds the first free entry. -/
theorem findFreeProc_least (found : s.findFreeProc = some c) :
    s.FreeConf c ∧ ∀ c', c' < c → ¬s.FreeConf c' := by
  refine ⟨s.findFreeProc_spec found, ?_⟩
  intro c' before free
  unfold System.findFreeProc at found
  obtain ⟨-, front, back, split, noneBefore⟩ := List.find?_eq_some_iff_append.mp found
  have sorted : (List.finRange rteMaxLcore).Pairwise (· < ·) := List.pairwise_lt_finRange _
  have member : c' ∈ front ++ c :: back := split ▸ List.mem_finRange c'
  rw [split] at sorted
  have later := List.pairwise_cons.mp (List.pairwise_append.mp sorted).2.1
  rcases List.mem_append.mp member with inFront | notInFront
  · have rejected := noneBefore c' inFront
    simp [free.1, free.2] at rejected
  · rcases List.mem_cons.mp notInFront with rfl | inBack
    · exact absurd before (lt_irrefl _)
    · exact absurd (later.1 c' inBack) (not_lt_of_gt before)

/-- The entry `c` has been assigned to the slave of `l`: it was the first one that is enabled and
not used, it is noted as used in the three tables, and one message has been added to the ring
to the slave, which carries its number. -/
structure Assigned (s t : System) (l c : LcoreId) : Prop where
  free : (s.procConfig c).enabled ≠ 0 ∧ (s.procConfig c).used ≠ 1
  least : ∀ c', c' < c → ¬((s.procConfig c').enabled ≠ 0 ∧ (s.procConfig c').used ≠ 1)
  procConfig : t.procConfig = Function.update s.procConfig c { s.procConfig c with used := 1 }
  lcoreResource : t.lcoreResource =
    Function.update s.lcoreResource l { s.lcoreResource l with configId := c }
  procConfigUsedNb : t.procConfigUsedNb = s.procConfigUsedNb + 1
  sent : ∃ b, s.mem.free ~ b :: t.mem.free ∧
    t.mem.ring = Function.update s.mem.ring (l, 0) (s.mem.ring (l, 0) ++ [b]) ∧
    (t.mem.content b).cmd = .cfg ∧ atoi (t.mem.content b).msg = c.val
  content : ∀ b, b ∉ s.mem.free → t.mem.content b = s.mem.content b

/-- Nothing that others see has changed: the tables, the rings with what is in them, and the
number of free buffers. -/
structure Unassigned (s t : System) : Prop where
  procConfig : t.procConfig = s.procConfig
  lcoreResource : t.lcoreResource = s.lcoreResource
  procConfigUsedNb : t.procConfigUsedNb = s.procConfigUsedNb
  ring : t.mem.ring = s.mem.ring
  free : t.mem.free.length = s.mem.free.length
  content : ∀ b, b ∉ s.mem.free → t.mem.content b = s.mem.content b

/-- **The assignment of a configuration is atomic.** In every state, `main_set_lcore_cfg` either
returns 0 and has assigned an entry, or returns -1 and has changed nothing. -/
theorem assignment_atomic (s : System) (l : LcoreId) (k : ℕ) :
    ((s.mainSetLcoreCfg l k).1 = 0 ∧ ∃ c, Assigned s (s.mainSetLcoreCfg l k).2 l c) ∨
      (s.mainSetLcoreCfg l k).1 = -1 ∧ Unassigned s (s.mainSetLcoreCfg l k).2 := by
  unfold System.mainSetLcoreCfg
  cases found : s.findFreeProc with
  | none => exact .inr ⟨rfl, rfl, rfl, rfl, rfl, rfl, fun _ _ => rfl⟩
  | some c =>
      obtain ⟨free, least⟩ := findFreeProc_least found
      obtain ⟨ret, mem, sent, content, ⟨rfl, b, taken, written, ring⟩ | ⟨rfl, ring, back⟩⟩ :=
        sendCmd_memory s.table s.mem l (System.reply c) true k
      · refine .inl ?_
        simp only [sent]
        refine ⟨rfl, c, free, least, rfl, rfl, rfl, ⟨b, taken, ring, ?_, ?_⟩, content⟩
        · exact congrArg BridgeMsg.cmd written
        · exact (congrArg (atoi ·.msg) written).trans (atoi_decimal c)
      · refine .inr ?_
        simp only [sent]
        exact ⟨rfl, rfl, rfl, rfl, ring, back.length_eq, content⟩

end DdosFiltering.Control
