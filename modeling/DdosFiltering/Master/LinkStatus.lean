import DdosFiltering.Master.Ports

/-!
# Waiting for the links

`check_all_ports_link_status` of `main.c` asks for the links of the ports every 100 ms, up to 9 s,
until all are up, and prints them in one round more. It waits once for each round in which a link
was down, and prints each port of the mask once (`link_check_ends`). What it prints is what the
links are in that round, so a link that has gone down meanwhile is printed so.
-/

set_option autoImplicit false

namespace DdosFiltering.Master

open Config (Globals)

/-- `CHECK_INTERVAL`, in milliseconds. -/
def checkInterval : ℕ := 100

/-- `MAX_CHECK_TIME`, in intervals. -/
def maxCheckTime : ℕ := 90

/-- What is read of a `struct rte_eth_link`. -/
structure EthLink where
  linkStatus : Bool
  linkSpeed : UInt16
  fullDuplex : Bool
deriving DecidableEq, Repr

/-- What `check_all_ports_link_status` prints, and its delays. -/
inductive LinkEvent where
  | dot
  | delayMs (ms : ℕ)
  | done
  | linkUp (portid : PortId) (linkSpeed : UInt16) (fullDuplex : Bool)
  | linkDown (portid : PortId)
deriving DecidableEq, Repr

/-- The line of a port. -/
def printLink (portid : PortId) (link : EthLink) : LinkEvent :=
  if link.linkStatus then .linkUp portid link.linkSpeed link.fullDuplex else .linkDown portid

/-- The loop over the ports in one round: `all_ports_up`, and what is printed. -/
def checkPorts (g : Globals) (link : PortId → EthLink) (printFlag : Bool) :
    List PortId → Bool × List LinkEvent
  | [] => (true, [])
  | portid :: portids =>
      if !enabledPort g portid then
        checkPorts g link printFlag portids
      else if printFlag then
        let later := checkPorts g link printFlag portids
        (later.1, printLink portid (link portid) :: later.2)
      else if !(link portid).linkStatus then
        (false, [])
      else
        checkPorts g link printFlag portids

/-- The loop over the rounds. `links` are the links of the ports in each round. -/
def checkRounds (g : Globals) (portids : List PortId) (links : ℕ → PortId → EthLink)
    (printFlag : Bool) : List ℕ → List LinkEvent
  | [] => []
  | count :: counts =>
      let checked := checkPorts g (links count) printFlag portids
      if printFlag then
        checked.2
      else
        let waits := if !checked.1 then [.dot, .delayMs checkInterval] else []
        if checked.1 || count = maxCheckTime - 1 then
          checked.2 ++ waits ++ .done :: checkRounds g portids links true counts
        else
          checked.2 ++ waits ++ checkRounds g portids links false counts

/-- `check_all_ports_link_status`. -/
def checkAllPortsLinkStatus (g : Globals) (portNum : UInt8) (links : ℕ → PortId → EthLink) :
    List LinkEvent :=
  checkRounds g (devices portNum) links false (List.range (maxCheckTime + 1))

section

variable {g : Globals} {portids : List PortId} {links : ℕ → PortId → EthLink}

/-- All links are up in a round. -/
def AllUp (g : Globals) (portids : List PortId) (link : PortId → EthLink) : Prop :=
  ∀ p ∈ portids.filter (enabledPort g), (link p).linkStatus = true

/-- A round in which nothing is printed, by induction on the ports. -/
theorem checkPorts_false (g : Globals) (portids : List PortId) (link : PortId → EthLink) :
    (checkPorts g link false portids).2 = [] ∧
      ((checkPorts g link false portids).1 = true ↔ AllUp g portids link) := by
  induction portids with
  | nil => exact ⟨rfl, iff_of_true rfl (List.forall_mem_nil _)⟩
  | cons portid portids inductionHypothesis =>
      rw [checkPorts, AllUp]
      cases isEnabled : enabledPort g portid with
      | false =>
          rw [List.filter_cons_of_neg (by simp [isEnabled])]
          exact inductionHypothesis
      | true =>
          rw [List.filter_cons_of_pos isEnabled, List.forall_mem_cons]
          cases up : (link portid).linkStatus with
          | false =>
              exact ⟨rfl, iff_of_false Bool.false_ne_true fun all => Bool.false_ne_true all.1⟩
          | true => exact ⟨inductionHypothesis.1, inductionHypothesis.2.trans (by simp [AllUp])⟩

/-- The last round prints the ports of the mask, by induction on the ports. -/
theorem checkPorts_true (link : PortId → EthLink) :
    (checkPorts g link true portids).2 =
      (portids.filter (enabledPort g)).map fun p => printLink p (link p) := by
  induction portids with
  | nil => rfl
  | cons portid portids inductionHypothesis =>
      rw [checkPorts]
      cases isEnabled : enabledPort g portid with
      | false =>
          rw [List.filter_cons_of_neg (by simp [isEnabled])]
          exact inductionHypothesis
      | true =>
          rw [List.filter_cons_of_pos isEnabled, List.map_cons, ← inductionHypothesis]
          rfl

/-- The ports of the mask with their links. -/
def printLinks (g : Globals) (portids : List PortId) (link : PortId → EthLink) :
    List LinkEvent :=
  (portids.filter (enabledPort g)).map fun p => printLink p (link p)

/-- Behind a round in which all links are up comes the last one. -/
theorem checkRounds_up {n : ℕ} (up : AllUp g portids (links n)) (m : ℕ) (counts : List ℕ) :
    checkRounds g portids links false (n :: m :: counts) =
      .done :: printLinks g portids (links m) := by
  obtain ⟨quiet, up_iff⟩ := checkPorts_false g portids (links n)
  rw [checkRounds, quiet, up_iff.mpr up, printLinks, ← checkPorts_true]
  rfl

/-- Behind a round in which a link is down comes another one. -/
theorem checkRounds_down {n : ℕ} (down : ¬AllUp g portids (links n))
    (early : n ≠ maxCheckTime - 1) (counts : List ℕ) :
    checkRounds g portids links false (n :: counts) =
      [.dot, .delayMs checkInterval] ++ checkRounds g portids links false counts := by
  obtain ⟨quiet, up_iff⟩ := checkPorts_false g portids (links n)
  rw [checkRounds, quiet, Bool.eq_false_iff.mpr (up_iff.not.mpr down), Bool.false_or,
    decide_eq_false early]
  rfl

/-- The last chance. -/
theorem checkRounds_late {n : ℕ} (down : ¬AllUp g portids (links n))
    (late : n = maxCheckTime - 1) (m : ℕ) (counts : List ℕ) :
    checkRounds g portids links false (n :: m :: counts) =
      [.dot, .delayMs checkInterval] ++ .done :: printLinks g portids (links m) := by
  obtain ⟨quiet, up_iff⟩ := checkPorts_false g portids (links n)
  rw [checkRounds, quiet, Bool.eq_false_iff.mpr (up_iff.not.mpr down), decide_eq_true late,
    printLinks, ← checkPorts_true]
  rfl

/-- What is printed in some rounds in which a link is down. -/
def waitsFor (rounds : ℕ) : List LinkEvent :=
  (List.replicate rounds [.dot, .delayMs checkInterval]).flatten

/-- The events from a round on: some rounds wait, and then the links are printed. -/
structure EndsAfter (g : Globals) (portids : List PortId) (links : ℕ → PortId → EthLink) (n : ℕ)
    (events : List LinkEvent) (waits : ℕ) : Prop where
  most : n + waits ≤ maxCheckTime
  down : ∀ k < waits, ¬AllUp g portids (links (n + k))
  up : n + waits < maxCheckTime → AllUp g portids (links (n + waits))
  printed : events = waitsFor waits ++
    .done :: printLinks g portids (links (min (n + waits + 1) maxCheckTime))

/-- One round more that waits. -/
theorem EndsAfter.wait {n waits : ℕ} {events : List LinkEvent}
    (ends : EndsAfter g portids links (n + 1) events waits) (down : ¬AllUp g portids (links n)) :
    EndsAfter g portids links n ([.dot, .delayMs checkInterval] ++ events) (waits + 1) := by
  have place : n + (waits + 1) = n + 1 + waits := by omega
  refine ⟨place ▸ ends.most, ?_, place ▸ ends.up, ?_⟩
  · intro k earlier
    cases k with
    | zero => exact down
    | succ k =>
        have later := ends.down k (by omega)
        rwa [Nat.add_right_comm] at later
  · rw [ends.printed, place]
    rfl

/-- The rounds from one on, by induction on how many are left before the last chance. -/
theorem checkRounds_ends (g : Globals) (portids : List PortId) (links : ℕ → PortId → EthLink)
    {n left : ℕ} (limit : n + left = maxCheckTime - 1) :
    ∃ waits, EndsAfter g portids links n
      (checkRounds g portids links false (List.range' n (left + 2))) waits := by
  have limits : maxCheckTime = 90 := rfl
  rw [List.range'_succ]
  by_cases up : AllUp g portids (links n)
  · have next : min (n + 0 + 1) maxCheckTime = n + 1 := by omega
    rw [List.range'_succ, checkRounds_up up]
    exact ⟨0, by omega, nofun, fun _ => up, by rw [next]; rfl⟩
  · cases left with
    | zero =>
        have next : min (n + 1 + 1) maxCheckTime = n + 1 := by omega
        rw [List.range'_succ, checkRounds_late up limit]
        refine ⟨1, by omega, ?_, fun early => by omega, by rw [next]; rfl⟩
        intro k first
        obtain rfl : k = 0 := by omega
        exact up
    | succ left =>
        have nearer : n + 1 + left = maxCheckTime - 1 := by omega
        obtain ⟨waits, ends⟩ := checkRounds_ends g portids links nearer
        rw [checkRounds_down up (by omega)]
        exact ⟨waits + 1, ends.wait up⟩

/-- **The wait for the links ends**, whatever they do. It lasts for one interval for each round in
which a link was down, 9 s at most; and each port of the mask is printed once, as its link is in
the round behind the first one in which all were up, or in the last one. -/
theorem link_check_ends (g : Globals) (portNum : UInt8) (links : ℕ → PortId → EthLink) :
    ∃ waits ≤ maxCheckTime, (∀ k < waits, ¬AllUp g (devices portNum) (links k)) ∧
      (waits < maxCheckTime → AllUp g (devices portNum) (links waits)) ∧
      checkAllPortsLinkStatus g portNum links =
        waitsFor waits ++
          .done :: printLinks g (devices portNum) (links (min (waits + 1) maxCheckTime)) := by
  have limit : 0 + (maxCheckTime - 1) = maxCheckTime - 1 := Nat.zero_add _
  obtain ⟨waits, most, down, up, printed⟩ :=
    checkRounds_ends g (devices portNum) links limit
  simp only [Nat.zero_add] at most down up printed
  refine ⟨waits, most, down, up, ?_⟩
  rw [checkAllPortsLinkStatus, List.range_eq_range']
  exact printed

end

end DdosFiltering.Master
