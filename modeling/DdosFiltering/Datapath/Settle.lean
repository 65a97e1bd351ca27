import DdosFiltering.Datapath.BridgeOptimized

/-!
# Both loops settle a list of judged packets

The two loops differ in when they ask their engines, in when they count the received bytes
and in how they group the packets. What they do to a packet once it is judged is the same:
count its bytes, then free it or add it to the transmit table (`settle`).

This module reduces the burst processing of both loops to that: it is the settling of the
packets one by one, with the verdicts of the engines (`Bridge.processBurst_eq`,
`BridgeOptimized.processBurst_eq`). The reduction moves the counting of bytes and the
change of the engine's state across the settling of other packets. Neither is read there
(`settle_frame`).
-/

set_option autoImplicit false

namespace DdosFiltering.Datapath

variable {σ : Type}

/-- Count the bytes of a packet, and free it (`drop`) or add it to the transmit table. -/
def settle (driver : TxDriver) (s : State σ) (m : RteMbuf) (drop : Bool) : Option (State σ) :=
  if drop then
    some ((s.countRxBytes m).freeFiltered m)
  else
    (Bridge.bridgeAddPacket driver (s.countRxBytes m) m).map Prod.snd

/-- Settle packets in order. -/
def settleAll (driver : TxDriver) (s : State σ) (judged : List (RteMbuf × Bool)) :
    Option (State σ) :=
  judged.foldlM (fun s j => settle driver s j.1 j.2) s

@[simp] theorem settleAll_nil (driver : TxDriver) (s : State σ) :
    settleAll driver s [] = some s := rfl

theorem settleAll_cons (driver : TxDriver) (s : State σ) (j : RteMbuf × Bool)
    (judged : List (RteMbuf × Bool)) :
    settleAll driver s (j :: judged) =
      (settle driver s j.1 j.2).bind fun s => settleAll driver s judged := rfl

theorem settleAll_append (driver : TxDriver) (s : State σ)
    (front back : List (RteMbuf × Bool)) :
    settleAll driver s (front ++ back) =
      (settleAll driver s front).bind fun s => settleAll driver s back := by
  simp [settleAll, List.foldlM_append, Option.bind_eq_bind]

/-! ## Changes that settling does not see -/

namespace State

/-- Add `b` to the received bytes and change the engine's state by `g`. -/
def frame (b : UInt64) (g : σ → σ) (s : State σ) : State σ :=
  { s with stats.rxB := s.stats.rxB + b, engine := g s.engine }

/-- Set the engine's state. -/
def withEngine (s : State σ) (e : σ) : State σ := { s with engine := e }

/-- Count the bytes of several packets. -/
def countAll (s : State σ) (pkts : List RteMbuf) : State σ := pkts.foldl countRxBytes s

theorem withEngine_eq_frame (s : State σ) (e : σ) : s.withEngine e = s.frame 0 fun _ => e := by
  simp [withEngine, frame]

theorem frame_countRxBytes (b : UInt64) (g : σ → σ) (s : State σ) (m : RteMbuf) :
    (s.frame b g).countRxBytes m = (s.countRxBytes m).frame b g := by
  simp only [frame, countRxBytes]
  rw [UInt64.add_assoc, UInt64.add_comm b, ← UInt64.add_assoc]

/-- Counting several packets is one addition to the received bytes. -/
theorem countAll_eq_frame (pkts : List RteMbuf) :
    ∃ b : UInt64, ∀ s : State σ, s.countAll pkts = s.frame b id := by
  induction pkts with
  | nil => exact ⟨0, fun s => by simp [countAll, frame]⟩
  | cons m pkts inductionHypothesis =>
      obtain ⟨b, counted⟩ := inductionHypothesis
      refine ⟨m.dataLen.toUInt64 + b, fun s => ?_⟩
      have step : s.countAll (m :: pkts) = (s.countRxBytes m).countAll pkts := rfl
      rw [step, counted]
      simp [frame, countRxBytes, UInt64.add_assoc]

@[simp] theorem frame_engine (b : UInt64) (g : σ → σ) (s : State σ) :
    (s.frame b g).engine = g s.engine := rfl

@[simp] theorem withEngine_engine (s : State σ) (e : σ) : (s.withEngine e).engine = e := rfl

@[simp] theorem withEngine_withEngine (s : State σ) (e e' : σ) :
    (s.withEngine e).withEngine e' = s.withEngine e' := rfl

end State

open State

theorem foldl_freeDropped_frame (b : UInt64) (g : σ → σ) (pkts : List RteMbuf) (s : State σ) :
    pkts.foldl freeDropped (s.frame b g) = (pkts.foldl freeDropped s).frame b g := by
  induction pkts generalizing s with
  | nil => rfl
  | cons m pkts inductionHypothesis => exact inductionHypothesis (s.freeDropped m)

theorem bridgeSendBurst_frame (driver : TxDriver) (b : UInt64) (g : σ → σ) (s : State σ) (n : ℕ) :
    Bridge.bridgeSendBurst driver (s.frame b g) n =
      (Bridge.bridgeSendBurst driver s n).frame b g := by
  have sameCall : driver.accept (s.frame b g).txCalls ((s.frame b g).txSlots n) =
      driver.accept s.txCalls (s.txSlots n) := rfl
  unfold Bridge.bridgeSendBurst
  by_cases short : driver.accept s.txCalls (s.txSlots n) < n
  · simp only [sameCall, if_pos short]
    exact foldl_freeDropped_frame b g ((s.txSlots n).drop _)
      ((s.transmitted (s.txSlots n) (driver.accept s.txCalls (s.txSlots n))).countDropped _)
  · simp only [sameCall, if_neg short]
    rfl

theorem bridgeAddPacket_frame (driver : TxDriver) (b : UInt64) (g : σ → σ) (s : State σ)
    (m : RteMbuf) :
    Bridge.bridgeAddPacket driver (s.frame b g) m =
      (Bridge.bridgeAddPacket driver s m).map fun r => (r.1, r.2.frame b g) := by
  have sameLength : (s.frame b g).txLength = s.txLength := rfl
  unfold Bridge.bridgeAddPacket
  by_cases inside : s.txLength < maxPktBurst
  · by_cases full : s.txLength + 1 = maxPktBurst
    · simp only [sameLength, dif_pos inside, if_pos full]
      have send := bridgeSendBurst_frame driver b g (s.storeMbuf s.txLength inside m) maxPktBurst
      exact congrArg (fun t : State σ => some ((0 : ℤ), t.setLength 0)) send
    · simp only [sameLength, dif_pos inside, if_neg full]
      rfl
  · simp only [sameLength, dif_neg inside]
    rfl

/-- **Settling a packet commutes with every change of the received bytes and of the
engine's state.** -/
theorem settle_frame (driver : TxDriver) (b : UInt64) (g : σ → σ) (s : State σ) (m : RteMbuf)
    (drop : Bool) :
    settle driver (s.frame b g) m drop = (settle driver s m drop).map (State.frame b g) := by
  unfold settle
  rw [frame_countRxBytes]
  cases drop with
  | true => rfl
  | false =>
      simp only [Bool.false_eq_true, if_false]
      rw [bridgeAddPacket_frame]
      simp [Function.comp_def]

theorem settleAll_frame (driver : TxDriver) (b : UInt64) (g : σ → σ)
    (judged : List (RteMbuf × Bool)) (s : State σ) :
    settleAll driver (s.frame b g) judged = (settleAll driver s judged).map (State.frame b g) := by
  induction judged generalizing s with
  | nil => rfl
  | cons j judged inductionHypothesis =>
      rw [settleAll_cons, settleAll_cons, settle_frame]
      cases settle driver s j.1 j.2 with
      | none => rfl
      | some t => exact inductionHypothesis t

theorem settleAll_withEngine (driver : TxDriver) (s : State σ) (e : σ)
    (judged : List (RteMbuf × Bool)) :
    settleAll driver (s.withEngine e) judged =
      (settleAll driver s judged).map (State.withEngine · e) := by
  rw [withEngine_eq_frame, settleAll_frame]
  exact congrArg (fun f => Option.map f _) (funext fun t => (withEngine_eq_frame t e).symm)

/-- `bridge_add_packet` returns 0. -/
theorem bridgeAddPacket_ret {driver : TxDriver} {s t : State σ} {m : RteMbuf} {ret : ℤ}
    (added : Bridge.bridgeAddPacket driver s m = some (ret, t)) : ret = 0 := by
  unfold Bridge.bridgeAddPacket at added
  by_cases inside : s.txLength < maxPktBurst
  · by_cases full : s.txLength + 1 = maxPktBurst
    · simp only [dif_pos inside, if_pos full, Option.some.injEq, Prod.mk.injEq] at added
      exact added.1.symm
    · simp only [dif_pos inside, if_neg full, Option.some.injEq, Prod.mk.injEq] at added
      exact added.1.symm
  · simp [dif_neg inside] at added

theorem bridgeAddPacket_withEngine (driver : TxDriver) (s : State σ) (e : σ) (m : RteMbuf) :
    Bridge.bridgeAddPacket driver (s.withEngine e) m =
      (Bridge.bridgeAddPacket driver s m).map fun r => (r.1, r.2.withEngine e) := by
  rw [withEngine_eq_frame, bridgeAddPacket_frame]
  exact congrArg (fun f => Option.map f _)
    (funext fun r => congrArg (Prod.mk r.1) (withEngine_eq_frame r.2 e).symm)

/-! ## The verdicts of the engines -/

/-- The verdicts on packets judged one by one, and the state of the engine after them.
`true` is a match. -/
def judgeWith (verdict : σ → RteMbuf → Bool × σ) :
    σ → List RteMbuf → List (RteMbuf × Bool) × σ
  | e, [] => ([], e)
  | e, m :: pkts =>
      let rest := judgeWith verdict (verdict e m).2 pkts
      ((m, (verdict e m).1) :: rest.1, rest.2)

/-- The engine of `bridge.c` matches a packet when it does not return 0. -/
def Engine.verdict (engine : Engine σ) (e : σ) (m : RteMbuf) : Bool × σ :=
  (decide ((engine e m.data m.dataLen.toNat).1 ≠ 0), (engine e m.data m.dataLen.toNat).2)

/-- The engine of `bridge_optimized.c` matches a packet when it writes a positive result. -/
def Engine1.verdict (engine : Engine1 σ) (e : σ) (m : RteMbuf) : Bool × σ :=
  (decide ((engine e m 0).1 > 0), (engine e m 0).2)

/-- The verdicts of the grouped engine on a group of four. -/
def judge4 (engine4 : Engine4 σ) (e : σ) (m : Fin 4 → RteMbuf) : List (RteMbuf × Bool) × σ :=
  let result := engine4 e m fun _ => 0
  ((List.finRange 4).map fun i => (m i, decide (result.1 i > 0)), result.2)

/-- The verdicts on a group: of the grouped engine when the flags of the four packets
agree on IPv4 or on IPv6, of the single engine otherwise. -/
def judgeGroup (engine4 : Engine4 σ) (engine : Engine1 σ) (e : σ) (m : Fin 4 → RteMbuf) :
    List (RteMbuf × Bool) × σ :=
  if (BridgeOptimized.olFlag m).toUInt64 &&& BridgeOptimized.pktRxIpv4Hdr ≠ 0 then
    judge4 engine4 e m
  else if (BridgeOptimized.olFlag m).toUInt64 &&& BridgeOptimized.pktRxIpv6Hdr ≠ 0 then
    judge4 engine4 e m
  else
    judgeWith (Engine1.verdict engine) e ((List.finRange 4).map m)

/-- The verdicts on a burst, in groups of four and then one by one. -/
def judgeGroups (engine4 : Engine4 σ) (engine : Engine1 σ) :
    σ → List RteMbuf → List (RteMbuf × Bool) × σ
  | e, m0 :: m1 :: m2 :: m3 :: rest =>
      let group := judgeGroup engine4 engine e ![m0, m1, m2, m3]
      let others := judgeGroups engine4 engine group.2 rest
      (group.1 ++ others.1, others.2)
  | e, leftOver => judgeWith (Engine1.verdict engine) e leftOver

/-- Settle the judged packets and leave the engine in its last state. -/
def settleJudged (driver : TxDriver) (s : State σ) (judged : List (RteMbuf × Bool) × σ) :
    Option (State σ) :=
  (settleAll driver s judged.1).map (State.withEngine · judged.2)

theorem settleJudged_withEngine (driver : TxDriver) (s : State σ) (e : σ)
    (judged : List (RteMbuf × Bool) × σ) :
    settleJudged driver (s.withEngine e) judged = settleJudged driver s judged := by
  rw [settleJudged, settleAll_withEngine, Option.map_map, settleJudged]
  rfl

/-- Settling two judged lists, one after the other. -/
theorem settleJudged_append (driver : TxDriver) (s : State σ) (front : List (RteMbuf × Bool))
    (middle : σ) (back : List (RteMbuf × Bool) × σ) :
    settleJudged driver s (front ++ back.1, back.2) =
      (settleJudged driver s (front, middle)).bind fun t => settleJudged driver t back := by
  simp only [settleJudged, settleAll_append]
  cases settleAll driver s front with
  | none => rfl
  | some t => exact (settleJudged_withEngine driver t middle back).symm

/-- A loop whose step settles one packet with its verdict settles all of them. -/
theorem foldlM_settle {driver : TxDriver} {verdict : σ → RteMbuf → Bool × σ}
    {step : State σ → RteMbuf → Option (State σ)}
    (settles : ∀ s m, step s m = settleJudged driver s (judgeWith verdict s.engine [m]))
    (pkts : List RteMbuf) (s : State σ) :
    pkts.foldlM step s = settleJudged driver s (judgeWith verdict s.engine pkts) := by
  induction pkts generalizing s with
  | nil => rfl
  | cons m pkts inductionHypothesis =>
      have split := settleJudged_append driver s [(m, (verdict s.engine m).1)]
        (verdict s.engine m).2 (judgeWith verdict (verdict s.engine m).2 pkts)
      rw [List.foldlM_cons, settles]
      refine Eq.trans ?_ split.symm
      simp only [settleJudged, judgeWith, Option.bind_eq_bind, Option.bind_map]
      refine congrArg _ (funext fun t => ?_)
      exact inductionHypothesis (t.withEngine (verdict s.engine m).2)

/-! ## The loop of `bridge.c` -/

namespace Bridge

theorem processPacket_eq (driver : TxDriver) (engine : Engine σ) (s : State σ) (m : RteMbuf) :
    processPacket driver engine s m =
      settleJudged driver s (judgeWith (Engine.verdict engine) s.engine [m]) := by
  have sameEngine : (s.countRxBytes m).engine = s.engine := rfl
  unfold processPacket bridgeFilter
  simp only [judgeWith, Engine.verdict, settleJudged, settleAll_cons, settleAll_nil, settle,
    sameEngine]
  by_cases verdict : (engine s.engine m.data m.dataLen.toNat).1 = 0
  · simp only [verdict, if_pos, ne_eq, not_true_eq_false, decide_false, Bool.false_eq_true,
      if_false]
    have setEngine := bridgeAddPacket_withEngine driver (s.countRxBytes m)
      (engine s.engine m.data m.dataLen.toNat).2 m
    simp only [State.withEngine] at setEngine
    rw [setEngine]
    cases added : bridgeAddPacket driver (s.countRxBytes m) m with
    | none => rfl
    | some r =>
        obtain ⟨ret, t⟩ := r
        have zero := bridgeAddPacket_ret added
        subst zero
        rfl
  · simp only [verdict, if_false, ne_eq, not_false_eq_true, decide_true, if_true]
    rfl

/-- **The burst processing of `bridge.c` settles the packets with the verdicts of the
engine.** -/
theorem processBurst_eq (driver : TxDriver) (engine : Engine σ) (s : State σ)
    (pkts : List RteMbuf) :
    processBurst driver engine s pkts =
      settleJudged driver (s.countRx pkts.length)
        (judgeWith (Engine.verdict engine) s.engine pkts) := by
  unfold processBurst
  split
  · rename_i noPackets
    rw [List.length_eq_zero_iff] at noPackets
    subst noPackets
    simp [judgeWith, settleJudged, State.countRx, State.withEngine]
  · exact foldlM_settle (processPacket_eq driver engine) pkts (s.countRx pkts.length)

end Bridge

/-! ## The loop of `bridge_optimized.c` -/

namespace BridgeOptimized

/-- Settling a packet is disposing of it once its bytes are counted. -/
theorem settle_eq_dispose (driver : TxDriver) (s : State σ) (m : RteMbuf) (ret : ℤ) :
    settle driver s m (decide (ret > 0)) = dispose driver (s.countRxBytes m) m ret := by
  unfold settle dispose
  by_cases found : ret > 0
  · simp [found]
  · simp [found, bridgeAddPacket]

theorem dispose_frame (driver : TxDriver) (b : UInt64) (g : σ → σ) (s : State σ) (m : RteMbuf)
    (ret : ℤ) :
    dispose driver (s.frame b g) m ret = (dispose driver s m ret).map (State.frame b g) := by
  unfold dispose
  by_cases found : ret > 0
  · simp only [if_pos found]
    rfl
  · simp only [if_neg found, bridgeAddPacket, bridgeAddPacket_frame, Option.map_map]
    rfl

theorem dispose_countAll (driver : TxDriver) (pkts : List RteMbuf) (s : State σ) (m : RteMbuf)
    (ret : ℤ) :
    dispose driver (s.countAll pkts) m ret = (dispose driver s m ret).map (countAll · pkts) := by
  obtain ⟨b, counted⟩ := countAll_eq_frame (σ := σ) pkts
  simp only [counted, dispose_frame]

theorem dispose_withEngine (driver : TxDriver) (s : State σ) (e : σ) (m : RteMbuf) (ret : ℤ) :
    dispose driver (s.withEngine e) m ret = (dispose driver s m ret).map (withEngine · e) := by
  simp only [withEngine_eq_frame, dispose_frame]

/-- Counting the bytes of all packets first and disposing of them afterwards is settling
them one by one. -/
theorem foldlM_dispose (driver : TxDriver) (results : List (RteMbuf × ℤ)) (s : State σ) :
    results.foldlM (fun s r => dispose driver s r.1 r.2) (s.countAll (results.map Prod.fst)) =
      settleAll driver s (results.map fun r => (r.1, decide (r.2 > 0))) := by
  induction results generalizing s with
  | nil => rfl
  | cons r results inductionHypothesis =>
      have counted : s.countAll ((r :: results).map Prod.fst) =
          (s.countRxBytes r.1).countAll (results.map Prod.fst) := rfl
      rw [List.foldlM_cons, counted, dispose_countAll, List.map_cons, settleAll_cons,
        settle_eq_dispose]
      simp only [Option.bind_eq_bind, Option.bind_map]
      exact congrArg _ (funext fun t => inductionHypothesis t)

/-- The same, for packets that the single engine judges one by one. -/
theorem foldlM_bridgeFilter (driver : TxDriver) (engine : Engine1 σ) (pkts : List RteMbuf)
    (s : State σ) :
    pkts.foldlM (bridgeFilter driver engine) (s.countAll pkts) =
      settleJudged driver s (judgeWith (Engine1.verdict engine) s.engine pkts) := by
  induction pkts generalizing s with
  | nil => rfl
  | cons m pkts inductionHypothesis =>
      obtain ⟨b, countedAll⟩ := countAll_eq_frame (σ := σ) pkts
      have sameEngine : ((s.countRxBytes m).countAll pkts).engine = s.engine := by
        rw [countedAll]
        rfl
      have counted : s.countAll (m :: pkts) = (s.countRxBytes m).countAll pkts := rfl
      have first : bridgeFilter driver engine (s.countAll (m :: pkts)) m =
          ((settle driver s m (Engine1.verdict engine s.engine m).1).map
            (withEngine · (Engine1.verdict engine s.engine m).2)).map (countAll · pkts) := by
        rw [Engine1.verdict, settle_eq_dispose, counted, ← dispose_withEngine, ← dispose_countAll]
        unfold bridgeFilter
        simp only [sameEngine]
        simp only [countedAll]
        rfl
      have split := settleJudged_append driver s [(m, (Engine1.verdict engine s.engine m).1)]
        (Engine1.verdict engine s.engine m).2
        (judgeWith (Engine1.verdict engine) (Engine1.verdict engine s.engine m).2 pkts)
      rw [List.foldlM_cons, first]
      refine Eq.trans ?_ split.symm
      simp only [settleJudged, settleAll_cons]
      cases settle driver s m (Engine1.verdict engine s.engine m).1 with
      | none => rfl
      | some t =>
          exact inductionHypothesis (t.withEngine (Engine1.verdict engine s.engine m).2)

theorem processPacket_eq (driver : TxDriver) (engine : Engine1 σ) (s : State σ) (m : RteMbuf) :
    processPacket driver engine s m =
      settleJudged driver s (judgeWith (Engine1.verdict engine) s.engine [m]) := by
  rw [← foldlM_bridgeFilter, List.foldlM_cons]
  unfold processPacket
  have counted : s.countAll [m] = s.countRxBytes m := rfl
  rw [counted]
  cases bridgeFilter driver engine (s.countRxBytes m) m <;> rfl

/-- A group handled together is settled with the verdicts of the grouped engine. -/
theorem ipv4BridgeFilter4pkts_eq (driver : TxDriver) (engine4 : Engine4 σ) (s : State σ)
    (m : Fin 4 → RteMbuf) :
    ipv4BridgeFilter4pkts driver engine4 (s.countAll ((List.finRange 4).map m)) m =
      settleJudged driver s (judge4 engine4 s.engine m) := by
  obtain ⟨b, countedAll⟩ := countAll_eq_frame (σ := σ) ((List.finRange 4).map m)
  have sameEngine : (s.countAll ((List.finRange 4).map m)).engine = s.engine := by
    rw [countedAll]
    rfl
  unfold ipv4BridgeFilter4pkts judge4
  simp only [sameEngine]
  have disposed := foldlM_dispose driver
    ((List.finRange 4).map fun i => (m i, (engine4 s.engine m fun _ => 0).1 i))
    (s.withEngine (engine4 s.engine m fun _ => 0).2)
  rw [List.foldlM_map, List.map_map, List.map_map] at disposed
  have samePkts : (List.finRange 4).map (Prod.fst ∘ fun i =>
      (m i, (engine4 s.engine m fun _ => 0).1 i)) = (List.finRange 4).map m := rfl
  rw [samePkts, countedAll, settleAll_withEngine] at disposed
  rw [countedAll]
  exact disposed

theorem processGroup_eq (driver : TxDriver) (engine4 : Engine4 σ) (engine : Engine1 σ)
    (s : State σ) (m : Fin 4 → RteMbuf) :
    processGroup driver engine4 engine s m =
      settleJudged driver s (judgeGroup engine4 engine s.engine m) := by
  have counted : (((s.countRxBytes (m 0)).countRxBytes (m 1)).countRxBytes (m 2)).countRxBytes
      (m 3) = s.countAll ((List.finRange 4).map m) := rfl
  unfold processGroup judgeGroup
  simp only [counted]
  by_cases ipv4 : (olFlag m).toUInt64 &&& pktRxIpv4Hdr ≠ 0
  · rw [if_pos ipv4, if_pos ipv4]
    exact ipv4BridgeFilter4pkts_eq driver engine4 s m
  · rw [if_neg ipv4, if_neg ipv4]
    by_cases ipv6 : (olFlag m).toUInt64 &&& pktRxIpv6Hdr ≠ 0
    · rw [if_pos ipv6, if_pos ipv6]
      exact ipv4BridgeFilter4pkts_eq driver engine4 s m
    · rw [if_neg ipv6, if_neg ipv6, ← foldlM_bridgeFilter, List.foldlM_map]

theorem processGroups_eq (driver : TxDriver) (engine4 : Engine4 σ) (engine : Engine1 σ)
    (s : State σ) (pkts : List RteMbuf) :
    processGroups driver engine4 engine s pkts =
      settleJudged driver s (judgeGroups engine4 engine s.engine pkts) := by
  fun_induction processGroups driver engine4 engine s pkts with
  | case1 s m0 m1 m2 m3 rest inductionHypothesis =>
      have split := settleJudged_append driver s
        (judgeGroup engine4 engine s.engine ![m0, m1, m2, m3]).1
        (judgeGroup engine4 engine s.engine ![m0, m1, m2, m3]).2
        (judgeGroups engine4 engine (judgeGroup engine4 engine s.engine ![m0, m1, m2, m3]).2 rest)
      rw [judgeGroups, processGroup_eq]
      refine Eq.trans ?_ split.symm
      simp only [settleJudged, Option.bind_eq_bind, Option.bind_map]
      refine congrArg _ (funext fun t => ?_)
      exact inductionHypothesis (t.withEngine _)
  | case2 s leftOver short =>
      rw [judgeGroups]
      · exact foldlM_settle (processPacket_eq driver engine) leftOver s
      · exact short

/-- **The burst processing of `bridge_optimized.c` settles the packets with the verdicts of
its two engines.** -/
theorem processBurst_eq (driver : TxDriver) (engine4 : Engine4 σ) (engine : Engine1 σ)
    (s : State σ) (pkts : List RteMbuf) :
    processBurst driver engine4 engine s pkts =
      settleJudged driver (s.countRx pkts.length) (judgeGroups engine4 engine s.engine pkts) := by
  unfold processBurst
  split
  · rename_i noPackets
    rw [List.length_eq_zero_iff] at noPackets
    subst noPackets
    simp [judgeGroups, judgeWith, settleJudged, State.countRx, State.withEngine]
  · exact processGroups_eq driver engine4 engine (s.countRx pkts.length) pkts

end BridgeOptimized

/-! ## The packets that are judged -/

theorem judgeWith_fst (verdict : σ → RteMbuf → Bool × σ) (e : σ) (pkts : List RteMbuf) :
    (judgeWith verdict e pkts).1.map Prod.fst = pkts := by
  induction pkts generalizing e with
  | nil => rfl
  | cons m pkts inductionHypothesis => simp [judgeWith, inductionHypothesis]

theorem judgeGroup_fst (engine4 : Engine4 σ) (engine : Engine1 σ) (e : σ)
    (m : Fin 4 → RteMbuf) :
    (judgeGroup engine4 engine e m).1.map Prod.fst = (List.finRange 4).map m := by
  unfold judgeGroup judge4
  split
  · rw [List.map_map]
    rfl
  · split
    · rw [List.map_map]
      rfl
    · exact judgeWith_fst _ e _

/-- Both loops judge the packets of a burst in the order of reception. -/
theorem judgeGroups_fst (engine4 : Engine4 σ) (engine : Engine1 σ) (e : σ)
    (pkts : List RteMbuf) :
    (judgeGroups engine4 engine e pkts).1.map Prod.fst = pkts := by
  fun_induction judgeGroups engine4 engine e pkts with
  | case1 e m0 m1 m2 m3 rest group others inductionHypothesis =>
      rw [List.map_append, judgeGroup_fst, inductionHypothesis]
      rfl
  | case2 e leftOver short => exact judgeWith_fst _ e leftOver

end DdosFiltering.Datapath
