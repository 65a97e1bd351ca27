import DdosFiltering.Datapath.Runs

/-!
# The optimized burst processing refines the plain one

`bridge_loop_optimized` asks a grouped engine about four packets at a time and counts their
bytes together. When the grouped engine writes the four results the single engine would
write (`Grouped`), the verdicts on a burst are those of the single engine in the order of
the packets (`judgeGroups_eq`), and the two loops do the same to the packets
(`processBurst_refines`): not only the same counters and the same table in the end, but
the same calls on the way.
-/

set_option autoImplicit false

namespace DdosFiltering.Datapath

variable {σ : Type}

/-- What the single engine writes for four packets, one after the other. -/
def Engine1.inOrder (engine : Engine1 σ) (e : σ) (m : Fin 4 → RteMbuf) : (Fin 4 → ℤ) × σ :=
  let r0 := engine e (m 0) 0
  let r1 := engine r0.2 (m 1) 0
  let r2 := engine r1.2 (m 2) 0
  let r3 := engine r2.2 (m 3) 0
  (![r0.1, r1.1, r2.1, r3.1], r3.2)

/-- `engine4` writes into `ret[i]` the value `engine` would write for `m[i]`. -/
def Grouped (engine4 : Engine4 σ) (engine : Engine1 σ) : Prop :=
  ∀ e m, engine4 e m (fun _ => 0) = engine.inOrder e m

/-- An engine of `bridge.c` that returns non-zero exactly when `engine` writes a positive
value. -/
def SameVerdict (plain : Engine σ) (engine : Engine1 σ) : Prop :=
  ∀ e m, ((plain e m.data m.dataLen.toNat).1 ≠ 0 ↔ (engine e m 0).1 > 0) ∧
    (plain e m.data m.dataLen.toNat).2 = (engine e m 0).2

theorem SameVerdict.verdict_eq {plain : Engine σ} {engine : Engine1 σ}
    (same : SameVerdict plain engine) : Engine.verdict plain = Engine1.verdict engine := by
  funext e m
  obtain ⟨sign, next⟩ := same e m
  exact Prod.ext (decide_eq_decide.mpr sign) next

theorem judge4_eq {engine4 : Engine4 σ} {engine : Engine1 σ} (grouped : Grouped engine4 engine)
    (e : σ) (m : Fin 4 → RteMbuf) :
    judge4 engine4 e m = judgeWith (Engine1.verdict engine) e ((List.finRange 4).map m) := by
  have four : (List.finRange 4).map m = [m 0, m 1, m 2, m 3] := rfl
  rw [judge4, grouped e m, four]
  rfl

theorem judgeGroup_eq {engine4 : Engine4 σ} {engine : Engine1 σ}
    (grouped : Grouped engine4 engine) (e : σ) (m : Fin 4 → RteMbuf) :
    judgeGroup engine4 engine e m =
      judgeWith (Engine1.verdict engine) e ((List.finRange 4).map m) := by
  unfold judgeGroup
  rw [judge4_eq grouped]
  split
  · rfl
  · split <;> rfl

/-- **Grouping does not change the verdicts**, whatever the flags of the packets. -/
theorem judgeGroups_eq {engine4 : Engine4 σ} {engine : Engine1 σ}
    (grouped : Grouped engine4 engine) (e : σ) (pkts : List RteMbuf) :
    judgeGroups engine4 engine e pkts = judgeWith (Engine1.verdict engine) e pkts := by
  fun_induction judgeGroups engine4 engine e pkts with
  | case1 e m0 m1 m2 m3 rest group others inductionHypothesis =>
      have front : m0 :: m1 :: m2 :: m3 :: rest =
          (List.finRange 4).map ![m0, m1, m2, m3] ++ rest := rfl
      have group_eq : group = _ := judgeGroup_eq grouped e ![m0, m1, m2, m3]
      have others_eq : others = _ := inductionHypothesis
      rw [front, judgeWith_append, ← group_eq, ← others_eq]
  | case2 e leftOver short => rfl

/-! ## Burst processing from any state -/

/-- Adding a packet to a table with room succeeds and leaves room. -/
theorem State.Room.bridgeAddPacket {s : State σ} (room : s.Room) (driver : TxDriver)
    (m : RteMbuf) : ∃ t, Bridge.bridgeAddPacket driver s m = some (0, t) ∧ t.Room := by
  have inside : s.txLength < maxPktBurst := room
  unfold Bridge.bridgeAddPacket
  simp only [dif_pos inside]
  by_cases full : s.txLength + 1 = maxPktBurst
  · rw [if_pos full]
    exact ⟨_, rfl, .emptied _⟩
  · rw [if_neg full]
    exact ⟨_, rfl, Nat.lt_of_le_of_ne inside full⟩

theorem State.Room.settleAll {s : State σ} (room : s.Room) (driver : TxDriver)
    (judged : List (RteMbuf × Bool)) : ∃ t, settleAll driver s judged = some t ∧ t.Room := by
  induction judged generalizing s with
  | nil => exact ⟨s, rfl, room⟩
  | cons j judged inductionHypothesis =>
      obtain ⟨m, drop⟩ := j
      have counted : (s.countRxBytes m).Room := room
      obtain ⟨s', settled, room'⟩ : ∃ s', settle driver s m drop = some s' ∧ s'.Room := by
        cases drop with
        | true => exact ⟨_, rfl, counted⟩
        | false =>
            obtain ⟨s', added, room'⟩ := counted.bridgeAddPacket driver m
            exact ⟨s', by simp [settle, added], room'⟩
      obtain ⟨t, settledAll, roomAfter⟩ := inductionHypothesis room'
      refine ⟨t, ?_, roomAfter⟩
      rw [settleAll_cons, settled]
      exact settledAll

/-- **The optimized burst processing refines the plain one.** From any state with room in
the transmit table, both end in the same state: the same statistics, the same table, and
the same calls of `rte_eth_tx_burst` and `rte_pktmbuf_free` with the same packets. -/
theorem processBurst_refines (driver : TxDriver) {engine4 : Engine4 σ} {engine : Engine1 σ}
    {plain : Engine σ} (grouped : Grouped engine4 engine) (same : SameVerdict plain engine)
    {s : State σ} (room : s.Room) (burst : RxBurst) :
    ∃ t, BridgeOptimized.processBurst driver engine4 engine s burst.pkts = some t ∧
      Bridge.processBurst driver plain s burst.pkts = some t ∧ t.Room := by
  have counted : (s.countRx burst.pkts.length).Room := room
  obtain ⟨t, settled, roomAfter⟩ :=
    counted.settleAll driver (judgeWith (Engine1.verdict engine) s.engine burst.pkts).1
  refine ⟨t.withEngine (judgeWith (Engine1.verdict engine) s.engine burst.pkts).2, ?_, ?_,
    roomAfter⟩
  · rw [BridgeOptimized.processBurst_eq, judgeGroups_eq grouped, settleJudged, settled]
    rfl
  · rw [Bridge.processBurst_eq, same.verdict_eq, settleJudged, settled]
    rfl

/-- An engine that matches the packets whose first byte is 0, on five IPv4 packets. -/
theorem processBurst_refines_fivePackets :
    let engine : Engine1 Unit := fun e m _ => (if m.data.head? = some 0 then 1 else -1, e)
    let pkt (addr : ℕ) (byte : UInt8) : RteMbuf := ⟨addr, 32, 60, [byte]⟩
    ∃ t, BridgeOptimized.processBurst ⟨fun _ _ => 0, fun _ _ => Nat.zero_le _⟩
        (fun e m _ => engine.inOrder e m) engine (State.initial ())
        [pkt 1 0, pkt 2 7, pkt 3 0, pkt 4 9, pkt 5 0] = some t ∧
      Bridge.processBurst ⟨fun _ _ => 0, fun _ _ => Nat.zero_le _⟩
        (fun e data _ => (if data.head? = some 0 then 1 else 0, e)) (State.initial ())
        [pkt 1 0, pkt 2 7, pkt 3 0, pkt 4 9, pkt 5 0] = some t ∧ t.Room := by
  refine processBurst_refines _ (fun _ _ => rfl) ?_ (.fresh (.initial ())) ⟨_, by decide⟩
  intro e m
  by_cases first : m.data.head? = some 0 <;> simp [first]

end DdosFiltering.Datapath
