import Fountainer.Canopen.Gating

/-!
# The turns of the TPDOs

The loops of `tpdo_tick` and `sync_rx` give every TPDO its turn. A turn changes the record of
its own TPDO only and sends that TPDO's frames only, so the TPDO `i` finds its record as it
was before the loop, and leaves it as it is behind the loop.
-/

namespace Fountainer.Canopen

open Traces (Grows)

variable {σ : Type*} {A : App σ} {w : World σ} {i : Fin coTpdoCount}

-- ════════════════════════════════════════════════════════════════════════
-- The transmissions of a TPDO
-- ════════════════════════════════════════════════════════════════════════

/-- The frame of TPDO `i` that an action hands to the driver, and whether the driver took it. -/
def Act.tpdoSend? (i : Fin coTpdoCount) : Act → Option (CoFrame × Bool)
  | .send kind f ok => if kind = .tpdo i then some (f, ok) else none
  | _ => none

/-- The attempts to transmit TPDO `i` among the effects, in order. -/
def tpdoSends (i : Fin coTpdoCount) (es : List Effect) : List (CoFrame × Bool) :=
  es.filterMap (fun e => e.act.tpdoSend? i)

@[simp] theorem tpdoSends_append (es es' : List Effect) :
    tpdoSends i (es ++ es') = tpdoSends i es ++ tpdoSends i es' :=
  List.filterMap_append

/-- A TPDO is sent by its own part only. -/
theorem By.tpdoSend_none {nmt : NmtState} {S : Set Part} {e : Effect} (h : By nmt S e)
    (hS : .tpdo i ∉ S) : e.act.tpdoSend? i = none := by
  obtain ⟨-, p, hp, hact⟩ := h
  cases hsend : e.act with
  | send kind f ok =>
    refine if_neg ?_
    rintro rfl
    rw [hsend] at hact
    cases p with
    | tpdo j =>
      obtain rfl : i = j := TxKind.tpdo.inj hact
      exact hS hp
    | owner | heartbeat | emcy | sdo | rpdo => simp [Part.allows] at hact
  | read | write | apply | copy => rfl

/-- Other parts add no transmission of the TPDO. -/
theorem GrowsBy.tpdoSends_eq {nmt : NmtState} {S : Set Part} {w w' : World σ}
    (h : GrowsBy nmt S w w') (hS : .tpdo i ∉ S) : tpdoSends i w'.out = tpdoSends i w.out := by
  obtain ⟨new, hnew, hby⟩ := h
  have hnone : tpdoSends i new = [] :=
    List.filterMap_eq_nil_iff.mpr fun e he => (hby e he).tpdoSend_none hS
  rw [hnew, tpdoSends_append, hnone, List.append_nil]

/-- The frame of a TPDO with this data. -/
def TpdoParams.frame (p : TpdoParams) (data : List UInt8) : CoFrame :=
  CoFrame.ofBytes (p.cobId &&& 0x7FF).toUInt16 data

/-- The record of a TPDO whose frame was taken. -/
def CoTpdo.taken (p : CoTpdo) (nowMs : UInt32) (data : List UInt8) : CoTpdo :=
  { p with lastTxMs := nowMs, haveLast := true, lastData := data, syncCount := 0 }

/-- What `tpdo_send` can come to. Only a frame that the driver takes is put on record. -/
inductive Attempt (A : App σ) (i : Fin coTpdoCount) (w w' : World σ) : Prop where
  | unreadable (hdata : (tpdoBuild A w (w.node.tpdo i).toTpdoParams).1 = none)
      (hnode : w'.node = w.node) (hsends : tpdoSends i w'.out = tpdoSends i w.out)
  | refused (data : List UInt8)
      (hdata : (tpdoBuild A w (w.node.tpdo i).toTpdoParams).1 = some data)
      (hnode : w'.node = w.node)
      (hsends : tpdoSends i w'.out = tpdoSends i w.out ++ [((w.node.tpdo i).frame data, false)])
  | sent (data : List UInt8)
      (hdata : (tpdoBuild A w (w.node.tpdo i).toTpdoParams).1 = some data)
      (hnode : w'.node = w.node.setTpdo i ((w.node.tpdo i).taken w.node.nowMs data))
      (hsends : tpdoSends i w'.out = tpdoSends i w.out ++ [((w.node.tpdo i).frame data, true)])
      (htook : ∃ s, (A.send s ((w.node.tpdo i).frame data)).1 = true)

theorem tpdoBuildFrom_sends {j : Fin coTpdoCount} {data : List UInt8} {es : List UInt32} :
    tpdoSends j (tpdoBuildFrom A w data es).2.out = tpdoSends j w.out := by
  induction es generalizing w data with
  | nil => rfl
  | cons e es ih =>
    simp only [tpdoBuildFrom]
    split
    · rw [odRead_out, tpdoSends_append]
      exact List.append_nil _
    · rw [ih, World.emit_out, odRead_out, tpdoSends_append, tpdoSends_append]
      exact (List.append_nil _).trans (List.append_nil _)

/-- Building the data sends nothing. -/
theorem tpdoBuild_sends (j : Fin coTpdoCount) (p : TpdoParams) :
    tpdoSends j (tpdoBuild A w p).2.out = tpdoSends j w.out :=
  tpdoBuildFrom_sends

theorem tpdoBuild_node (p : TpdoParams) : (tpdoBuild A w p).2.node = w.node :=
  (tpdoBuild_spec 0 p).1

theorem tpdoBuildFrom_congr {w w' : World σ} (hod : odInternalRead w'.node = odInternalRead w.node)
    (happ : w'.app = w.app) (data : List UInt8) (es : List UInt32) :
    (tpdoBuildFrom A w' data es).1 = (tpdoBuildFrom A w data es).1 := by
  induction es generalizing w w' data with
  | nil => rfl
  | cons e es ih =>
    obtain ⟨hread, happ'⟩ :=
      @odRead_congr _ A w w' (entryIndex e) (entrySub e) coSdoBufSize hod happ
    simp only [tpdoBuildFrom, hread]
    split
    · rfl
    · apply ih
      · rw [World.emit_node, World.emit_node, odRead_node, odRead_node]
        exact hod
      · exact happ'

/-- The objects show the parameters of the TPDOs, not their runtime fields. -/
theorem odInternalRead_withoutTx (n : CoNode) : odInternalRead n.withoutTx = odInternalRead n := rfl

/-- The data depend on the communication objects and the application. -/
theorem tpdoBuild_congr {w w' : World σ} (hod : odInternalRead w'.node = odInternalRead w.node)
    (happ : w'.app = w.app) (p : TpdoParams) : (tpdoBuild A w' p).1 = (tpdoBuild A w p).1 :=
  tpdoBuildFrom_congr hod happ [] p.entries

theorem tpdoSend_attempt (A : App σ) (w : World σ) (i : Fin coTpdoCount) :
    Attempt A i w (tpdoSend A w i) := by
  have hnode := (@tpdoBuild_spec _ A w i (w.node.tpdo i).toTpdoParams).1
  have hbuild := @tpdoBuild_sends _ A w i (w.node.tpdo i).toTpdoParams
  simp only [tpdoSend]
  split
  · next hdata => exact .unreadable hdata hnode hbuild
  next data hdata =>
  set w₁ := (tpdoBuild A w (w.node.tpdo i).toTpdoParams).2
  have hsends :
    tpdoSends i (tx A w₁ (.tpdo i) ((w.node.tpdo i).cobId &&& 0x7FF).toUInt16 data).2.out =
      tpdoSends i w.out ++ [((w.node.tpdo i).frame data,
        (tx A w₁ (.tpdo i) ((w.node.tpdo i).cobId &&& 0x7FF).toUInt16 data).1)] := by
    rw [tx_out, tpdoSends_append, hbuild]
    simp [tpdoSends, Act.tpdoSend?, TpdoParams.frame]
  split
  · next hok =>
    rw [hok] at hsends
    refine .sent data hdata ?_ hsends ⟨w₁.app, hok⟩
    rw [tx_node, hnode]
    rfl
  · next hok =>
    rw [Bool.eq_false_iff.mpr hok] at hsends
    exact .refused data hdata hnode hsends

theorem tpdoSend_growsBy (A : App σ) (w : World σ) (i : Fin coTpdoCount) :
    GrowsBy w.node.nmt {.tpdo i} w (tpdoSend A w i) := by
  obtain ⟨hnode, hgrow, -⟩ := @tpdoBuild_spec _ A w i (w.node.tpdo i).toTpdoParams
  simp only [tpdoSend]
  split
  · exact hgrow
  next data hdata =>
  have htx := @tx_growsBy _ A (tpdoBuild A w (w.node.tpdo i).toTpdoParams).2 (.tpdo i)
    ((w.node.tpdo i).cobId &&& 0x7FF).toUInt16 data (.tpdo i) (fun _ _ => rfl)
    (fun _ _ _ => trivial)
  rw [hnode] at htx
  split <;> exact hgrow.trans htx

-- ════════════════════════════════════════════════════════════════════════
-- Turns
-- ════════════════════════════════════════════════════════════════════════

/-- What the turn of TPDO `i` leaves to the other TPDOs: their records and their frames. -/
structure Turn (i : Fin coTpdoCount) (w w' : World σ) : Prop where
  others : ∀ j, j ≠ i → w'.node.tpdo j = w.node.tpdo j
  sends : ∀ j, j ≠ i → tpdoSends j w'.out = tpdoSends j w.out

theorem Turn.refl (i : Fin coTpdoCount) (w : World σ) : Turn i w w :=
  ⟨fun _ _ => rfl, fun _ _ => rfl⟩

theorem Turn.trans {w w' w'' : World σ} (h : Turn i w w') (h' : Turn i w' w'') : Turn i w w'' :=
  ⟨fun j hj => (h'.others j hj).trans (h.others j hj),
    fun j hj => (h'.sends j hj).trans (h.sends j hj)⟩

theorem tpdoSend_turn (A : App σ) (w : World σ) (i : Fin coTpdoCount) :
    Turn i w (tpdoSend A w i) := by
  constructor
  · intro j hj
    cases tpdoSend_attempt A w i with
    | unreadable _ hnode | refused _ _ hnode => rw [hnode]
    | sent _ _ hnode =>
      rw [hnode]
      exact CoNode.setTpdo_of_ne _ hj _
  · intro j hj
    refine (tpdoSend_growsBy A w i).tpdoSends_eq ?_
    rw [Set.mem_singleton_iff, Part.tpdo.injEq]
    exact hj

theorem tpdoChanged_node (i : Fin coTpdoCount) : (tpdoChanged A w i).2.node = w.node := by
  simp only [tpdoChanged]
  split <;> exact tpdoBuild_node _

theorem tpdoChanged_sends (i j : Fin coTpdoCount) :
    tpdoSends j (tpdoChanged A w i).2.out = tpdoSends j w.out := by
  simp only [tpdoChanged]
  split <;> exact tpdoBuild_sends j _

theorem tpdoChanged_turn (i : Fin coTpdoCount) : Turn i w (tpdoChanged A w i).2 :=
  ⟨fun j _ => by rw [tpdoChanged_node], fun j _ => tpdoChanged_sends i j⟩

theorem tpdoTickOne_turn (A : App σ) (w : World σ) (i : Fin coTpdoCount) :
    Turn i w (tpdoTickOne A w i) := by
  simp only [tpdoTickOne]
  split
  · exact Turn.refl i w
  split
  · exact Turn.refl i w
  split
  · exact tpdoSend_turn A w i
  split
  · exact (tpdoChanged_turn i).trans (tpdoSend_turn A _ i)
  · exact tpdoChanged_turn i

theorem syncTpdo_turn (A : App σ) (w : World σ) (i : Fin coTpdoCount) :
    Turn i w (syncTpdo A w i) := by
  simp only [syncTpdo]
  split
  · exact Turn.refl i w
  split
  · split
    · exact (tpdoChanged_turn i).trans (tpdoSend_turn A _ i)
    · exact tpdoChanged_turn i
  · have hcount : Turn i w { w with node := (w.node.setTpdo i
        { w.node.tpdo i with syncCount := (w.node.tpdo i).syncCount + 1 }) } :=
      ⟨fun j hj => CoNode.setTpdo_of_ne _ hj _, fun _ _ => rfl⟩
    split
    · exact hcount.trans (tpdoSend_turn A _ i)
    · exact hcount

/-- The turns of other TPDOs. -/
theorem turns_skip {turn : World σ → Fin coTpdoCount → World σ} (hturn : ∀ w j, Turn j w (turn w j))
    {is : List (Fin coTpdoCount)} (hi : i ∉ is) (w : World σ) :
    (is.foldl turn w).node.tpdo i = w.node.tpdo i ∧
      tpdoSends i (is.foldl turn w).out = tpdoSends i w.out := by
  induction is generalizing w with
  | nil => exact ⟨rfl, rfl⟩
  | cons j is ih =>
    obtain ⟨hj, his⟩ := not_or.mp (mt List.mem_cons.mpr hi)
    obtain ⟨hrec, hsends⟩ := ih his (turn w j)
    exact ⟨hrec.trans ((hturn w j).others i hj), hsends.trans ((hturn w j).sends i hj)⟩

/-- The world in which the loop comes to TPDO `i`. -/
def turnOf (turn : World σ → Fin coTpdoCount → World σ) (w : World σ) (i : Fin coTpdoCount) :
    World σ :=
  ((List.finRange coTpdoCount).take i).foldl turn w

/-- **One TPDO in the loop**: it finds its record as it was, and what its turn makes of the record
    and sends is what the loop makes of it and sends. -/
theorem turns_at {turn : World σ → Fin coTpdoCount → World σ} (hturn : ∀ w j, Turn j w (turn w j))
    (w : World σ) (i : Fin coTpdoCount) :
    ((turnOf turn w i).node.tpdo i = w.node.tpdo i ∧
      tpdoSends i (turnOf turn w i).out = tpdoSends i w.out) ∧
    ((List.finRange coTpdoCount).foldl turn w).node.tpdo i =
    (turn (turnOf turn w i) i).node.tpdo i ∧
      tpdoSends i ((List.finRange coTpdoCount).foldl turn w).out =
        tpdoSends i (turn (turnOf turn w i) i).out := by
  have hsplit : List.finRange coTpdoCount =
      (List.finRange coTpdoCount).take i ++ i :: (List.finRange coTpdoCount).drop (i + 1) := by
    revert i; decide
  have hbefore : i ∉ (List.finRange coTpdoCount).take i := by revert i; decide
  have hbehind : i ∉ (List.finRange coTpdoCount).drop (i + 1) := by revert i; decide
  refine ⟨turns_skip hturn hbefore w, ?_⟩
  have hfold : (List.finRange coTpdoCount).foldl turn w =
      ((List.finRange coTpdoCount).drop (i + 1)).foldl turn (turn (turnOf turn w i) i) := by
    conv_lhs => rw [hsplit]
    rw [List.foldl_append, List.foldl_cons]
    rfl
  rw [hfold]
  exact turns_skip hturn hbehind _

-- ════════════════════════════════════════════════════════════════════════
-- The turns of a tick and of a SYNC
-- ════════════════════════════════════════════════════════════════════════

/-- In `v` a call made in `w` at time `t` comes to TPDO `i`: the node is OPERATIONAL, and the TPDO
    stands as it did when the call was made and has not been sent. -/
structure TurnAt (i : Fin coTpdoCount) (w : World σ) (t : UInt32) (v : World σ) : Prop where
  record : v.node.tpdo i = w.node.tpdo i
  now : v.node.nowMs = t
  nmt : v.node.nmt = .operational
  unsent : tpdoSends i v.out = []

theorem turnAt_turnOf {turn : World σ → Fin coTpdoCount → World σ}
    (hturn : ∀ w j, Turn j w (turn w j)) (honly : ∀ w j, TpdoOnly w (turn w j)) {w w₁ : World σ}
    {t : UInt32} (h : TurnAt i w t w₁) : TurnAt i w t (turnOf turn w₁ i) := by
  obtain ⟨⟨hrec, hsends⟩, -⟩ := turns_at hturn w₁ i
  have hspine := (TpdoOnly.foldl (w := w₁) honly ((List.finRange coTpdoCount).take i)).spine
  exact ⟨hrec.trans h.record, (congrArg Spine.nowMs hspine).trans h.now,
    (congrArg Spine.nmt hspine).trans h.nmt, hsends.trans h.unsent⟩

/-- A tick up to the TPDOs. -/
def tickHead (A : App σ) (w : World σ) (t : UInt32) : World σ :=
  sdoTimeout A (heartbeatTick A (atTime { w with out := [] } t))

/-- The world in which a tick comes to TPDO `i`. -/
def tickTurn (A : App σ) (w : World σ) (t : UInt32) (i : Fin coTpdoCount) : World σ :=
  turnOf (tpdoTickOne A) (tickHead A w t) i

/-- Heartbeat and SDO timeout keep off the PDOs. -/
theorem tickHead_node (A : App σ) (w : World σ) (t : UInt32) : ∃ hb flag sdo,
    (tickHead A w t).node = { w.node with
      nowMs := t, hbLastMs := hb, bootupPending := flag, sdo := sdo } := by
  obtain ⟨hb, flag, hnode⟩ := @heartbeatTick_node _ A (atTime { w with out := [] } t)
  rw [tickHead, sdoTimeout_node, hnode]
  exact ⟨hb, flag, _, rfl⟩

theorem tickHead_sends (w : World σ) (t : UInt32) (i : Fin coTpdoCount) :
    tpdoSends i (tickHead A w t).out = [] := by
  have hbeat := (heartbeatTick_growsBy (A := A)
    (w := atTime { w with out := [] } t)).tpdoSends_eq (i := i) (by simp)
  have htimeout : Grows (fun e => e.act.tpdoSend? i = none)
      (heartbeatTick A (atTime { w with out := [] } t)).out (tickHead A w t).out :=
    sdoTimeout_grows (fun _ _ => rfl) (fun _ _ _ => rfl)
  obtain ⟨new, hnew, hnone⟩ := htimeout
  rw [hnew, tpdoSends_append, hbeat]
  exact List.filterMap_eq_nil_iff.mpr hnone

theorem tickTurn_at (hop : w.node.nmt = .operational) (t : UInt32) (i : Fin coTpdoCount) :
    TurnAt i w t (tickTurn A w t i) := by
  refine turnAt_turnOf (tpdoTickOne_turn A) (fun w j => tpdoTickOne_only j) ?_
  obtain ⟨hb, flag, sdo, hnode⟩ := tickHead_node A w t
  exact ⟨by rw [hnode], by rw [hnode], by rw [hnode]; exact hop, tickHead_sends w t i⟩

/-- A tick does to a TPDO what its turn does. -/
theorem coStep_tick (hop : w.node.nmt = .operational) (t : UInt32) (i : Fin coTpdoCount) :
    (coStep A w (.tick t)).node.tpdo i = (tpdoTickOne A (tickTurn A w t i) i).node.tpdo i ∧
      tpdoSends i (coStep A w (.tick t)).out =
        tpdoSends i (tpdoTickOne A (tickTurn A w t i) i).out := by
  have hhead : (tickHead A w t).node.nmt = .operational := by
    obtain ⟨hb, flag, sdo, hnode⟩ := tickHead_node A w t
    rw [hnode]
    exact hop
  have hstep : coStep A w (.tick t) =
      (List.finRange coTpdoCount).foldl (tpdoTickOne A) (tickHead A w t) :=
    if_neg (not_not.mpr hhead)
  rw [hstep]
  exact (turns_at (tpdoTickOne_turn A) (tickHead A w t) i).2

theorem coStep_tick_nmt (t : UInt32) : (coStep A w (.tick t)).node.nmt = w.node.nmt := by
  obtain ⟨flag, hspine⟩ := coTick_spine (A := A) (w := { w with out := [] }) t
  exact congrArg Spine.nmt hspine

/-- The inhibit time of a TPDO in milliseconds, as a tick uses it. -/
def TpdoParams.inhibitMs (p : TpdoParams) : UInt32 := (p.inhibit100us.toUInt32 + 9) / 10

/-- A tick keeps off the TPDO: it is not event-driven, or its inhibit time runs. -/
def CoTpdo.Inhibited (p : CoTpdo) (nowMs : UInt32) : Prop :=
  (¬ p.enabled = true ∨ p.transType < 254) ∨ p.haveLast = true ∧ nowMs - p.lastTxMs < p.inhibitMs

/-- What the turn of a TPDO in a tick can come to. -/
inductive TickTurn (A : App σ) (i : Fin coTpdoCount) (v w' : World σ) : Prop where
  | rests (hnode : w'.node = v.node) (hsends : tpdoSends i w'.out = tpdoSends i v.out)
  | tries (hfree : ¬ (v.node.tpdo i).Inhibited v.node.nowMs) (v' : World σ)
      (hnode : v'.node = v.node) (hsends : tpdoSends i v'.out = tpdoSends i v.out)
      (hattempt : Attempt A i v' w')

theorem tpdoTickOne_turns (A : App σ) (v : World σ) (i : Fin coTpdoCount) :
    TickTurn A i v (tpdoTickOne A v i) := by
  simp only [tpdoTickOne]
  split
  · exact .rests rfl rfl
  next hevent =>
  split
  · exact .rests rfl rfl
  next hfree =>
  have hnot : ¬ (v.node.tpdo i).Inhibited v.node.nowMs := not_or.mpr ⟨hevent, hfree⟩
  split
  · exact .tries hnot v rfl rfl (tpdoSend_attempt A v i)
  split
  · exact .tries hnot _ (tpdoChanged_node i) (tpdoChanged_sends i i) (tpdoSend_attempt A _ i)
  · exact .rests (tpdoChanged_node i) (tpdoChanged_sends i i)

/-- The world in which a SYNC comes to TPDO `i`. -/
def syncTurn (A : App σ) (w : World σ) (t : UInt32) (i : Fin coTpdoCount) : World σ :=
  turnOf (syncTpdo A) (noted { w with out := [] } t) i

theorem syncTurn_at (hop : w.node.nmt = .operational) (t : UInt32) (i : Fin coTpdoCount) :
    TurnAt i w t (syncTurn A w t i) :=
  turnAt_turnOf (syncTpdo_turn A) (fun _ j => syncTpdo_only j) ⟨rfl, rfl, hop, rfl⟩

/-- Applying an RPDO keeps off the TPDOs. -/
theorem syncRpdo_tpdo (hok : MapsOk w.node) (j : Fin coRpdoCount) :
    (syncRpdo A w j).node.tpdo = w.node.tpdo := by
  simp only [syncRpdo]
  split
  · obtain ⟨reg, hnode⟩ := @rpdoApply_node _ A
      { w with node := w.node.setRpdo j { w.node.rpdo j with pending := false } }
      (hok.clearPending j) j (w.node.rpdo j).data (w.node.rpdo j).len
    rw [hnode]
    rfl
  · rfl

theorem syncRpdos_tpdo (hok : MapsOk w.node) (hop : w.node.nmt = .operational)
    (is : List (Fin coRpdoCount)) :
    (is.foldl (syncRpdo A) w).node.tpdo = w.node.tpdo ∧
      ∀ i, tpdoSends i (is.foldl (syncRpdo A) w).out = tpdoSends i w.out := by
  induction is generalizing w with
  | nil => exact ⟨rfl, fun _ => rfl⟩
  | cons j is ih =>
    have hstep := syncRpdo_pdoStep (A := A) hok hop j
    have hsends : ∀ i, tpdoSends i (syncRpdo A w j).out = tpdoSends i w.out :=
      fun i => (syncRpdo_spec j).2.tpdoSends_eq (by simp)
    obtain ⟨htpdo', hsends'⟩ := ih (hstep.mapsOk hok) ((CoNode.nmt_of_spine hstep.spine).trans hop)
    exact ⟨htpdo'.trans (syncRpdo_tpdo hok j), fun i => (hsends' i).trans (hsends i)⟩

/-- Behind the loop over the TPDOs a SYNC keeps off them. -/
theorem syncRx_tpdo (hok : MapsOk w.node) (hop : w.node.nmt = .operational) :
    let w₁ := (List.finRange coTpdoCount).foldl (syncTpdo A) w
    (syncRx A w).node.tpdo = w₁.node.tpdo ∧
      ∀ i, tpdoSends i (syncRx A w).out = tpdoSends i w₁.out := by
  intro w₁
  have honly : TpdoOnly w w₁ := TpdoOnly.foldl (fun w j => syncTpdo_only j) _
  rw [syncRx, if_neg (not_not.mpr hop)]
  exact syncRpdos_tpdo (honly.mapsOk hok) (honly.nmt.trans hop) _

/-- A SYNC does to a TPDO what its turn does. -/
theorem coStep_sync (hok : MapsOk w.node) (hop : w.node.nmt = .operational) {f : CoFrame}
    (hf : f.IsSync) (t : UInt32) (i : Fin coTpdoCount) :
    (coStep A w (.rx f t)).node.tpdo i = (syncTpdo A (syncTurn A w t i) i).node.tpdo i ∧
      tpdoSends i (coStep A w (.rx f t)).out =
        tpdoSends i (syncTpdo A (syncTurn A w t i) i).out := by
  set w₁ := noted { w with out := [] } t with hw₁
  have hstep : coStep A w (.rx f t) = syncRx A w₁ := by
    simp [coStep, coCall, coRx, atTime, masterNote, noted, hf.1, hf.2, hop, hw₁]
  obtain ⟨htpdo, hsends⟩ := syncRx_tpdo (A := A) (w := w₁) (hok.congr (fun _ => rfl) rfl) hop
  obtain ⟨-, hrec, hsent⟩ := turns_at (syncTpdo_turn A) w₁ i
  rw [hstep]
  exact ⟨(congrFun htpdo i).trans hrec, (hsends i).trans hsent⟩

-- ════════════════════════════════════════════════════════════════════════
-- The owner's configuration
-- ════════════════════════════════════════════════════════════════════════

theorem cobIdInvalid_and {c : UInt32} (h : c.toNat < 2 ^ 31) : c &&& cobIdInvalid = 0 := by
  apply UInt32.toNat_inj.mp
  rw [UInt32.toNat_and, show cobIdInvalid.toNat = 2 ^ 31 from rfl, Nat.and_two_pow,
    Nat.testBit_lt_two_pow h]
  rfl

/-- The record of a TPDO that the owner has just configured with this mapping. -/
structure CoTpdo.Fresh (p : CoTpdo) (transType : UInt8) (inhibitMs : UInt16) (map : List UInt32) :
    Prop where
  enabled : map ≠ [] → p.enabled = true
  transType : p.transType = transType
  inhibit : p.inhibit100us = inhibitMs * 10
  unsent : p.haveLast = false
  count : p.syncCount = 0

/-- A successful call of `co_tpdo_configure`. -/
theorem coTpdoConfigure_fresh {cobId : UInt16} {transType : UInt8} {inhibitMs eventMs : UInt16}
    {map : List UInt32}
    (h : (coTpdoConfigure A w (UInt8.ofNat i) cobId transType inhibitMs eventMs map).1 = true) :
    ((coStep A w (.owner (.tpdoConfigure (UInt8.ofNat i) cobId transType inhibitMs eventMs
      map))).node.tpdo i).Fresh transType inhibitMs map := by
  have hi : (UInt8.ofNat i).toNat = i.val := by
    rw [UInt8.toNat_ofNat']
    exact Nat.mod_eq_of_lt (i.isLt.trans (by decide))
  simp only [coTpdoConfigure] at h
  split at h
  swap
  · exact absurd h Bool.false_ne_true
  next hroom =>
  split at h
  · exact absurd h Bool.false_ne_true
  next hvalid =>
  have hvalid' : ¬ (mapValidate A { w with out := [] } map true).1 ≠ 0 := by
    have hcongr := (@mapValidate_congr _ A w { w with out := [] } (.of_eq rfl) rfl map true).1
    rw [hcongr]
    exact hvalid
  have hindex : (⟨(UInt8.ofNat i).toNat, hroom.1⟩ : Fin coTpdoCount) = i := Fin.ext hi
  simp only [coStep, coCall, ownerCall, coTpdoConfigure, hroom, and_self, dif_pos,
    hvalid', if_false,
    hindex, CoNode.setTpdo, Function.update_self]
  refine ⟨fun hmap => ?_, rfl, rfl, rfl, rfl⟩
  have hcount : 0 < UInt8.ofNat map.length := by
    rw [UInt8.lt_iff_toNat_lt, UInt8.toNat_ofNat',
      Nat.mod_eq_of_lt (Nat.lt_of_le_of_lt hroom.2 (by decide))]
    exact List.length_pos_iff.mpr hmap
  simp only [TpdoParams.enabled, hcount, decide_true, Bool.and_true, beq_iff_eq]
  split
  · refine cobIdInvalid_and ?_
    rw [UInt16.toNat_toUInt32]
    exact (UInt16.toNat_lt _).trans (by decide)
  · have hid := ((mapValidate A { w with out := [] } map true).2.node.cfg.nodeId).toNat_lt
    have hn : (UInt8.ofNat i).toNat < 4 := hroom.1
    refine cobIdInvalid_and ?_
    simp only [UInt32.toNat_add, UInt32.toNat_mul, UInt8.toNat_toUInt32, UInt32.reduceToNat]
    omega

/-- The owner's call of `co_tpdo_configure` for TPDO `i`. -/
def configureCall (i : Fin coTpdoCount) (cobId : UInt16) (transType : UInt8)
    (inhibitMs eventMs : UInt16) (map : List UInt32) : CoCall σ :=
  .owner (.tpdoConfigure (UInt8.ofNat i) cobId transType inhibitMs eventMs map)

/-- A call on the way to OPERATIONAL that leaves the configuration: no call of the owner, no request
    to the SDO server and no reset; in OPERATIONAL only another NMT command. -/
def Opening (w : World σ) (c : CoCall σ) : Prop :=
  (w.node.nmt = .operational → ∃ f t cmd, c = .rx f t ∧ w.node.command f = some cmd) ∧
    (∀ o, c ≠ .owner o) ∧
    ∀ f t, c = .rx f t → ¬ w.node.RequestIn f ∧
      w.node.command f ≠ some .resetNode ∧ w.node.command f ≠ some .resetComm

theorem CoTpdo.Fresh.forget {p : CoTpdo} {n : UInt8} {x : UInt16} {map : List UInt32}
    (h : p.Fresh n x map) : CoTpdo.Fresh { p with haveLast := false } n x map :=
  ⟨h.enabled, h.transType, h.inhibit, rfl, h.count⟩

/-- A call on the way to OPERATIONAL leaves the record as it was configured. -/
theorem Opening.fresh {n : UInt8} {x : UInt16} {map : List UInt32} {c : CoCall σ} (hc : Opening w c)
    (h : (w.node.tpdo i).Fresh n x map) : ((coStep A w c).node.tpdo i).Fresh n x map := by
  obtain ⟨hop, howner, hrx⟩ := hc
  have hcase := coCall_happens A { w with out := [] } c
  rw [coStep]
  generalize coCall A { w with out := [] } c = w' at hcase
  cases hcase with
  | command f t cmd hcmd =>
    obtain ⟨-, hnode, hcomm⟩ := hrx f t rfl
    cases cmd with
    | start =>
      have hstart : (nmtCommand A (noted { w with out := [] } t) .start).node.tpdo i =
          { w.node.tpdo i with haveLast := false } := by
        rw [nmtCommand, nmtSet_node]
        rfl
      rw [hstart]
      exact h.forget
    | stop | preop =>
      simp only [nmtCommand, sdoIdle, nmtSet_node]
      exact h
    | resetNode => exact absurd hcmd hnode
    | resetComm => exact absurd hcmd hcomm
  | request f t _ hreq => exact absurd hreq (hrx f t rfl).1
  | sync f t hid hnmt =>
    obtain ⟨f', t', cmd, heq, hcmd⟩ := hop hnmt
    cases heq
    exact absurd (hcmd.symm.trans (CoNode.command_none (by rw [hid]; decide)))
      (Option.some_ne_none cmd)
  | pdo f t _ hid _ w' hw =>
    have hidle : w.node.nmt ≠ .operational := by
      intro hnmt
      obtain ⟨f', t', cmd, heq, hcmd⟩ := hop hnmt
      cases heq
      exact absurd (hcmd.symm.trans (CoNode.command_none hid)) (Option.some_ne_none cmd)
    rw [pdoRx_silent (w := atTime { w with out := [] } t) hidle] at hw
    rcases hw with rfl | rfl <;> exact h
  | ignored f t hcmd _ w' hw => rcases hw with rfl | rfl <;> exact h
  | tick t =>
    have hidle : w.node.nmt ≠ .operational := by
      intro hnmt
      obtain ⟨f', t', cmd, heq, -⟩ := hop hnmt
      cases heq
    obtain ⟨hb, flag, hnode⟩ := @heartbeatTick_node _ A (atTime { w with out := [] } t)
    have hpart : (sdoTimeout A (heartbeatTick A (atTime { w with out := [] } t))).node.nmt =
        w.node.nmt ∧
        (sdoTimeout A (heartbeatTick A (atTime { w with out := [] } t))).node.tpdo =
        w.node.tpdo := by
      rw [sdoTimeout_node, hnode]
      exact ⟨rfl, rfl⟩
    rw [coTick, tpdoTick, if_pos (hpart.1.symm ▸ hidle), hpart.2]
    exact h
  | emcy code errBits mfr =>
    rw [coEmcy_node]
    exact h
  | owner o => exact absurd rfl (howner o)
  | world g => exact h

/-- The record when the node has come to OPERATIONAL. -/
theorem opening_fresh {cobId inhibitMs eventMs : UInt16} {n : UInt8} {map : List UInt32}
    {opening : List (CoCall σ)}
    (hconf : (coTpdoConfigure A w (UInt8.ofNat i) cobId n inhibitMs eventMs map).1 = true)
    (hopening : Machine.Guarded (coStep A) Opening
      (coStep A w (configureCall i cobId n inhibitMs eventMs map)) opening) :
    ((Machine.run (coStep A) (coStep A w (configureCall i cobId n inhibitMs eventMs map))
      opening).node.tpdo i).Fresh n inhibitMs map :=
  hopening.invariant (coStep A) (P := fun w => (w.node.tpdo i).Fresh n inhibitMs map)
    (fun _ _ hc h => hc.fresh h) (coTpdoConfigure_fresh hconf)

end Fountainer.Canopen
