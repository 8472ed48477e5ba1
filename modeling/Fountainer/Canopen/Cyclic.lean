import Fountainer.Canopen.Turns

/-!
# Cyclic synchronous TPDOs

A TPDO of transmission type 1 to 240 counts the SYNCs in `sync_count` and is due when the count
reaches its type. The count is one byte and only a frame that the driver takes resets it, so that
while the driver refuses the frames it wraps: the 256th SYNC finds the count at zero, and the
TPDO waits again.
-/

namespace Fountainer.Canopen

variable {σ : Type*} {A : App σ} {w : World σ} {i : Fin coTpdoCount} {n : UInt8}

-- ════════════════════════════════════════════════════════════════════════
-- The turn of a cyclic TPDO
-- ════════════════════════════════════════════════════════════════════════

/-- The TPDO is enabled and synchronous, sent at every `n`-th SYNC. -/
structure TpdoParams.Cyclic (p : TpdoParams) (n : UInt8) : Prop where
  enabled : p.enabled = true
  type : p.transType = n
  pos : 1 ≤ n.toNat
  le : n.toNat ≤ 240

/-- The world with a SYNC counted by TPDO `i`. -/
def counted (w : World σ) (i : Fin coTpdoCount) : World σ :=
  { w with node := w.node.setTpdo i { w.node.tpdo i with
    syncCount := (w.node.tpdo i).syncCount + 1 } }

theorem counted_record (w : World σ) (i : Fin coTpdoCount) : (counted w i).node.tpdo i =
    { w.node.tpdo i with syncCount := (w.node.tpdo i).syncCount + 1 } :=
  CoNode.setTpdo_self _ _ _

/-- The objects do not show the count. -/
theorem tpdoBuild_counted (w : World σ) (i : Fin coTpdoCount) (p : TpdoParams) :
    (tpdoBuild A (counted w i) p).1 = (tpdoBuild A w p).1 := by
  have hnode : (counted w i).node.withoutTx = w.node.withoutTx := CoNode.withoutTx_setTpdo rfl
  refine @tpdoBuild_congr _ A w (counted w i) ?_ rfl p
  rw [← odInternalRead_withoutTx, hnode, odInternalRead_withoutTx]

theorem syncTpdo_cyclic (h : (w.node.tpdo i).Cyclic n) : syncTpdo A w i =
    if n ≤ (w.node.tpdo i).syncCount + 1 then tpdoSend A (counted w i) i else counted w i := by
  have hpos := h.pos
  have hsync : ¬ (¬ (w.node.tpdo i).enabled = true ∨ 240 < n) := by
    rw [h.enabled, UInt8.lt_iff_toNat_lt]
    simpa using h.le
  have hzero : n ≠ 0 := by
    rintro rfl
    exact absurd hpos (by decide)
  simp only [syncTpdo, h.type, hsync, hzero, if_false]
  rfl

/-- What a SYNC does to a cyclic TPDO whose objects can be read: the record before, the record
    after, and the attempts to transmit. -/
inductive CyclicTurn (A : App σ) (n : UInt8) (p p' : CoTpdo) (sends : List (CoFrame × Bool)) :
    Prop where
  | waits (hdue : ¬ n ≤ p.syncCount + 1) (hrec : p' = { p with syncCount := p.syncCount + 1 })
      (hsends : sends = [])
  | refused (f : CoFrame) (hdue : n ≤ p.syncCount + 1)
      (hrec : p' = { p with syncCount := p.syncCount + 1 }) (hsends : sends = [(f, false)])
  | sent (f : CoFrame) (hdue : n ≤ p.syncCount + 1) (hparams : p'.toTpdoParams = p.toTpdoParams)
      (hcount : p'.syncCount = 0) (hsends : sends = [(f, true)])
      (htook : ∃ s, (A.send s f).1 = true)

/-- The objects of TPDO `i` can be read when a SYNC at time `t` comes to it. -/
def ReadableAt (A : App σ) (i : Fin coTpdoCount) (w : World σ) (t : UInt32) : Prop :=
  (tpdoBuild A (syncTurn A w t i) (w.node.tpdo i).toTpdoParams).1 ≠ none

theorem coStep_sync_cyclic (hok : MapsOk w.node) (hop : w.node.nmt = .operational)
    (h : (w.node.tpdo i).Cyclic n) {f : CoFrame} (hf : f.IsSync) {t : UInt32}
    (hread : ReadableAt A i w t) :
    CyclicTurn A n (w.node.tpdo i) ((coStep A w (.rx f t)).node.tpdo i)
      (tpdoSends i (coStep A w (.rx f t)).out) := by
  obtain ⟨hrec, hsends⟩ := coStep_sync (A := A) hok hop hf t i
  obtain ⟨hturn, -, -, hunsent⟩ := syncTurn_at (A := A) hop t i
  rw [ReadableAt, ← tpdoBuild_counted _ i] at hread
  rw [hrec, hsends, syncTpdo_cyclic (hturn.symm ▸ h)]
  have hcount := counted_record (syncTurn A w t i) i
  have hout : tpdoSends i (counted (syncTurn A w t i) i).out = [] := hunsent
  rw [hturn] at hcount ⊢
  generalize counted (syncTurn A w t i) i = v at hread hcount hout ⊢
  split
  · next hdue =>
    cases tpdoSend_attempt A v i with
    | unreadable hdata =>
      rw [hcount] at hdata
      exact absurd hdata hread
    | refused data _ hnode hsent =>
      rw [hout] at hsent
      exact .refused _ hdue (by rw [hnode, hcount]) hsent
    | sent data _ hnode hsent htook =>
      have hself : (tpdoSend A v i).node.tpdo i = (v.node.tpdo i).taken v.node.nowMs data := by
        rw [hnode]
        exact CoNode.setTpdo_self _ _ _
      rw [hout] at hsent
      rw [hcount] at hself
      exact .sent _ hdue (by rw [hself]; rfl) (by rw [hself]; rfl) hsent htook
  · next hwait => exact .waits hwait hcount hout

-- ════════════════════════════════════════════════════════════════════════
-- Stretches of SYNCs
-- ════════════════════════════════════════════════════════════════════════

/-- The call is a SYNC. -/
def CoCall.isSync : CoCall σ → Bool
  | .rx f _ => f.id == 0x080 && !f.rtr
  | _ => false

/-- The calls that neither configure nor ask for anything: SYNCs, ticks, emergencies and changes
    of the surroundings. -/
def CoCall.Plain : CoCall σ → Prop
  | .rx f _ => f.IsSync
  | .tick _ | .emcy .. | .world _ => True
  | .owner _ => False

/-- A call other than a SYNC leaves a synchronous TPDO alone. -/
theorem coStep_plain (hop : w.node.nmt = .operational) (h : (w.node.tpdo i).Cyclic n)
    {c : CoCall σ} (hc : c.Plain) (hsync : c.isSync = false) :
    (coStep A w c).node.tpdo i = w.node.tpdo i ∧ tpdoSends i (coStep A w c).out = [] := by
  cases c with
  | rx f t =>
    obtain ⟨hid, hrtr⟩ := hc
    simp [CoCall.isSync, hid, hrtr] at hsync
  | tick t =>
    obtain ⟨hturn, -, -, hunsent⟩ := tickTurn_at (A := A) hop t i
    have htype : (w.node.tpdo i).transType < 254 := by
      have hle := h.le
      rw [h.type, UInt8.lt_iff_toNat_lt]
      exact Nat.lt_of_le_of_lt hle (by decide)
    have hskip : tpdoTickOne A (tickTurn A w t i) i = tickTurn A w t i :=
      if_pos (.inr (hturn.symm ▸ htype))
    obtain ⟨hrec, hsends⟩ := coStep_tick (A := A) hop t i
    rw [hrec, hsends, hskip]
    exact ⟨hturn, hunsent⟩
  | emcy code errBits mfr =>
    constructor
    · rw [coStep, coCall, coEmcy_node]
    · exact coEmcy_growsBy.tpdoSends_eq (by simp)
  | owner c => exact absurd hc id
  | world g => exact ⟨rfl, rfl⟩

theorem coStep_plain_nmt {c : CoCall σ} (hc : c.Plain) : (coStep A w c).node.nmt = w.node.nmt := by
  have hspine := coCall_spine A { w with out := [] } c
  rw [show (coStep A w c).node.nmt = (coCall A { w with out := [] } c).node.spine.nmt from rfl]
  generalize (coCall A { w with out := [] } c).node.spine = s at hspine
  cases hspine with
  | command f t cmd h =>
    have hid : f.id = 0x080 := hc.1
    exact absurd (hid.symm.trans (CoNode.command_id h)) (by decide)
  | request | quiet | tick | other => rfl

/-- A call, with the number of SYNCs since TPDO `i` was last sent. -/
def sinceStep (A : App σ) (i : Fin coTpdoCount) (x : World σ × ℕ) (c : CoCall σ) : World σ × ℕ :=
  let w := coStep A x.1 c
  (w, if (tpdoSends i w.out).any (·.2) then 0 else if c.isSync then x.2 + 1 else x.2)

/-- The TPDO, with the parameters `p`, counts the SYNCs since it was last sent in one byte. -/
structure Counting (i : Fin coTpdoCount) (p : TpdoParams) (x : World σ × ℕ) : Prop where
  maps : MapsOk x.1.node
  nmt : x.1.node.nmt = .operational
  params : (x.1.node.tpdo i).toTpdoParams = p
  count : (x.1.node.tpdo i).syncCount = UInt8.ofNat x.2

theorem due_iff (n : UInt8) (k : ℕ) : n ≤ UInt8.ofNat k + 1 ↔ n.toNat ≤ (k + 1) % 256 := by
  rw [UInt8.le_iff_toNat_le, UInt8.toNat_add, UInt8.toNat_ofNat']
  simp

/-- A plain call, for which the objects can be read if it is a SYNC. -/
def PlainCall (A : App σ) (i : Fin coTpdoCount) (x : World σ × ℕ) (c : CoCall σ) : Prop :=
  c.Plain ∧ ∀ f t, c = .rx f t → ReadableAt A i x.1 t

/-- A SYNC starts the number again when the TPDO is sent, and raises it by one otherwise. -/
theorem sinceStep_sync {x : World σ × ℕ} {c : CoCall σ} (hsync : c.isSync = true) :
    (sinceStep A i x c).2 = 0 ∨ (sinceStep A i x c).2 = x.2 + 1 := by
  simp only [sinceStep, hsync, if_true]
  split
  · exact .inl rfl
  · exact .inr rfl

section Step

variable {p : TpdoParams} {x : World σ × ℕ} {c : CoCall σ}

theorem Counting.turn (h : Counting i p x) (hp : p.Cyclic n) (hc : PlainCall A i x c)
    (hsync : c.isSync = true) :
    CyclicTurn A n (x.1.node.tpdo i) ((coStep A x.1 c).node.tpdo i)
      (tpdoSends i (coStep A x.1 c).out) := by
  cases c with
  | rx f t => exact coStep_sync_cyclic h.maps h.nmt (h.params.symm ▸ hp) hc.1 (hc.2 f t rfl)
  | tick | emcy | owner | world => exact absurd hsync Bool.false_ne_true

/-- A frame is tried at a SYNC when the number, taken modulo 256, has reached the type. -/
theorem Counting.sends_iff (h : Counting i p x) (hp : p.Cyclic n) (hc : PlainCall A i x c)
    (hsync : c.isSync = true) :
    tpdoSends i (coStep A x.1 c).out ≠ [] ↔ n.toNat ≤ (x.2 + 1) % 256 := by
  rw [← due_iff, ← h.count]
  cases h.turn hp hc hsync with
  | waits hdue _ hsends => exact iff_of_false (not_not.mpr hsends) hdue
  | refused f hdue _ hsends | sent f hdue _ _ hsends =>
    refine iff_of_true ?_ hdue
    rw [hsends]
    exact List.cons_ne_nil _ _

theorem Counting.number_other (h : Counting i p x) (hp : p.Cyclic n) (hc : PlainCall A i x c)
    (hsync : c.isSync = false) : (sinceStep A i x c).2 = x.2 := by
  obtain ⟨-, hsends⟩ := coStep_plain (A := A) h.nmt (h.params.symm ▸ hp) hc.1 hsync
  simp only [sinceStep, hsends, hsync, List.any_nil, Bool.false_eq_true, if_false]

theorem Counting.step (h : Counting i p x) (hp : p.Cyclic n) (hc : PlainCall A i x c) :
    Counting i p (sinceStep A i x c) := by
  have hok : MapsOk (coStep A x.1 c).node := coCall_mapsOk (w := { x.1 with out := [] }) h.maps c
  have hop : (coStep A x.1 c).node.nmt = .operational := (coStep_plain_nmt hc.1).trans h.nmt
  cases hsync : c.isSync with
  | false =>
    obtain ⟨hrec, -⟩ := coStep_plain (A := A) h.nmt (h.params.symm ▸ hp) hc.1 hsync
    refine ⟨hok, hop, ?_, ?_⟩
    · exact hrec.symm ▸ h.params
    · rw [h.number_other hp hc hsync]
      exact hrec.symm ▸ h.count
  | true =>
    have hnext : (x.1.node.tpdo i).syncCount + 1 = UInt8.ofNat (x.2 + 1) := by
      rw [h.count]
      simp
    cases h.turn hp hc hsync with
    | waits hdue hrec hsends | refused f hdue hrec hsends =>
      have hnumber : (sinceStep A i x c).2 = x.2 + 1 := by
        simp [sinceStep, hsends, hsync]
      refine ⟨hok, hop, ?_, ?_⟩
      · rw [sinceStep, hrec]
        exact h.params
      · rw [hnumber, ← hnext, sinceStep, hrec]
    | sent f hdue hparams hcount hsends =>
      have hnumber : (sinceStep A i x c).2 = 0 := by
        simp [sinceStep, hsends]
      refine ⟨hok, hop, ?_, ?_⟩
      · rw [sinceStep, hparams]
        exact h.params
      · rw [hnumber, sinceStep, hcount]
        rfl

end Step

/-- A SYNC finds the TPDO punctual: it tries a frame exactly from the `n`-th SYNC on. -/
def Punctual (A : App σ) (i : Fin coTpdoCount) (n : UInt8) (x : World σ × ℕ)
    (c : CoCall σ) : Prop :=
  c.isSync = true → (tpdoSends i (coStep A x.1 c).out ≠ [] ↔ n.toNat ≤ x.2 + 1)

/-- A SYNC before the 256th. -/
def InByte (x : World σ × ℕ) (c : CoCall σ) : Prop := c.isSync = true → x.2 + 1 < 256

/-- The first SYNC that is not within the byte is the 256th, and it is not punctual. -/
theorem Counting.punctual_iff {p : TpdoParams} {calls : List (CoCall σ)} {x : World σ × ℕ}
    (h : Counting i p x) (hp : p.Cyclic n) (hx : x.2 < 256)
    (hcalls : Machine.Guarded (sinceStep A i) (PlainCall A i) x calls) :
    Machine.Guarded (sinceStep A i) (Punctual A i n) x calls ↔
      Machine.Guarded (sinceStep A i) InByte x calls := by
  have hpos := hp.pos
  have hle := hp.le
  induction calls generalizing x with
  | nil => exact Iff.rfl
  | cons c calls ih =>
    obtain ⟨hc, hcalls⟩ := hcalls
    have hstep := h.step hp hc
    cases hsync : c.isSync with
    | false =>
      have hnumber := h.number_other hp hc hsync
      refine and_congr ?_ (ih hstep (by rwa [hnumber]) hcalls)
      simp [Punctual, InByte, hsync]
    | true =>
      have hsends := h.sends_iff hp hc hsync
      by_cases hbyte : x.2 + 1 < 256
      · rw [Nat.mod_eq_of_lt hbyte] at hsends
        refine and_congr (iff_of_true (fun _ => hsends) (fun _ => hbyte)) (ih hstep ?_ hcalls)
        rcases sinceStep_sync (A := A) (i := i) (x := x) hsync with hnumber | hnumber <;>
          rw [hnumber]
        · exact Nat.zero_lt_succ _
        · exact hbyte
      · have hlast : x.2 + 1 = 256 := by omega
        refine iff_of_false (fun hall => ?_) (fun hall => hbyte (hall.1 hsync))
        have hdue := hsends.mp ((hall.1 hsync).mpr (by omega))
        rw [hlast] at hdue
        omega

/-- What a configuration as type `n` leaves when the node has come to OPERATIONAL. -/
theorem configured_counting {cfg : CoConfig} {nowMs : UInt32} {app : σ}
    {before opening : List (CoCall σ)} {cobId inhibitMs eventMs : UInt16} {map : List UInt32}
    (hn : 1 ≤ n.toNat ∧ n.toNat ≤ 240) (hmap : map ≠ [])
    (hconf : (coTpdoConfigure A (coRun A cfg nowMs app before) (UInt8.ofNat i) cobId n inhibitMs
      eventMs map).1 = true)
    (hopening : Machine.Guarded (coStep A) Opening (coStep A (coRun A cfg nowMs app before)
      (configureCall i cobId n inhibitMs eventMs map)) opening) :
    let w := Machine.run (coStep A) (coStep A (coRun A cfg nowMs app before)
      (configureCall i cobId n inhibitMs eventMs map)) opening
    w.node.nmt = .operational →
      Counting i (w.node.tpdo i).toTpdoParams (w, 0) ∧ (w.node.tpdo i).Cyclic n := by
  intro w hop
  have hfresh : (w.node.tpdo i).Fresh n inhibitMs map := opening_fresh hconf hopening
  have hok : MapsOk w.node := by
    have hrun := coRun_mapsOk (A := A) cfg nowMs app
      (before ++ configureCall i cobId n inhibitMs eventMs map :: opening)
    rwa [coRun, Machine.run_append] at hrun
  exact ⟨⟨hok, hop, rfl, hfresh.count⟩, hfresh.enabled hmap, hfresh.transType, hn.1, hn.2⟩

/-- **A cyclic TPDO is punctual while its count fits the byte.** From a configuration as type `n`
    on, in OPERATIONAL or before it, once the node is OPERATIONAL and through SYNCs, ticks and
    changes of the surroundings, the TPDO tries a frame exactly at the `n`-th SYNC since it was last
    sent and at every one behind it until the driver takes a frame, if and only if no SYNC is the
    256th without a frame taken. -/
theorem cyclic_punctual_iff (A : App σ) (cfg : CoConfig) (nowMs : UInt32) (app : σ)
    (before : List (CoCall σ)) (i : Fin coTpdoCount) (n : UInt8) (hn : 1 ≤ n.toNat ∧ n.toNat ≤ 240)
    (cobId inhibitMs eventMs : UInt16) (map : List UInt32) (hmap : map ≠ [])
    (hconf : (coTpdoConfigure A (coRun A cfg nowMs app before) (UInt8.ofNat i) cobId n inhibitMs
      eventMs map).1 = true)
    (opening : List (CoCall σ))
    (hopening : Machine.Guarded (coStep A) Opening (coStep A (coRun A cfg nowMs app before)
      (configureCall i cobId n inhibitMs eventMs map)) opening)
    (calls : List (CoCall σ)) :
    let w := Machine.run (coStep A) (coStep A (coRun A cfg nowMs app before)
      (configureCall i cobId n inhibitMs eventMs map)) opening
    w.node.nmt = .operational → Machine.Guarded (sinceStep A i) (PlainCall A i) (w, 0) calls →
      (Machine.Guarded (sinceStep A i) (Punctual A i n) (w, 0) calls ↔
        Machine.Guarded (sinceStep A i) InByte (w, 0) calls) := by
  intro w hop hcalls
  obtain ⟨hcounting, hcyclic⟩ := configured_counting hn hmap hconf hopening hop
  exact hcounting.punctual_iff hcyclic (Nat.zero_lt_succ _) hcalls

/-- The application with an object of four bytes, over a driver that refuses every frame. -/
def deafApp : App Unit := { tableApp fourByteObject with send := fun _ _ => (false, ()) }

/-- A SYNC frame at time 0. -/
def syncCall : CoCall Unit := .rx (CoFrame.ofBytes 0x080 []) 0

/-- The command that starts every node. -/
def startAll : CoCall Unit := .rx (CoFrame.ofBytes 0 [0x01, 0]) 0

/-- A node that has its first TPDO configured as type 1 in PRE-OPERATIONAL and then is started. -/
def deafNode : World Unit :=
  Machine.run (coStep deafApp) (coStep deafApp (coRun deafApp exampleConfig 0 () [])
    (.owner (.tpdoConfigure 0 0 1 0 0 [0x20000020]))) [startAll]

theorem deafNode_configured :
    (coTpdoConfigure deafApp (coRun deafApp exampleConfig 0 () []) 0 0 1 0 0
      [0x20000020]).1 = true ∧
      deafNode.node.nmt = .operational ∧ (deafNode.node.tpdo 0).entries = [0x20000020] := by
  decide +kernel

theorem deafNode_opening : Machine.Guarded (coStep deafApp) Opening
    (coStep deafApp (coRun deafApp exampleConfig 0 () []) (configureCall 0 0 1 0 0 [0x20000020]))
    [startAll] :=
  ⟨⟨fun h => absurd h (by decide +kernel), fun _ => nofun, fun f t h => by
    cases h
    decide +kernel⟩, trivial⟩

theorem deafNode_counting :
    Counting 0 (deafNode.node.tpdo 0).toTpdoParams (deafNode, 0) ∧
    (deafNode.node.tpdo 0).Cyclic 1 := by
  have hcounting := configured_counting (i := 0) (by decide) (by simp) deafNode_configured.1
    deafNode_opening
  exact hcounting deafNode_configured.2.1

/-- A stretch of SYNCs under a deaf driver: the object can be read at each of them, and the number
    grows past the byte. -/
theorem deaf_syncs {p : TpdoParams} (hp : p.Cyclic n) (hentries : p.entries = [0x20000020]) (m : ℕ)
    {x : World Unit × ℕ} (h : Counting 0 p x) :
    Machine.Guarded (sinceStep deafApp 0) (PlainCall deafApp 0) x (List.replicate m syncCall) ∧
      (Machine.Guarded (sinceStep deafApp 0) InByte x (List.replicate m syncCall) →
        m = 0 ∨ x.2 + m < 256) := by
  induction m generalizing x with
  | zero => exact ⟨trivial, fun _ => .inl rfl⟩
  | succ m ih =>
    have hc : PlainCall deafApp 0 x syncCall := by
      refine ⟨⟨rfl, rfl⟩, fun f t _ => ?_⟩
      rw [ReadableAt, h.params, tpdoBuild, hentries]
      exact Option.some_ne_none [1, 2, 3, 4]
    have hnumber : (sinceStep deafApp 0 x syncCall).2 = x.2 + 1 := by
      cases h.turn hp hc rfl with
      | waits _ _ hsends | refused _ _ _ hsends =>
        simp only [sinceStep, hsends]
        rfl
      | sent f _ _ _ _ htook =>
        obtain ⟨s, hs⟩ := htook
        exact absurd hs Bool.false_ne_true
    obtain ⟨hplain, hbyte⟩ := ih (h.step hp hc)
    refine ⟨⟨hc, hplain⟩, fun hguard => .inr ?_⟩
    have hfirst := hguard.1 rfl
    rcases hbyte hguard.2 with rfl | hrest
    · exact hfirst
    · rw [hnumber] at hrest
      omega

theorem cyclic_punctual_iff_deaf :
    Machine.Guarded (sinceStep deafApp 0) (Punctual deafApp 0 1) (deafNode, 0)
        (List.replicate 3 syncCall) ↔
      Machine.Guarded (sinceStep deafApp 0) InByte (deafNode, 0) (List.replicate 3 syncCall) :=
  cyclic_punctual_iff deafApp exampleConfig 0 () [] 0 1 (by decide) 0 0 0 [0x20000020] (by simp)
    deafNode_configured.1 [startAll] deafNode_opening (List.replicate 3 syncCall)
    deafNode_configured.2.1
    (deaf_syncs deafNode_counting.2 deafNode_configured.2.2 3 deafNode_counting.1).1

/-- After 255 SYNCs whose frames were refused, the 256th finds the TPDO of type 1 silent. -/
theorem deafNode_unpunctual :
    Machine.Guarded (sinceStep deafApp 0) (PlainCall deafApp 0) (deafNode, 0)
        (List.replicate 256 syncCall) ∧
      ¬ Machine.Guarded (sinceStep deafApp 0) (Punctual deafApp 0 1) (deafNode, 0)
        (List.replicate 256 syncCall) := by
  obtain ⟨hcounting, hcyclic⟩ := deafNode_counting
  obtain ⟨hplain, hbyte⟩ := deaf_syncs hcyclic deafNode_configured.2.2 256 hcounting
  refine ⟨hplain, fun hpunctual => ?_⟩
  rcases hbyte ((hcounting.punctual_iff hcyclic (by decide) hplain).mp hpunctual) with hm | hm
  · exact absurd hm (by decide)
  · exact absurd hm (by decide)

end Fountainer.Canopen
