import Fountainer.Canopen.Mapping

/-!
# NMT states and the SDO server along a run

The calls of a run sorted by what they do to NMT and to the SDO server, and the
invariants that follow: the server works inside its buffers, a stopped node has no
transfer, and every effect is one that the NMT state of that moment allows.
-/

namespace Fountainer.Canopen

open Traces (Grows)

variable {σ : Type*} {A : App σ} {w : World σ}

-- ════════════════════════════════════════════════════════════════════════
-- The kinds of calls
-- ════════════════════════════════════════════════════════════════════════

/-- The NMT command that a frame is for this node. -/
def CoNode.command (n : CoNode) (f : CoFrame) : Option NmtCmd :=
  if f.id = 0 ∧ n.addressed f then NmtCmd.ofByte f.cmd else none

/-- The states in which the node serves SDO requests. -/
def NmtState.Serving (s : NmtState) : Prop := s = .preoperational ∨ s = .operational

instance (s : NmtState) : Decidable s.Serving := inferInstanceAs (Decidable (_ ∨ _))

/-- The frame is a request to the SDO server. -/
def CoNode.RequestIn (n : CoNode) (f : CoFrame) : Prop :=
  f.id = n.sdoRxId ∧ f.dlc = 8 ∧ f.rtr = false

instance (n : CoNode) (f : CoFrame) : Decidable (n.RequestIn f) :=
  inferInstanceAs (Decidable (_ ∧ _ ∧ _))

/-- The world in which a frame is handled that a master sent. -/
def noted (w : World σ) (nowMs : UInt32) : World σ := masterNote (atTime w nowMs)

/-- The kinds of calls and the world after each. -/
inductive Happens (A : App σ) (w : World σ) : CoCall σ → World σ → Prop where
  | command (f : CoFrame) (t : UInt32) (cmd : NmtCmd) (h : w.node.command f = some cmd) :
      Happens A w (.rx f t) (nmtCommand A (noted w t) cmd)
  | request (f : CoFrame) (t : UInt32) (hnmt : w.node.nmt.Serving) (h : w.node.RequestIn f) :
      Happens A w (.rx f t) (sdoServe A (noted w t) f.request)
  | sync (f : CoFrame) (t : UInt32) (hid : f.id = 0x080) (hop : w.node.nmt = .operational)
      (hrtr : f.rtr = false) : Happens A w (.rx f t) (syncRx A (noted w t))
  | pdo (f : CoFrame) (t : UInt32) (hnmt : w.node.nmt.Serving) (hid : f.id ≠ 0)
      (hsdo : f.id ≠ w.node.sdoRxId) (w' : World σ)
      (hw : w' = masterNote (pdoRx A (atTime w t) f).2 ∨ w' = (pdoRx A (atTime w t) f).2) :
      Happens A w (.rx f t) w'
  | ignored (f : CoFrame) (t : UInt32) (hcmd : w.node.command f = none)
      (hreq : ¬ (w.node.nmt.Serving ∧ w.node.RequestIn f)) (w' : World σ)
      (hw : w' = noted w t ∨ w' = atTime w t) : Happens A w (.rx f t) w'
  | tick (t : UInt32) : Happens A w (.tick t) (coTick A w t)
  | emcy (code : UInt16) (errBits : UInt8) (mfr : Option (Vector UInt8 5)) :
      Happens A w (.emcy code errBits mfr) (coEmcy A w code errBits mfr)
  | owner (c : OwnerCall) : Happens A w (.owner c) (ownerCall A w c)
  | world (g : σ → σ) : Happens A w (.world g) { w with app := g w.app }

theorem CoNode.sdoRxId_ne (n : CoNode) : n.sdoRxId ≠ 0 ∧ n.sdoRxId ≠ 0x080 := by
  have hid : n.sdoRxId.toNat = 0x600 + n.cfg.nodeId.toNat := by
    have := n.cfg.nodeId.toNat_lt
    rw [CoNode.sdoRxId, UInt16.toNat_add, UInt8.toNat_toUInt16]
    exact Nat.mod_eq_of_lt (by simp; omega)
  constructor <;> intro h <;> rw [h] at hid <;> simp at hid <;> omega

theorem CoNode.command_none {n : CoNode} {f : CoFrame} (h : f.id ≠ 0) : n.command f = none :=
  if_neg (fun hc => h hc.1)

theorem coCall_happens (A : App σ) (w : World σ) (c : CoCall σ) : Happens A w c (coCall A w c) := by
  cases c with
  | rx f t =>
    simp only [coCall, coRx]
    split
    · next hid =>
      by_cases haddr : w.node.addressed f
      · have haddr' : (atTime w t).node.addressed f := haddr
        have hcmd : w.node.command f = NmtCmd.ofByte f.cmd := if_pos ⟨hid, haddr⟩
        have hnote : (masterNote (atTime w t)).node.addressed f := haddr
        rw [if_pos haddr', nmtRx, if_pos hnote]
        split
        · next cmd hbyte => exact .command f t cmd (hcmd.trans hbyte)
        · next hbyte =>
          refine .ignored f t (hcmd.trans hbyte) (fun h => ?_) _ (.inl rfl)
          exact w.node.sdoRxId_ne.1 (h.2.1.symm.trans hid)
      · have haddr' : ¬ (atTime w t).node.addressed f := haddr
        rw [if_neg haddr', nmtRx, if_neg haddr']
        refine .ignored f t (if_neg (fun h => haddr h.2)) (fun h => ?_) _ (.inr rfl)
        exact w.node.sdoRxId_ne.1 (h.2.1.symm.trans hid)
    next hid =>
    have hcmd : w.node.command f = none := CoNode.command_none hid
    split
    · next hinit =>
      refine .ignored f t hcmd (fun h => ?_) _ (.inr rfl)
      exact absurd h.1 (by simp [NmtState.Serving, show w.node.nmt = .initialising from hinit])
    next hinit =>
    split
    · next hsync =>
      by_cases hop : w.node.nmt = .operational
      · exact .sync f t hsync.1 hop (by simpa using hsync.2)
      · have hskip : syncRx A (masterNote (atTime w t)) = noted w t := if_pos hop
        rw [hskip]
        refine .ignored f t hcmd (fun h => ?_) _ (.inl rfl)
        exact w.node.sdoRxId_ne.2 (h.2.1.symm.trans hsync.1)
    split
    · next hstop =>
      refine .ignored f t hcmd (fun h => ?_) _ (.inr rfl)
      exact absurd h.1 (by simp [NmtState.Serving, show w.node.nmt = .stopped from hstop])
    next hstop =>
    have hserve : w.node.nmt.Serving := by
      have hi : w.node.nmt ≠ .initialising := hinit
      have hs : w.node.nmt ≠ .stopped := hstop
      cases h : w.node.nmt <;> simp_all [NmtState.Serving]
    split
    · next hsdo =>
      rw [sdoRx]
      split
      · next hshort =>
        refine .ignored f t hcmd (fun h => ?_) _ (.inl rfl)
        obtain ⟨-, -, hdlc, hrtr⟩ := h
        simp [hdlc, hrtr] at hshort
      · next hfull =>
        simp only [not_or, not_lt, Bool.not_eq_true] at hfull
        refine .request f t hserve ⟨hsdo, le_antisymm ?_ hfull.1, hfull.2⟩
        exact Fin.le_last f.dlc
    next hsdo =>
    split
    · exact .pdo f t hserve hid hsdo _ (.inl rfl)
    · exact .pdo f t hserve hid hsdo _ (.inr rfl)
  | tick t => exact .tick t
  | emcy code errBits mfr => exact .emcy code errBits mfr
  | owner c => exact .owner c
  | world g => exact .world g

theorem CoNode.command_id {n : CoNode} {f : CoFrame} {cmd : NmtCmd} (h : n.command f = some cmd) :
    f.id = 0 := by
  by_contra hid
  rw [CoNode.command_none hid] at h
  exact absurd h (by simp)

theorem coCall_command {f : CoFrame} {cmd : NmtCmd} (h : w.node.command f = some cmd) (t : UInt32) :
    coCall A w (.rx f t) = nmtCommand A (noted w t) cmd := by
  have hcase := coCall_happens A w (.rx f t)
  have hid := CoNode.command_id h
  generalize coCall A w (.rx f t) = w' at hcase
  cases hcase with
  | command _ _ cmd' h' =>
    obtain rfl : cmd = cmd' := Option.some.inj (h.symm.trans h')
    rfl
  | request _ _ _ hreq => exact absurd (hreq.1.symm.trans hid) w.node.sdoRxId_ne.1
  | sync _ _ hsync => exact absurd (hsync.symm.trans hid) (by decide)
  | pdo _ _ _ hne => exact absurd hid hne
  | ignored _ _ hnone => exact absurd (h.symm.trans hnone) (by simp)

theorem coCall_request (hnmt : w.node.nmt.Serving) {f : CoFrame} (h : w.node.RequestIn f)
    (t : UInt32) : coCall A w (.rx f t) = sdoServe A (noted w t) f.request := by
  have hcase := coCall_happens A w (.rx f t)
  have hne := w.node.sdoRxId_ne
  rw [← h.1] at hne
  generalize coCall A w (.rx f t) = w' at hcase
  cases hcase with
  | command _ _ cmd hcmd =>
    rw [CoNode.command_none hne.1] at hcmd
    exact absurd hcmd (by simp)
  | request => rfl
  | sync _ _ hid => exact absurd hid hne.2
  | pdo _ _ _ _ hsdo => exact absurd h.1 hsdo
  | ignored _ _ _ hreq => exact absurd ⟨hnmt, h⟩ hreq

-- ════════════════════════════════════════════════════════════════════════
-- NMT and the SDO server
-- ════════════════════════════════════════════════════════════════════════

/-- The state that a command leads to. -/
def NmtCmd.target : NmtCmd → NmtState
  | .start => .operational
  | .stop => .stopped
  | .preop | .resetNode | .resetComm => .preoperational

/-- The command resets the communication. -/
def NmtCmd.resets : NmtCmd → Bool
  | .resetNode | .resetComm => true
  | .start | .stop | .preop => false

/-- The command ends a running SDO transfer. -/
def NmtCmd.endsTransfer : NmtCmd → Bool
  | .stop | .resetNode | .resetComm => true
  | .start | .preop => false

/-- What a call does to NMT, the boot-up flag and the SDO server. -/
inductive SpineStep (A : App σ) (w : World σ) : CoCall σ → Spine → Prop where
  | command (f : CoFrame) (t : UInt32) (cmd : NmtCmd) (h : w.node.command f = some cmd) :
      SpineStep A w (.rx f t) { w.node.spine with
        nowMs := t, nmt := cmd.target, bootupPending := cmd.resets || w.node.bootupPending
        sdo := if cmd.endsTransfer then w.node.sdo.stop else w.node.sdo }
  | request (f : CoFrame) (t : UInt32) (hnmt : w.node.nmt.Serving) (h : w.node.RequestIn f) :
      SpineStep A w (.rx f t) { w.node.spine with
        nowMs := t, sdo := (sdoServe A (noted w t) f.request).node.sdo }
  | quiet (f : CoFrame) (t : UInt32) (hcmd : w.node.command f = none)
      (hreq : ¬ (w.node.nmt.Serving ∧ w.node.RequestIn f)) :
      SpineStep A w (.rx f t) { w.node.spine with nowMs := t }
  | tick (t : UInt32) (flag : Bool) :
      SpineStep A w (.tick t) { w.node.spine with
        nowMs := t, bootupPending := flag
        sdo := if w.node.sdo.TimedOut t then w.node.sdo.stop else w.node.sdo }
  | other (c : CoCall σ) (hrx : ∀ f t, c ≠ .rx f t) (htick : ∀ t, c ≠ .tick t) :
      SpineStep A w c w.node.spine

theorem nmtCommand_spine (cmd : NmtCmd) : (nmtCommand A w cmd).node.spine = { w.node.spine with
    nmt := cmd.target, bootupPending := cmd.resets || w.node.bootupPending
    sdo := if cmd.endsTransfer then w.node.sdo.stop else w.node.sdo } := by
  cases cmd with
  | start | stop | preop =>
    simp only [nmtCommand, sdoIdle, nmtSet_node]
    rfl
  | resetNode => exact nodeReset_spine true
  | resetComm => exact nodeReset_spine false

theorem sdoServe_spine (q : SdoRequest) : (sdoServe A w q).node.spine =
    { w.node.spine with sdo := (sdoServe A w q).node.sdo } := by
  obtain ⟨n, hn, hnode⟩ := sdoServe_node (A := A) (w := w) q
  rw [hnode, ← hn.spine]
  rfl

theorem sdoTimeout_node : (sdoTimeout A w).node = w.node.setSdo
    (if w.node.sdo.TimedOut w.node.nowMs then w.node.sdo.stop else w.node.sdo) := by
  by_cases h : w.node.sdo.TimedOut w.node.nowMs
  · have habort : sdoTimeout A w =
        sdoAbort A w w.node.sdo.index w.node.sdo.sub abortTimeout := if_pos h
    rw [habort, if_pos h]
    rfl
  · have hkeep : sdoTimeout A w = w := if_neg h
    rw [hkeep, if_neg h]
    rfl

theorem coTick_spine (t : UInt32) : ∃ flag, (coTick A w t).node.spine = { w.node.spine with
    nowMs := t, bootupPending := flag
    sdo := if w.node.sdo.TimedOut t then w.node.sdo.stop else w.node.sdo } := by
  obtain ⟨hb, flag, hnode⟩ := @heartbeatTick_node _ A (atTime w t)
  refine ⟨flag, ?_⟩
  rw [coTick, tpdoTick_only.spine, sdoTimeout_node, hnode]
  rfl

theorem coCall_spine (A : App σ) (w : World σ) (c : CoCall σ) :
    SpineStep A w c (coCall A w c).node.spine := by
  have hcase := coCall_happens A w c
  generalize coCall A w c = w' at hcase
  cases hcase with
  | command f t cmd h =>
    rw [nmtCommand_spine]
    exact .command f t cmd h
  | request f t hnmt h =>
    rw [sdoServe_spine]
    exact .request f t hnmt h
  | sync f t hid hop =>
    rw [syncRx_spec.1]
    have hne := w.node.sdoRxId_ne
    refine .quiet f t (CoNode.command_none (by rw [hid]; decide)) (fun h => ?_)
    exact hne.2 (h.2.1.symm.trans hid)
  | pdo f t hnmt hid hsdo w' hw =>
    have hspine : w'.node.spine = { w.node.spine with nowMs := t } := by
      have hrx : (pdoRx A (atTime w t) f).2.node.spine = _ := pdoRx_spec.1
      rcases hw with rfl | rfl
      · exact hrx
      · exact hrx
    rw [hspine]
    exact .quiet f t (CoNode.command_none hid) (fun h => hsdo h.2.1)
  | ignored f t hcmd hreq w' hw =>
    have hspine : w'.node.spine = { w.node.spine with nowMs := t } := by
      rcases hw with rfl | rfl <;> rfl
    rw [hspine]
    exact .quiet f t hcmd hreq
  | tick t =>
    obtain ⟨flag, hspine⟩ := @coTick_spine _ A w t
    rw [hspine]
    exact .tick t flag
  | emcy code errBits mfr =>
    rw [coEmcy_node]
    exact .other _ (by simp) (by simp)
  | owner c =>
    rw [(ownerCall_spec c).1]
    exact .other _ (by simp) (by simp)
  | world g => exact .other _ (by simp) (by simp)

-- ════════════════════════════════════════════════════════════════════════
-- Invariants of the server
-- ════════════════════════════════════════════════════════════════════════

/-- The node id that `co_init` takes over. -/
def validNodeId (id : UInt8) : UInt8 := if id = 0 ∨ 127 < id then 127 else id

/-- A call changes the configuration in the heartbeat time at most. -/
theorem coCall_cfg (c : CoCall σ) : (coCall A w c).node.spine.cfg = w.node.spine.cfg := by
  have hspine := coCall_spine A w c
  generalize (coCall A w c).node.spine = s at hspine
  cases hspine <;> rfl

theorem coCall_nodeId (c : CoCall σ) : (coCall A w c).node.cfg.nodeId = w.node.cfg.nodeId := by
  change (coCall A w c).node.spine.cfg.nodeId = w.node.spine.cfg.nodeId
  rw [coCall_cfg]

theorem coInit_spine (cfg : CoConfig) (nowMs : UInt32) (app : σ) :
    ∃ c : CoConfig, c.nodeId = validNodeId cfg.nodeId ∧ (coInit A cfg nowMs app).node.spine =
      { (blankNode cfg nowMs).spine with
        cfg := c, nmt := .preoperational, bootupPending := true } := by
  have h := @nodeReset_spine _ A { node := blankNode cfg nowMs, app, out := [] } true
  have hnode : (coInit A cfg nowMs app).node.spine =
      { (nodeReset A { node := blankNode cfg nowMs, app, out := [] } true).node.spine with
        cfg := (coInit A cfg nowMs app).node.spine.cfg } := rfl
  refine ⟨_, ?_, hnode.trans (by rw [h]; rfl)⟩
  exact congrArg (fun s => s.cfg.nodeId) h

theorem coRun_nodeId (cfg : CoConfig) (nowMs : UInt32) (app : σ) (calls : List (CoCall σ)) :
    (coRun A cfg nowMs app calls).node.cfg.nodeId = validNodeId cfg.nodeId := by
  refine Machine.run_invariant (coStep A)
    (P := fun w => w.node.cfg.nodeId = validNodeId cfg.nodeId) ?_ ?_ calls
  · exact fun w c h => (coCall_nodeId (w := { w with out := [] }) c).trans h
  · obtain ⟨c, hc, hspine⟩ := @coInit_spine _ A cfg nowMs app
    exact (congrArg (fun s => s.cfg.nodeId) hspine).trans hc

theorem validNodeId_le (id : UInt8) : (validNodeId id).toNat ≤ 127 := by
  rw [validNodeId]
  split
  · decide
  · next h =>
    simp only [not_or, UInt8.not_lt] at h
    exact h.2

theorem coCall_sdoOk (hread : ReadFits A) (hok : SdoOk w.node.sdo) (c : CoCall σ) :
    SdoOk (coCall A w c).node.sdo := by
  have hspine := coCall_spine A w c
  change SdoOk (coCall A w c).node.spine.sdo
  generalize (coCall A w c).node.spine = s at hspine
  cases hspine with
  | command f t cmd h =>
    dsimp only
    split
    · exact SdoOk.idle rfl
    · exact hok
  | request f t hnmt h => exact sdoServe_ok (w := noted w t) ⟨hread, hok⟩ f.request
  | quiet => exact hok
  | tick t flag =>
    dsimp only
    split
    · exact SdoOk.idle rfl
    · exact hok
  | other => exact hok

theorem coRun_sdoOk (hread : ReadFits A) (cfg : CoConfig) (nowMs : UInt32) (app : σ)
    (calls : List (CoCall σ)) : SdoOk (coRun A cfg nowMs app calls).node.sdo := by
  refine Machine.run_invariant (coStep A) (P := fun w => SdoOk w.node.sdo) ?_ ?_ calls
  · exact fun w c h => coCall_sdoOk (w := { w with out := [] }) hread h c
  · obtain ⟨c, -, hspine⟩ := @coInit_spine _ A cfg nowMs app
    change SdoOk (coInit A cfg nowMs app).node.spine.sdo
    rw [hspine]
    exact SdoOk.idle rfl

/-- A stopped node has no SDO transfer. -/
def StoppedIdle (n : CoNode) : Prop := n.nmt = .stopped → n.sdo.state = .idle

theorem coCall_stoppedIdle (hidle : StoppedIdle w.node) (c : CoCall σ) :
    StoppedIdle (coCall A w c).node := by
  have hspine := coCall_spine A w c
  change (coCall A w c).node.spine.nmt = .stopped → (coCall A w c).node.spine.sdo.state = .idle
  generalize (coCall A w c).node.spine = s at hspine
  cases hspine with
  | command f t cmd h => cases cmd <;> simp [NmtCmd.target, NmtCmd.endsTransfer, CoSdo.stop]
  | request f t hnmt h =>
    intro hstop
    have hstop' : w.node.nmt = .stopped := hstop
    simp [NmtState.Serving, hstop'] at hnmt
  | quiet => exact hidle
  | tick t flag =>
    intro hstop
    dsimp only
    split
    · rfl
    · exact hidle hstop
  | other => exact hidle

theorem coRun_stoppedIdle (cfg : CoConfig) (nowMs : UInt32) (app : σ) (calls : List (CoCall σ)) :
    StoppedIdle (coRun A cfg nowMs app calls).node := by
  refine Machine.run_invariant (coStep A) (P := fun w => StoppedIdle w.node) ?_ ?_ calls
  · exact fun w c h => coCall_stoppedIdle (w := { w with out := [] }) h c
  · obtain ⟨c, -, hspine⟩ := @coInit_spine _ A cfg nowMs app
    intro _
    change (coInit A cfg nowMs app).node.spine.sdo.state = .idle
    rw [hspine]
    rfl

-- ════════════════════════════════════════════════════════════════════════
-- Replies
-- ════════════════════════════════════════════════════════════════════════

/-- The frames handed to the driver under an identifier, in order. -/
def sentOn (id : UInt16) (es : List Effect) : List CoFrame :=
  (es.filterMap (fun e => e.act.frame?)).filter (fun f => f.id == id)

/-- The effect is no abort reply, or the server of the node is idle. -/
def AbortIdle (n : CoNode) (e : Effect) : Prop :=
  ∀ f ok, e.act = .send .sdo f ok → f.cmd = 0x80 → n.sdo.state = .idle

theorem By.abortIdle {nmt : NmtState} {S : Set Part} {e : Effect} (h : By nmt S e)
    (hS : .sdo ∉ S) (n : CoNode) : AbortIdle n e := by
  obtain ⟨-, p, hp, hact⟩ := h
  intro f ok hsend
  rw [hsend] at hact
  cases p with
  | sdo => exact absurd hp hS
  | owner | emcy | tpdo | rpdo => simp [Part.allows] at hact
  | heartbeat => simp [Part.allows] at hact

theorem Served.abortIdle {safe : Prop} {w' : World σ} {cs : List OdCall} {d : List UInt8}
    (h : Served safe w w' cs d) : Grows (AbortIdle w'.node) w.out w'.out := by
  obtain ⟨new, ok, hnew, hall, -⟩ := h.out
  rw [hnew, List.append_assoc]
  refine (Grows.refl _ _).append ?_
  intro e he f ok' hsend hcode
  rcases List.mem_append.mp he with he | he
  · have hsilent := (hall e he).silent
    rw [hsend] at hsilent
    exact absurd hsilent (by simp [Act.frame?])
  · obtain rfl := List.mem_singleton.mp he
    obtain ⟨rfl, -⟩ : w.node.sdoFrame d = f ∧ ok = ok' := by simpa using hsend
    refine h.idle ?_
    rw [← hcode, CoNode.sdoFrame, CoFrame.ofBytes_zero]
    cases d with
    | nil => exact absurd h.length (by simp)
    | cons b d => rfl

theorem coCall_abortIdle (c : CoCall σ) :
    Grows (AbortIdle (coCall A w c).node) w.out (coCall A w c).out := by
  have hcase := coCall_happens A w c
  generalize coCall A w c = w' at hcase
  cases hcase with
  | command f t cmd h =>
    exact (nmtCommand_growsBy (w := noted w t) cmd).mono (fun e he => he.abortIdle (by simp) _)
  | request f t hnmt h =>
    by_cases h4 : f.request.ccs = 4
    · rw [sdoServe_clientAbort h4]
      exact Grows.refl _ _
    · obtain ⟨d, hserved⟩ := sdoServe_served (A := A) (w := noted w t) h4
      exact hserved.abortIdle
  | sync f t hid hop =>
    exact (syncRx_spec (w := noted w t)).2.mono (fun e he => he.abortIdle (by simp [pdoParts]) _)
  | pdo f t hnmt hid hsdo w' hw =>
    have hrx := (pdoRx_spec (A := A) (w := atTime w t) (f := f)).2.mono
      (fun e he => he.abortIdle (by simp [pdoParts]) w'.node)
    rcases hw with rfl | rfl
    · exact hrx
    · exact hrx
  | ignored f t hcmd hreq w' hw =>
    rcases hw with rfl | rfl <;> exact Grows.refl _ _
  | tick t =>
    have hbeat : GrowsBy (atTime w t).node.nmt {.heartbeat} w (heartbeatTick A (atTime w t)) :=
      heartbeatTick_growsBy (w := atTime w t)
    refine ((hbeat.mono ?_).trans (sdoTimeout_grows ?_ ?_)).trans (tpdoTick_only.grows.mono ?_)
    · exact fun e he => he.abortIdle (by simp) _
    · exact fun n _ f ok hsend => absurd hsend (by simp)
    · intro htimeout f ok _ _ _ _
      have hstop := sdoTimeout_node (A := A) (w := heartbeatTick A (atTime w t))
      rw [if_pos htimeout] at hstop
      rw [coTick, CoNode.sdo_of_spine tpdoTick_only.spine, hstop]
      rfl
    · exact fun e he => he.abortIdle (by simp) _
  | emcy code errBits mfr => exact coEmcy_growsBy.mono (fun e he => he.abortIdle (by simp) _)
  | owner c => exact (ownerCall_spec c).2.mono (fun e he => he.abortIdle (by simp) _)
  | world g => exact Grows.refl _ _

theorem CoNode.sdoFrame_id {n : CoNode} (h : n.cfg.nodeId.toNat ≤ 127) (d : List UInt8) :
    (n.sdoFrame d).id = n.sdoTxId := by
  apply CoFrame.ofBytes_id
  rw [CoNode.sdoTxId, UInt16.toNat_add, UInt8.toNat_toUInt16]
  exact (Nat.mod_le _ _).trans_lt (by simp; omega)

/-- A request is answered by one frame, a client abort by none. -/
theorem coCall_replies (hid : w.node.cfg.nodeId.toNat ≤ 127) (hnmt : w.node.nmt.Serving)
    {f : CoFrame} (h : w.node.RequestIn f) (t : UInt32) (hout : w.out = []) :
    (sentOn w.node.sdoTxId (coCall A w (.rx f t)).out).length =
      if f.request.ccs = 4 then 0 else 1 := by
  rw [coCall_request hnmt h]
  split
  · next h4 =>
    rw [sdoServe_clientAbort h4]
    change (sentOn w.node.sdoTxId w.out).length = 0
    rw [hout]
    rfl
  · next h4 =>
    obtain ⟨d, hserved⟩ := sdoServe_served (A := A) (w := noted w t) h4
    obtain ⟨new, ok, hnew, hall, -⟩ := hserved.out
    have hnone : new.filterMap (fun e => e.act.frame?) = [] :=
      List.filterMap_eq_nil_iff.mpr (fun e he => (hall e he).silent)
    have hframe : ((noted w t).node.sdoFrame d).id = w.node.sdoTxId := CoNode.sdoFrame_id hid d
    rw [hnew, show (noted w t).out = [] from hout, List.nil_append, sentOn, List.filterMap_append,
      hnone]
    simp [Act.frame?, hframe]

/-- **The SDO server**: as long as `od_read` keeps to its buffer, the indices of a transfer
    stay inside the server's in every reachable state and so does every copy of every next
    call. A request is answered by exactly one frame, a client abort by none, and no abort
    reply leaves a transfer behind. -/
theorem sdo_server_safe (A : App σ) (hread : ReadFits A) (cfg : CoConfig) (nowMs : UInt32) (app : σ)
    (calls : List (CoCall σ)) :
    let w := coRun A cfg nowMs app calls
    SdoOk w.node.sdo ∧
      ∀ c, (∀ e ∈ (coStep A w c).out, e.act.InBounds) ∧
        (∀ f t, c = .rx f t → w.node.nmt.Serving → w.node.RequestIn f →
          (sentOn w.node.sdoTxId (coStep A w c).out).length = if f.request.ccs = 4 then 0 else 1) ∧
        ∀ e ∈ (coStep A w c).out, ∀ f ok, e.act = .send .sdo f ok → f.cmd = 0x80 →
          (coStep A w c).node.sdo.state = .idle := by
  intro w
  have hok : SdoOk w.node.sdo := coRun_sdoOk hread cfg nowMs app calls
  have hmaps : MapsOk w.node := coRun_mapsOk cfg nowMs app calls
  have hid : w.node.cfg.nodeId.toNat ≤ 127 := by
    rw [show w.node.cfg.nodeId = _ from coRun_nodeId cfg nowMs app calls]
    exact validNodeId_le cfg.nodeId
  refine ⟨hok, fun c => ⟨fun e he => ?_, ?_, fun e he => ?_⟩⟩
  · have hin := (coCall_inBounds (A := A) (w := { w with out := [] }) hmaps c).forall_mem e he
    exact hin (fun _ => ⟨hread, hok⟩)
  · rintro f t rfl hnmt hreq
    exact coCall_replies (w := { w with out := [] }) hid hnmt hreq t rfl
  · exact (coCall_abortIdle (A := A) (w := { w with out := [] }) c).forall_mem e he

/-- An application with fixed objects at sub-index 0, over a driver that takes every
    frame. -/
def tableApp (object : UInt16 → Option (List UInt8)) : App Unit where
  send _ _ := (true, ())
  odRead _ index sub cap :=
    match object index with
    | some bytes => (OdRead.single sub (OdRead.value cap bytes), ())
    | none => (OdRead.abort abortNoObject, ())
  odWrite _ index _ _ := (if (object index).isSome then 0 else abortNoObject, ())
  onReset _ _ := ([], ())
  onNmtChanged s _ _ := s

theorem tableApp_readFits (object : UInt16 → Option (List UInt8)) : ReadFits (tableApp object) := by
  intro s index sub cap
  simp only [tableApp]
  split
  · exact OdRead.single_length (OdRead.value_length _)
  · exact Nat.zero_le _

/-- A node with the id 5 and no reset callback. -/
def exampleConfig : CoConfig where
  nodeId := 5
  heartbeatMs := 500
  deviceType := 0
  vendorId := 0
  productCode := 0
  revision := 0
  serial := 0
  deviceName := none
  hwVersion := none
  swVersion := none
  onReset := false

/-- An object of four bytes at 0x2000. -/
def fourByteObject (index : UInt16) : Option (List UInt8) :=
  if index = 0x2000 then some [1, 2, 3, 4] else none

/-- An object of ten bytes at 0x2000, which takes two segments. -/
def tenByteObject (index : UInt16) : Option (List UInt8) :=
  if index = 0x2000 then some [1, 2, 3, 4, 5, 6, 7, 8, 9, 10] else none

/-- A client has asked for the object and for its first segment. -/
def firstSegment : List (CoCall Unit) :=
  [.rx (CoFrame.ofBytes 0x605 [0x40, 0, 0x20, 0, 0, 0, 0, 0]) 1,
    .rx (CoFrame.ofBytes 0x605 [0x60, 0, 0, 0, 0, 0, 0, 0]) 2]

/-- In the middle of the upload, and at the request for the second segment. -/
theorem sdo_server_safe_segmented :
    let w := coRun (tableApp tenByteObject) exampleConfig 0 () firstSegment
    let c := .rx (CoFrame.ofBytes 0x605 [0x70, 0, 0, 0, 0, 0, 0, 0]) 3
    (w.node.sdo.state = .uploadSeg ∧ w.node.sdo.pos = 7 ∧ w.node.sdo.len = 10) ∧
      SdoOk w.node.sdo ∧ (∀ e ∈ (coStep (tableApp tenByteObject) w c).out, e.act.InBounds) ∧
      (sentOn w.node.sdoTxId (coStep (tableApp tenByteObject) w c).out).length = 1 := by
  intro w c
  obtain ⟨hok, hnext⟩ :=
    sdo_server_safe (tableApp tenByteObject) (tableApp_readFits _) exampleConfig
    0 () firstSegment
  obtain ⟨hin, hreply, -⟩ := hnext c
  exact ⟨by decide +kernel, hok, hin,
    hreply _ _ rfl (by decide +kernel) (by decide +kernel)⟩

-- ════════════════════════════════════════════════════════════════════════
-- What the NMT state allows
-- ════════════════════════════════════════════════════════════════════════

/-- The identifier of heartbeat and boot-up. -/
def CoNode.heartbeatId (n : CoNode) : UInt16 := 0x700 + n.cfg.nodeId.toUInt16

/-- An action of the heartbeat: the boot-up message or an NMT state, under its identifier. -/
def HeartbeatAct (id : UInt16) : Act → Prop
  | .send kind f _ => (kind = .bootup ∧ f = CoFrame.ofBytes id [0]) ∨
      (kind = .heartbeat ∧ ∃ s : NmtState, f = CoFrame.ofBytes id [s.code])
  | .copy _ _ _ => True
  | _ => False

/-- The effect is allowed in its NMT state: a stopped node sends heartbeats only, and
    before OPERATIONAL there are no PDOs. -/
def Gated (id : UInt16) (e : Effect) : Prop :=
  match e.nmt with
  | .stopped => HeartbeatAct id e.act
  | .preoperational => ∃ p ∈ ({.heartbeat, .emcy, .sdo} : Set Part), p.allows e.act
  | .initialising | .operational => True

theorem Gated.of_operational {id : UInt16} {e : Effect} (h : e.nmt = .operational) :
    Gated id e := by
  simp [Gated, h]

theorem Gated.of_initialising {id : UInt16} {e : Effect} (h : e.nmt = .initialising) :
    Gated id e := by
  simp [Gated, h]

/-- The parts that PRE-OPERATIONAL has and STOPPED has not. -/
theorem By.gated {nmt : NmtState} {p : Part} {e : Effect} (h : By nmt {p} e)
    (hp : p = .emcy ∨ p = .sdo) (hstop : nmt ≠ .stopped) (id : UInt16) : Gated id e := by
  obtain ⟨hnmt, q, rfl, hact⟩ := h
  subst hnmt
  rw [Gated]
  split
  · next hs => exact absurd hs hstop
  · exact ⟨q, by rcases hp with rfl | rfl <;> simp, hact⟩
  · trivial
  · trivial

theorem HeartbeatAct.gated {id : UInt16} {e : Effect} (h : HeartbeatAct id e.act) : Gated id e := by
  rw [Gated]
  split
  · exact h
  · refine ⟨.heartbeat, by simp, ?_⟩
    cases hact : e.act with
    | send kind f ok =>
      rw [hact] at h
      exact h.imp (fun h => h.1) (fun h => h.1)
    | copy => trivial
    | read | write | apply =>
      rw [hact] at h
      exact absurd h (by simp [HeartbeatAct])
  · trivial
  · trivial

theorem heartbeatTick_acts : Grows (fun e => e.nmt = w.node.nmt ∧
    HeartbeatAct w.node.heartbeatId e.act) w.out (heartbeatTick A w).out := by
  have hsend : ∀ kind data, (kind = .bootup ∧ data = [0]) ∨
      (kind = .heartbeat ∧ ∃ s : NmtState, data = [s.code]) →
      Grows (fun e => e.nmt = w.node.nmt ∧ HeartbeatAct w.node.heartbeatId e.act) w.out
        (tx A w kind (0x700 + w.node.cfg.nodeId.toUInt16) data).2.out := by
    intro kind data h
    rw [tx_out]
    refine (Grows.refl _ _).append ?_
    simp only [List.forall_mem_cons, List.not_mem_nil, false_imp_iff, implies_true,
      and_true, true_and]
    refine ⟨trivial, h.imp ?_ ?_⟩
    · rintro ⟨rfl, rfl⟩
      exact ⟨rfl, rfl⟩
    · rintro ⟨rfl, s, rfl⟩
      exact ⟨rfl, s, rfl⟩
  simp only [heartbeatTick]
  split
  · split <;> exact hsend _ _ (.inl ⟨rfl, rfl⟩)
  split
  · exact Grows.refl _ _
  split
  · exact hsend _ _ (.inr ⟨rfl, _, rfl⟩)
  · exact Grows.refl _ _

theorem tpdoTick_operational : Grows (fun e => w.node.nmt = .operational ∧
    By .operational {p | ∃ i, p = .tpdo i} e) w.out (tpdoTick A w).out := by
  rw [tpdoTick]
  split
  · exact Grows.refl _ _
  · next hop =>
    have hop : w.node.nmt = .operational := not_not.mp hop
    exact (TpdoOnly.foldl (fun w i => tpdoTickOne_only i) _).grows.mono
      (fun e he => ⟨hop, hop ▸ he⟩)

theorem pdoRx_silent (h : w.node.nmt ≠ .operational) (f : CoFrame) : (pdoRx A w f).2 = w := by
  simp only [pdoRx, h, if_false, not_false_eq_true, ne_eq, if_true]
  split
  · split <;> rfl
  · split <;> rfl

/-- The frame is a SYNC. -/
def CoFrame.IsSync (f : CoFrame) : Prop := f.id = 0x080 ∧ f.rtr = false

/-- What a call does: the part that acts and the occasion for it. -/
inductive Does (w : World σ) : CoCall σ → Effect → Prop where
  | reset (f : CoFrame) (t : UInt32) (cmd : NmtCmd) (h : w.node.command f = some cmd) {e : Effect}
      (he : By .initialising {.owner} e) : Does w (.rx f t) e
  | reply (f : CoFrame) (t : UInt32) (hnmt : w.node.nmt.Serving) (h : w.node.RequestIn f)
      {e : Effect} (he : By w.node.nmt {.sdo} e) : Does w (.rx f t) e
  | sync (f : CoFrame) (t : UInt32) (hf : f.IsSync) (hop : w.node.nmt = .operational) {e : Effect}
      (he : By .operational pdoParts e) : Does w (.rx f t) e
  | pdo (f : CoFrame) (t : UInt32) (hop : w.node.nmt = .operational) {e : Effect}
      (he : By .operational pdoParts e) : Does w (.rx f t) e
  | beat (t : UInt32) {e : Effect} (hnmt : e.nmt = w.node.nmt)
      (he : HeartbeatAct w.node.heartbeatId e.act) : Does w (.tick t) e
  | timeout (t : UInt32) (h : w.node.sdo.TimedOut t) (f : CoFrame) (ok : Bool) :
      Does w (.tick t) ⟨w.node.nmt, .send .sdo f ok⟩
  | event (t : UInt32) (hop : w.node.nmt = .operational) {e : Effect}
      (he : By .operational {p | ∃ i, p = .tpdo i} e) : Does w (.tick t) e
  | emcy (code : UInt16) (errBits : UInt8) (mfr : Option (Vector UInt8 5))
      (hnmt : ¬ (w.node.nmt = .stopped ∨ w.node.nmt = .initialising)) {e : Effect}
      (he : By w.node.nmt {.emcy} e) : Does w (.emcy code errBits mfr) e
  | owner (c : OwnerCall) {e : Effect} (he : By w.node.nmt {.owner} e) : Does w (.owner c) e

theorem coTick_does (t : UInt32) : Grows (Does w (.tick t)) w.out (coTick A w t).out := by
  have hbeat := (heartbeatTick_acts (A := A) (w := atTime w t)).mono
    (fun e he => Does.beat (w := w) t he.1 he.2)
  obtain ⟨hb, flag, hnode⟩ := @heartbeatTick_node _ A (atTime w t)
  have hnmt : (heartbeatTick A (atTime w t)).node.nmt = w.node.nmt := by rw [hnode]; rfl
  have hsdo : (heartbeatTick A (atTime w t)).node.sdo = w.node.sdo := by rw [hnode]; rfl
  have hnow : (heartbeatTick A (atTime w t)).node.nowMs = t := by rw [hnode]; rfl
  refine (Grows.trans hbeat (sdoTimeout_grows (A := A) ?_ ?_)).trans (tpdoTick_operational.mono ?_)
  · exact fun n _ => .beat t hnmt trivial
  · intro htimeout f ok
    rw [hsdo, hnow] at htimeout
    rw [hnmt]
    exact .timeout t htimeout f ok
  · rintro e ⟨hop, he⟩
    rw [sdoTimeout_node] at hop
    exact .event t (hnmt.symm.trans hop) he

theorem coCall_does (c : CoCall σ) : Grows (Does w c) w.out (coCall A w c).out := by
  have hcase := coCall_happens A w c
  generalize coCall A w c = w' at hcase
  cases hcase with
  | command f t cmd h =>
    exact (nmtCommand_growsBy (w := noted w t) cmd).mono (fun e he => .reset f t cmd h he)
  | request f t hnmt h =>
    exact (sdoServe_growsBy (w := noted w t) f.request).mono (fun e he => .reply f t hnmt h he)
  | sync f t hid hop hrtr =>
    have hop' : (noted w t).node.nmt = .operational := hop
    exact (syncRx_spec (w := noted w t)).2.mono
      (fun e he => .sync f t ⟨hid, hrtr⟩ hop (hop' ▸ he))
  | pdo f t hnmt hid hsdo w' hw =>
    have hrx : Grows (Does w (.rx f t)) w.out (pdoRx A (atTime w t) f).2.out := by
      by_cases hop : w.node.nmt = .operational
      · have hop' : (atTime w t).node.nmt = .operational := hop
        exact (pdoRx_spec (w := atTime w t)).2.mono (fun e he => .pdo f t hop (hop' ▸ he))
      · rw [pdoRx_silent (w := atTime w t) hop]
        exact Grows.refl _ _
    rcases hw with rfl | rfl
    · exact hrx
    · exact hrx
  | ignored f t hcmd hreq w' hw =>
    rcases hw with rfl | rfl <;> exact Grows.refl _ _
  | tick t => exact coTick_does t
  | emcy code errBits mfr =>
    by_cases hstop : w.node.nmt = .stopped ∨ w.node.nmt = .initialising
    · exact Grows.of_eq (coEmcy_silent hstop)
    · exact coEmcy_growsBy.mono (fun e he => .emcy code errBits mfr hstop he)
  | owner c => exact (ownerCall_spec c).2.mono (fun e he => .owner c he)
  | world g => exact Grows.refl _ _

theorem Does.gated (hidle : StoppedIdle w.node) {c : CoCall σ} (hc : ∀ o, c ≠ .owner o) {e : Effect}
    (h : Does w c e) : Gated w.node.heartbeatId e := by
  cases h with
  | reset f t cmd h he => exact Gated.of_initialising he.1
  | reply f t hnmt h he =>
    refine he.gated (.inr rfl) (fun hstop => ?_) _
    simp [NmtState.Serving, hstop] at hnmt
  | sync _ _ _ _ he | pdo _ _ _ he | event _ _ he => exact Gated.of_operational he.1
  | beat t hnmt he => exact he.gated
  | timeout t htimeout f ok =>
    have he : By w.node.nmt {.sdo} ⟨w.node.nmt, .send .sdo f ok⟩ := ⟨rfl, .sdo, rfl, rfl⟩
    exact he.gated (.inr rfl) (fun hstop => htimeout.1 (hidle hstop)) _
  | emcy _ _ _ hnmt he => exact he.gated (.inl rfl) (fun hstop => hnmt (.inl hstop)) _
  | owner o => exact absurd rfl (hc o)

/-- An RPDO with a frame pending is as it was before. -/
def PendingKept (n n' : CoNode) : Prop :=
  ∀ i, (n'.rpdo i).pending = true → n'.rpdo i = n.rpdo i

/-- No frame was buffered for an RPDO: what is pending was pending before. -/
def NotBuffered (n n' : CoNode) : Prop :=
  ∀ i, (n'.rpdo i).pending = true → (n.rpdo i).pending = true ∧
    (n'.rpdo i).len = (n.rpdo i).len ∧ (n'.rpdo i).data = (n.rpdo i).data

section Pending

variable {n n' : CoNode}

theorem PendingKept.of_eq (h : n'.rpdo = n.rpdo) : PendingKept n n' := fun i _ => congrFun h i

theorem PendingKept.trans {n'' : CoNode} (h : PendingKept n n') (h' : PendingKept n' n'') :
    PendingKept n n'' := by
  intro i hi
  have heq := h' i hi
  rw [heq] at hi ⊢
  exact h i hi

theorem PendingKept.setRpdo {i : Fin coRpdoCount} {p : CoRpdo}
    (h : p.pending = true → p = n.rpdo i) : PendingKept n (n.setRpdo i p) := by
  intro j hj
  by_cases hij : j = i
  · subst hij
    rw [CoNode.setRpdo_self] at hj ⊢
    exact h hj
  · exact CoNode.setRpdo_of_ne _ hij _

theorem PendingKept.notBuffered (h : PendingKept n n') : NotBuffered n n' := by
  intro i hi
  have heq := h i hi
  rw [heq] at hi ⊢
  exact ⟨hi, rfl, rfl⟩

theorem NotBuffered.setRpdo {i : Fin coRpdoCount} {p : CoRpdo} (hlen : p.len = (n.rpdo i).len)
    (hpending : p.pending = (n.rpdo i).pending) (hdata : p.data = (n.rpdo i).data) :
    NotBuffered n (n.setRpdo i p) := by
  intro j hj
  by_cases hij : j = i
  · subst hij
    rw [CoNode.setRpdo_self] at hj ⊢
    exact ⟨hpending ▸ hj, hlen, hdata⟩
  · rw [CoNode.setRpdo_of_ne _ hij] at hj ⊢
    exact ⟨hj, rfl, rfl⟩

theorem InternalWrite.notBuffered {index : UInt16} {sub : UInt8} {buf : List UInt8}
    (h : InternalWrite n index sub buf n') : NotBuffered n n' := by
  cases h with
  | refused | heartbeat | tpdoComm | tpdoCount | tpdoEntry =>
    exact (PendingKept.of_eq rfl).notBuffered
  | rpdoComm => exact (PendingKept.setRpdo (by simp)).notBuffered
  | rpdoCount => exact NotBuffered.setRpdo rfl rfl rfl
  | rpdoEntry => exact NotBuffered.setRpdo rfl rfl rfl

theorem Wrote.notBuffered {cs : List OdCall} (h : Wrote n cs n') : NotBuffered n n' := by
  match cs, h with
  | [], h => exact (PendingKept.of_eq (congrArg CoNode.rpdo h)).notBuffered
  | [_], h => exact InternalWrite.notBuffered h

/-- The owner drops what was pending for an RPDO that it configures. -/
theorem ownerCall_pendingKept (c : OwnerCall) : PendingKept w.node (ownerCall A w c).node := by
  have howned := ownerCall_owned A w c
  generalize (ownerCall A w c).node = n' at howned
  cases howned with
  | rpdo => exact PendingKept.setRpdo fun h => absurd h Bool.false_ne_true
  | tpdoRefused | tpdo | rpdoRefused | requestRefused | request | heartbeat | register =>
    exact PendingKept.of_eq rfl

theorem ownerCalls_pendingKept (cs : List OwnerCall) :
    PendingKept w.node (cs.foldl (ownerCall A) w).node := by
  induction cs generalizing w with
  | nil => exact PendingKept.of_eq rfl
  | cons c cs ih => exact (ownerCall_pendingKept c).trans ih

/-- A reset drops what was buffered. -/
theorem nodeReset_notPending (resetNode : Bool) (i : Fin coRpdoCount) :
    ((nodeReset A w resetNode).node.rpdo i).pending = false := by
  have hcall : PendingKept (resetComm w.node resetNode)
      (callOnReset A { w with node := resetComm w.node resetNode } resetNode).node := by
    simp only [callOnReset]
    split
    · exact ownerCalls_pendingKept (w := { w with
        node := resetComm w.node resetNode
        app := (A.onReset w.app resetNode).2 }) _
    · exact PendingKept.of_eq rfl
  simp only [nodeReset, nmtSet_node]
  rw [← Bool.not_eq_true]
  intro hp
  have heq := hcall i hp
  rw [heq] at hp
  exact absurd hp (by simp [resetComm, defaultRpdo])

/-- A command keeps what is pending or drops it. -/
theorem nmtCommand_pendingKept (cmd : NmtCmd) : PendingKept w.node (nmtCommand A w cmd).node := by
  cases cmd with
  | start | stop =>
    refine PendingKept.of_eq ?_
    simp only [nmtCommand, sdoIdle, nmtSet_node]
    rfl
  | preop => exact PendingKept.of_eq (by simp only [nmtCommand, nmtSet_node])
  | resetNode => exact fun i hi => absurd ((nodeReset_notPending true i).symm.trans hi) (by simp)
  | resetComm => exact fun i hi => absurd ((nodeReset_notPending false i).symm.trans hi) (by simp)

theorem syncRpdo_pendingKept (hmaps : MapsOk w.node) (i : Fin coRpdoCount) :
    PendingKept w.node (syncRpdo A w i).node := by
  simp only [syncRpdo]
  split
  · have hclear : PendingKept w.node
        (w.node.setRpdo i { w.node.rpdo i with pending := false }) := PendingKept.setRpdo (by simp)
    have hmaps' : MapsOk (w.node.setRpdo i { w.node.rpdo i with pending := false }) :=
      hmaps.setRpdo (hmaps.rpdo i)
    obtain ⟨reg, hnode⟩ := @rpdoApply_node _ A
      { w with node := (w.node.setRpdo i { w.node.rpdo i with pending := false }) } hmaps' i
      (w.node.rpdo i).data (w.node.rpdo i).len
    rw [hnode]
    exact hclear
  · exact PendingKept.of_eq rfl

/-- A SYNC applies its RPDOs after its TPDOs: on the way the mappings are valid and the RPDOs
    that still pend are as they were, so that it records what each of them records there. -/
theorem syncRpdos_grows {P : Effect → Prop} (hok : MapsOk w.node) (hop : w.node.nmt = .operational)
    (h : ∀ (w' : World σ) (i : Fin coRpdoCount), MapsOk w'.node → w'.node.nmt = .operational →
      PendingKept w.node w'.node → Grows P w'.out (syncRpdo A w' i).out) :
    PendingKept w.node (syncRx A w).node ∧
      Grows P ((List.finRange coTpdoCount).foldl (syncTpdo A) w).out (syncRx A w).out := by
  rw [syncRx, if_neg (not_not.mpr hop)]
  have htx : TpdoOnly w ((List.finRange coTpdoCount).foldl (syncTpdo A) w) :=
    TpdoOnly.foldl (fun w i => syncTpdo_only i) _
  obtain ⟨⟨-, -, hkept⟩, hgrows⟩ := Grows.foldl World.out (fun w' : World σ =>
    MapsOk w'.node ∧ w'.node.nmt = .operational ∧ PendingKept w.node w'.node)
    (fun w' i hw' => by
      obtain ⟨hok', hop', hkept⟩ := hw'
      have hstep := syncRpdo_pdoStep (A := A) hok' hop' i
      exact ⟨⟨hstep.mapsOk hok', (CoNode.nmt_of_spine hstep.spine).trans hop',
        hkept.trans (syncRpdo_pendingKept hok' i)⟩, h w' i hok' hop' hkept⟩)
    ⟨htx.mapsOk hok, htx.nmt.trans hop, PendingKept.of_eq (CoNode.rpdo_of_withoutTx htx.node)⟩
  exact ⟨hkept, hgrows⟩

theorem syncRx_pendingKept (hmaps : MapsOk w.node) (hop : w.node.nmt = .operational) :
    PendingKept w.node (syncRx A w).node :=
  (syncRpdos_grows (P := fun _ => True) hmaps hop fun _ i _ _ _ =>
    (syncRpdo_spec i).2.mono fun _ _ => trivial).1

end Pending

/-- Outside OPERATIONAL a received frame buffers no RPDO. -/
theorem coRx_notBuffered (h : w.node.nmt ≠ .operational) (f : CoFrame) (t : UInt32) :
    NotBuffered w.node (coCall A w (.rx f t)).node := by
  have hcase := coCall_happens A w (.rx f t)
  generalize coCall A w (.rx f t) = w' at hcase
  cases hcase with
  | command _ _ cmd hcmd => exact (nmtCommand_pendingKept (w := noted w t) cmd).notBuffered
  | request _ _ hnmt hreq =>
    obtain ⟨n, hn, hnode⟩ := sdoServe_node (A := A) (w := noted w t) f.request
    rw [hnode]
    exact hn.notBuffered
  | sync _ _ hid hop => exact absurd hop h
  | pdo _ _ hnmt hid hsdo w' hw =>
    rw [pdoRx_silent (w := atTime w t) h] at hw
    rcases hw with rfl | rfl <;> exact (PendingKept.of_eq rfl).notBuffered
  | ignored _ _ hcmd hreq w' hw =>
    rcases hw with rfl | rfl <;> exact (PendingKept.of_eq rfl).notBuffered

/-- **NMT gating**: a stopped node has no SDO transfer; while it is stopped, the calls send
    nothing but heartbeat and boot-up and leave the object dictionary alone; while it is
    PRE-OPERATIONAL, they send no TPDO and neither buffer nor apply an RPDO. The error
    register follows every emergency in every state. -/
theorem nmt_gates_calls (A : App σ) (cfg : CoConfig) (nowMs : UInt32) (app : σ)
    (calls : List (CoCall σ)) :
    let w := coRun A cfg nowMs app calls
    (w.node.nmt = .stopped → w.node.sdo.state = .idle) ∧
      (∀ c, (∀ o, c ≠ .owner o) → ∀ e ∈ (coStep A w c).out, e.nmt = .stopped →
        (∀ kind f ok, e.act = .send kind f ok →
          f = CoFrame.ofBytes w.node.heartbeatId [0] ∨
            ∃ s : NmtState, f = CoFrame.ofBytes w.node.heartbeatId [s.code]) ∧
        (∀ index sub, e.act ≠ .read index sub) ∧
        ∀ via index sub bytes, e.act ≠ .write via index sub bytes) ∧
      (∀ c, (∀ o, c ≠ .owner o) → ∀ e ∈ (coStep A w c).out, e.nmt = .preoperational →
        (∀ i f ok, e.act ≠ .send (.tpdo i) f ok) ∧
        (∀ i data len, e.act ≠ .apply i data len) ∧
        ∀ i index sub bytes, e.act ≠ .write (.rpdo i) index sub bytes) ∧
      (w.node.nmt = .preoperational → ∀ f t, NotBuffered w.node (coStep A w (.rx f t)).node) ∧
      ∀ code errBits mfr, (coStep A w (.emcy code errBits mfr)).node.errorRegister =
        if code = 0 then w.node.errorRegister &&& ~~~errBits
        else w.node.errorRegister ||| errBits := by
  intro w
  have hidle : StoppedIdle w.node := coRun_stoppedIdle cfg nowMs app calls
  have hgated : ∀ c, (∀ o, c ≠ .owner o) → ∀ e ∈ (coStep A w c).out, Gated w.node.heartbeatId e :=
    fun c hc e he => Does.gated (w := { w with out := [] }) hidle hc
      ((coCall_does c).forall_mem e he)
  refine ⟨hidle, fun c hc e he hnmt => ?_, fun c hc e he hnmt => ?_, fun hpre f t => ?_,
    fun code errBits mfr => ?_⟩
  · have hact := hgated c hc e he
    simp only [Gated, hnmt] at hact
    refine ⟨fun kind f ok hsend => ?_, fun index sub hread => ?_,
      fun via index sub bytes hwrite => ?_⟩
    · rw [hsend] at hact
      exact hact.imp (fun h => h.2) (fun h => h.2)
    · rw [hread] at hact
      exact hact
    · rw [hwrite] at hact
      exact hact
  · obtain ⟨p, hp, hact⟩ : ∃ p ∈ ({.heartbeat, .emcy, .sdo} : Set Part), p.allows e.act := by
      simpa only [Gated, hnmt] using hgated c hc e he
    rcases hp with rfl | rfl | rfl
    all_goals
      refine ⟨fun i f ok h => ?_, fun i data len h => ?_, fun i index sub bytes h => ?_⟩ <;>
        · rw [h] at hact
          simp [Part.allows] at hact
  · exact coRx_notBuffered (w := { w with out := [] }) (by simp [hpre]) f t
  · exact congrArg CoNode.errorRegister (coEmcy_node (A := A) (w := { w with out := [] }))

end Fountainer.Canopen
