import Fountainer.Canopen.Gating

/-!
# Boot-up comes first

After `co_init` and after a reset the boot-up message is only queued, and `co_tick` sends
it. The heartbeat waits for it; the SDO server, the emergencies and the PDOs do not. The
first frame on the bus is the boot-up message as long as none of them has an occasion to
send before it.
-/

namespace Fountainer.Canopen

open Traces (Grows)

variable {σ : Type*} {A : App σ} {w : World σ}

-- ════════════════════════════════════════════════════════════════════════
-- What the bus sees
-- ════════════════════════════════════════════════════════════════════════

/-- A reset of the node, or a frame of the node that the driver took. -/
inductive BusEvent where
  | reset
  | sent (f : CoFrame)
  deriving DecidableEq

/-- The call brings a reset command. -/
def CoNode.resetBy (n : CoNode) : CoCall σ → Bool
  | .rx f _ => (n.command f).any NmtCmd.resets
  | _ => false

/-- The events of a call. -/
def busEvents (A : App σ) (w : World σ) (c : CoCall σ) : List BusEvent :=
  (sentFrames (coStep A w c).out).map .sent ++ if w.node.resetBy c then [.reset] else []

/-- The events of a run. -/
def busTrace (A : App σ) : World σ → List (CoCall σ) → List BusEvent
  | _, [] => []
  | w, c :: cs => busEvents A w c ++ busTrace A (coStep A w c) cs

/-- After every reset the frame `boot` is the first one sent. The flag says that no frame
    was sent since the last reset. -/
def FirstIs (boot : CoFrame) : Bool → List BusEvent → Prop
  | _, [] => True
  | _, .reset :: es => FirstIs boot true es
  | waiting, .sent f :: es => (waiting = true → f = boot) ∧ FirstIs boot false es

/-- Whether no frame was sent since the last reset, behind the events. -/
def waits : Bool → List BusEvent → Bool
  | waiting, [] => waiting
  | _, .reset :: es => waits true es
  | _, .sent _ :: es => waits false es

instance FirstIs.decidable (boot : CoFrame) : ∀ waiting es, Decidable (FirstIs boot waiting es)
  | _, [] => inferInstanceAs (Decidable True)
  | _, .reset :: es => FirstIs.decidable boot true es
  | waiting, .sent f :: es =>
    have := FirstIs.decidable boot false es
    inferInstanceAs (Decidable ((waiting = true → f = boot) ∧ FirstIs boot false es))

theorem firstIs_append {boot : CoFrame} {waiting : Bool} (es es' : List BusEvent) :
    FirstIs boot waiting (es ++ es') ↔
      FirstIs boot waiting es ∧ FirstIs boot (waits waiting es) es' := by
  induction es generalizing waiting with
  | nil => simp [FirstIs, waits]
  | cons e es ih =>
    cases e with
    | reset => exact ih
    | sent f => exact (and_congr_right fun _ => ih).trans and_assoc.symm

theorem waits_append {waiting : Bool} (es es' : List BusEvent) :
    waits waiting (es ++ es') = waits (waits waiting es) es' := by
  induction es generalizing waiting with
  | nil => rfl
  | cons e es ih => cases e <;> exact ih

/-- Frames behind the first one may be any. -/
theorem firstIs_sent (boot : CoFrame) (fs : List CoFrame) :
    FirstIs boot false (fs.map .sent) ∧ waits false (fs.map .sent) = false := by
  induction fs with
  | nil => exact ⟨trivial, rfl⟩
  | cons f fs ih => exact ⟨⟨by simp, ih.1⟩, ih.2⟩

-- ════════════════════════════════════════════════════════════════════════
-- Occasions to send before the boot-up message
-- ════════════════════════════════════════════════════════════════════════

/-- The boot-up message. -/
def CoNode.bootupFrame (n : CoNode) : CoFrame := CoFrame.ofBytes n.heartbeatId [0]

/-- A SYNC finds a TPDO due, or a frame pending that is too short for its mapping. -/
def CoNode.SyncSends (n : CoNode) : Prop :=
  (∃ i, (n.tpdo i).enabled = true ∧ ((n.tpdo i).transType = 0 ∨
    (n.tpdo i).transType ≤ 240 ∧ (n.tpdo i).transType ≤ (n.tpdo i).syncCount + 1)) ∨
  ∃ i, (n.rpdo i).pending = true ∧ (n.rpdo i).len < mapLength (n.rpdo i).entries

/-- A PDO frame asks for a TPDO, or is applied at once and too short for its mapping. -/
def CoNode.PdoSends (n : CoNode) (f : CoFrame) : Prop :=
  if f.rtr then ∃ i, (n.tpdo i).answers f.id = true
  else ∃ i, (List.finRange coRpdoCount).find? (fun i => (n.rpdo i).listens f.id) = some i ∧
    240 < (n.rpdo i).transType ∧ f.dlc < mapLength (n.rpdo i).entries

/-- A tick looks at an event-driven TPDO. -/
def CoNode.TickSends (n : CoNode) : Prop :=
  ∃ i, (n.tpdo i).enabled = true ∧ 254 ≤ (n.tpdo i).transType

/-- With the boot-up message still queued, the call has something else to send: a reply, an
    emergency or a TPDO, and in a tick the driver has not taken the boot-up message. -/
def OutrunsBootup (A : App σ) (w : World σ) (c : CoCall σ) : Prop :=
  w.node.bootupPending = true ∧
    match c with
    | .rx f _ =>
      (w.node.nmt.Serving ∧ w.node.RequestIn f ∧ f.request.ccs ≠ 4) ∨
      (w.node.nmt = .operational ∧ f.IsSync ∧ w.node.SyncSends) ∨
      (w.node.nmt = .operational ∧ f.id ≠ 0 ∧ f.id ≠ w.node.sdoRxId ∧ w.node.PdoSends f)
    | .tick t =>
      (A.send w.app w.node.bootupFrame).1 = false ∧
        (w.node.sdo.TimedOut t ∨ w.node.nmt = .operational ∧ w.node.TickSends)
    | .emcy _ _ _ => w.node.nmt.Serving
    | .owner _ | .world _ => False

-- ════════════════════════════════════════════════════════════════════════
-- Calls without an occasion send nothing
-- ════════════════════════════════════════════════════════════════════════

/-- The trace grows, and no frame gets on the bus. -/
abbrev Silent (w w' : World σ) : Prop := Grows (fun e : Effect => e.act.sent? = none) w.out w'.out

theorem sentFrames_silent {w' : World σ} (hout : w.out = []) (h : Silent w w') :
    sentFrames w'.out = [] := by
  rw [Silent, hout] at h
  exact List.filterMap_eq_nil_iff.mpr h.forall_mem

/-- The owner's calls read objects at most. -/
theorem By.owner_unsent {nmt : NmtState} {e : Effect} (h : By nmt {.owner} e) :
    e.act.sent? = none := by
  obtain ⟨-, p, rfl, hact⟩ := h
  cases hcase : e.act with
  | send =>
    rw [hcase] at hact
    exact absurd hact (by simp [Part.allows])
  | read | write | apply | copy => rfl

theorem nmtCommand_silent (cmd : NmtCmd) : Silent w (nmtCommand A w cmd) :=
  (nmtCommand_growsBy cmd).mono (fun _ he => he.owner_unsent)

theorem writeEffects_silent {nmt : NmtState} {i : Fin coRpdoCount} {data : List UInt8} {pos : ℕ}
    {es : List UInt32} : ∀ e ∈ writeEffects nmt i data pos es, e.act.sent? = none := by
  induction es generalizing pos with
  | nil => simp [writeEffects]
  | cons e es ih =>
    simp only [writeEffects, List.forall_mem_cons]
    exact ⟨rfl, rfl, ih⟩

/-- A frame that is long enough causes no emergency. -/
theorem rpdoApply_silent (hok : MapsOk w.node) {i : Fin coRpdoCount} {data : Vector UInt8 8}
    {len : Fin 9} (hlen : ¬ len < mapLength (w.node.rpdo i).entries) :
    Silent w (rpdoApply A w i data len) := by
  rw [Silent, (rpdoApply_long hok (not_lt.mp hlen)).2]
  refine (Grows.refl _ _).append ?_
  rw [List.forall_mem_cons]
  exact ⟨rfl, writeEffects_silent⟩

theorem syncRpdo_silent (hok : MapsOk w.node) {i : Fin coRpdoCount}
    (hlen : (w.node.rpdo i).pending = true →
      ¬ (w.node.rpdo i).len < mapLength (w.node.rpdo i).entries) :
    Silent w (syncRpdo A w i) := by
  simp only [syncRpdo]
  split
  · next hp =>
    have hentries : ((w.node.setRpdo i { w.node.rpdo i with pending := false }).rpdo i).entries =
        (w.node.rpdo i).entries := by
      rw [CoNode.setRpdo_self]
    have hlong := hlen hp
    rw [← hentries] at hlong
    exact rpdoApply_silent (w := { w with node := _ }) (hok.clearPending i) hlong
  · exact Grows.refl _ _

/-- A synchronous TPDO that is not due only counts. -/
theorem syncTpdo_silent {i : Fin coTpdoCount}
    (h : ¬ ((w.node.tpdo i).enabled = true ∧ ((w.node.tpdo i).transType = 0 ∨
      (w.node.tpdo i).transType ≤ 240 ∧
        (w.node.tpdo i).transType ≤ (w.node.tpdo i).syncCount + 1))) :
    (syncTpdo A w i).out = w.out ∧ ∃ p, (syncTpdo A w i).node = w.node.setTpdo i p := by
  have hself : w.node = w.node.setTpdo i (w.node.tpdo i) := by
    simp [CoNode.setTpdo]
  simp only [syncTpdo]
  split
  · exact ⟨rfl, _, hself⟩
  next hsync =>
  simp only [not_or, not_not, UInt8.not_lt] at hsync
  split
  · next hzero => exact absurd ⟨hsync.1, .inl hzero⟩ h
  split
  · next hdue => exact absurd ⟨hsync.1, .inr ⟨hsync.2, hdue⟩⟩ h
  · exact ⟨rfl, _, rfl⟩

theorem syncTpdos_silent {is : List (Fin coTpdoCount)} (hnodup : is.Nodup)
    (h : ∀ i ∈ is, ¬ ((w.node.tpdo i).enabled = true ∧ ((w.node.tpdo i).transType = 0 ∨
      (w.node.tpdo i).transType ≤ 240 ∧
        (w.node.tpdo i).transType ≤ (w.node.tpdo i).syncCount + 1))) :
    (is.foldl (syncTpdo A) w).out = w.out := by
  induction is generalizing w with
  | nil => rfl
  | cons i is ih =>
    obtain ⟨hi, hnodup⟩ := List.nodup_cons.mp hnodup
    obtain ⟨hout, p, hnode⟩ := syncTpdo_silent (A := A) (h i (by simp))
    -- The turn leaves the TPDOs behind it as they were.
    have hrest : ∀ j ∈ is, (syncTpdo A w i).node.tpdo j = w.node.tpdo j := by
      intro j hj
      have hne : j ≠ i := fun heq => hi (heq ▸ hj)
      rw [hnode]
      exact CoNode.setTpdo_of_ne _ hne _
    rw [List.foldl_cons, ih hnodup, hout]
    intro j hj
    rw [hrest j hj]
    exact h j (List.mem_cons_of_mem i hj)

theorem syncRx_silent (hok : MapsOk w.node) (h : ¬ w.node.SyncSends) : Silent w (syncRx A w) := by
  obtain ⟨htpdo, hrpdo⟩ := not_or.mp h
  by_cases hop : w.node.nmt = .operational
  · have hout : ((List.finRange coTpdoCount).foldl (syncTpdo A) w).out = w.out :=
      syncTpdos_silent (List.nodup_finRange _) (fun i _ hi => htpdo ⟨i, hi⟩)
    refine (Grows.of_eq hout).trans (syncRpdos_grows hok hop ?_).2
    intro w' i hok' hop' hkept
    refine syncRpdo_silent hok' fun hp hshort => ?_
    have hsame := hkept i hp
    rw [hsame] at hp hshort
    exact hrpdo ⟨i, hp, hshort⟩
  · rw [syncRx, if_pos hop]
    exact Grows.refl _ _

theorem pdoRx_noSend (hok : MapsOk w.node) {f : CoFrame} (h : ¬ w.node.PdoSends f) :
    Silent w (pdoRx A w f).2 := by
  simp only [pdoRx]
  split
  · next hrtr =>
    rw [CoNode.PdoSends, if_pos hrtr] at h
    split
    · next i hfind => exact absurd ⟨i, by simpa using List.find?_some hfind⟩ h
    · exact Grows.refl _ _
  next hdata =>
  rw [CoNode.PdoSends, if_neg hdata] at h
  split
  · next i hfind =>
    split
    · exact Grows.refl _ _
    split
    · exact Grows.refl _ _
    · next hasync =>
      exact rpdoApply_silent hok (fun hshort => h ⟨i, hfind, UInt8.not_le.mp hasync, hshort⟩)
  · exact Grows.refl _ _

theorem tpdoTick_noSend (h : ¬ (w.node.nmt = .operational ∧ w.node.TickSends)) :
    tpdoTick A w = w := by
  rw [tpdoTick]
  split
  · rfl
  next hop =>
  have hskip : ∀ i, tpdoTickOne A w i = w := by
    intro i
    refine if_pos ?_
    by_contra hdue
    simp only [not_or, not_not, UInt8.not_lt] at hdue
    exact h ⟨not_not.mp hop, i, hdue⟩
  induction List.finRange coTpdoCount with
  | nil => rfl
  | cons i is ih => rw [List.foldl_cons, hskip, ih]

-- ════════════════════════════════════════════════════════════════════════
-- Steps and runs
-- ════════════════════════════════════════════════════════════════════════

/-- A queued boot-up message is sent, and kept if the driver refuses it. -/
theorem heartbeatTick_bootup (h : w.node.bootupPending = true) :
    (heartbeatTick A w).out = w.out ++ [⟨w.node.nmt, .copy .frame 0 1⟩,
        ⟨w.node.nmt, .send .bootup w.node.bootupFrame (A.send w.app w.node.bootupFrame).1⟩] ∧
      (heartbeatTick A w).node.bootupPending = !(A.send w.app w.node.bootupFrame).1 := by
  have hok : (tx A w .bootup (0x700 + w.node.cfg.nodeId.toUInt16) [0]).1 =
      (A.send w.app w.node.bootupFrame).1 := rfl
  have hout : (tx A w .bootup (0x700 + w.node.cfg.nodeId.toUInt16) [0]).2.out = _ := tx_out
  simp only [heartbeatTick, h, if_true]
  split
  · next hsent =>
    rw [hok] at hsent
    exact ⟨hout, by rw [hsent]; rfl⟩
  · next hfailed =>
    rw [hok, Bool.not_eq_true] at hfailed
    exact ⟨hout, by rw [hfailed]; exact h⟩

/-- A tick whose boot-up message the driver takes sends it first. -/
theorem coTick_bootup (h : w.node.bootupPending = true) (t : UInt32) (hout : w.out = [])
    (hsend : (A.send w.app w.node.bootupFrame).1 = true) :
    ∃ fs, sentFrames (coTick A w t).out = w.node.bootupFrame :: fs := by
  have hbeat := (heartbeatTick_bootup (A := A) (w := atTime w t) h).1
  have hrest : Grows (fun _ => True) (heartbeatTick A (atTime w t)).out (coTick A w t).out :=
    (sdoTimeout_grows (fun _ _ => trivial) (fun _ _ _ => trivial)).trans
      (tpdoTick_only.grows.mono (fun _ _ => trivial))
  obtain ⟨new, hnew, -⟩ := hrest
  refine ⟨sentFrames new, ?_⟩
  rw [hnew, hbeat, show (atTime w t).out = [] from hout]
  have hsend' : (A.send (atTime w t).app (atTime w t).node.bootupFrame).1 = true := hsend
  rw [hsend']
  rfl

/-- A tick whose boot-up message the driver refuses keeps it queued and sends nothing else. -/
theorem coTick_refused (hpending : w.node.bootupPending = true) (t : UInt32)
    (hsend : (A.send w.app w.node.bootupFrame).1 = false)
    (h : ¬ (w.node.sdo.TimedOut t ∨ w.node.nmt = .operational ∧ w.node.TickSends)) :
    Silent w (coTick A w t) ∧ (coTick A w t).node.bootupPending = true := by
  obtain ⟨htimeout, htpdo⟩ := not_or.mp h
  obtain ⟨hout, hflag⟩ := heartbeatTick_bootup (A := A) (w := atTime w t) hpending
  have hsend' : (A.send (atTime w t).app (atTime w t).node.bootupFrame).1 = false := hsend
  obtain ⟨hb, flag, hnode⟩ := @heartbeatTick_node _ A (atTime w t)
  have hskip : sdoTimeout A (heartbeatTick A (atTime w t)) = heartbeatTick A (atTime w t) := by
    refine if_neg ?_
    rw [hnode]
    exact htimeout
  have htick : coTick A w t = heartbeatTick A (atTime w t) := by
    rw [coTick, hskip]
    refine tpdoTick_noSend ?_
    rw [hnode]
    exact htpdo
  rw [hsend'] at hout hflag
  rw [htick]
  refine ⟨?_, hflag⟩
  rw [Silent, hout]
  refine Grows.append (Grows.refl _ _) ?_
  simp [Act.sent?]

/-- A call that has nothing to send before the boot-up message: it sends nothing and keeps
    the message queued, or it sends the message first. -/
theorem coCall_bootup (hok : MapsOk w.node) (hout : w.out = [])
    (hpending : w.node.bootupPending = true) {c : CoCall σ} (hc : ¬ OutrunsBootup A w c) :
    (sentFrames (coCall A w c).out = [] ∧ (coCall A w c).node.bootupPending = true) ∨
      (w.node.resetBy c = false ∧
        ∃ fs, sentFrames (coCall A w c).out = w.node.bootupFrame :: fs) := by
  replace hc := fun h => hc ⟨hpending, h⟩
  have hcase := coCall_happens A w c
  generalize coCall A w c = w' at hcase
  cases hcase with
  | command f t cmd h =>
    have hflag : (nmtCommand A (noted w t) cmd).node.bootupPending = true := by
      refine (congrArg Spine.bootupPending (nmtCommand_spine (w := noted w t) cmd)).trans ?_
      change (cmd.resets || w.node.bootupPending) = true
      rw [hpending, Bool.or_true]
    exact .inl ⟨sentFrames_silent (w := noted w t) hout (nmtCommand_silent cmd), hflag⟩
  | request f t hserving hreq =>
    have h4 : f.request.ccs = 4 := by
      by_contra h4
      exact hc (.inl ⟨hserving, hreq, h4⟩)
    rw [sdoServe_clientAbort h4]
    exact .inl ⟨sentFrames_silent (w := w) hout (Grows.refl _ _), hpending⟩
  | sync f t hid hop hrtr =>
    have hsilent := syncRx_silent (A := A) (w := noted w t) (hok.congr (fun _ => rfl) rfl)
      (fun h => hc (.inr (.inl ⟨hop, ⟨hid, hrtr⟩, h⟩)))
    have hflag : (syncRx A (noted w t)).node.bootupPending = (noted w t).node.bootupPending :=
      CoNode.bootupPending_of_spine syncRx_spec.1
    exact .inl ⟨sentFrames_silent (w := noted w t) hout hsilent, hflag.trans hpending⟩
  | pdo f t hserving hid hsdo w' hw =>
    have hsilent : Silent w (pdoRx A (atTime w t) f).2 := by
      by_cases hop : w.node.nmt = .operational
      · exact pdoRx_noSend (w := atTime w t) (hok.congr (fun _ => rfl) rfl)
          (fun h => hc (.inr (.inr ⟨hop, hid, hsdo, h⟩)))
      · rw [pdoRx_silent (w := atTime w t) hop]
        exact Grows.refl _ _
    have hflag : (pdoRx A (atTime w t) f).2.node.bootupPending =
        (atTime w t).node.bootupPending := CoNode.bootupPending_of_spine pdoRx_spec.1
    rcases hw with rfl | rfl
    · exact .inl ⟨sentFrames_silent hout hsilent, hflag.trans hpending⟩
    · exact .inl ⟨sentFrames_silent hout hsilent, hflag.trans hpending⟩
  | ignored f t hcmd hreq w' hw =>
    rcases hw with rfl | rfl <;>
      exact .inl ⟨sentFrames_silent (w := w) hout (Grows.refl _ _), hpending⟩
  | tick t =>
    cases hsend : (A.send w.app w.node.bootupFrame).1 with
    | true => exact .inr ⟨rfl, coTick_bootup hpending t hout hsend⟩
    | false =>
      obtain ⟨hsilent, hflag⟩ := coTick_refused hpending t hsend (fun h => hc ⟨hsend, h⟩)
      exact .inl ⟨sentFrames_silent hout hsilent, hflag⟩
  | emcy code errBits mfr =>
    have hflag : (coEmcy A w code errBits mfr).node.bootupPending = true := by
      rw [coEmcy_node]
      exact hpending
    have hstop : w.node.nmt = .stopped ∨ w.node.nmt = .initialising := by
      cases hnmt : w.node.nmt with
      | stopped => exact .inl rfl
      | initialising => exact .inr rfl
      | operational => exact absurd (.inr hnmt) hc
      | preoperational => exact absurd (.inl hnmt) hc
    exact .inl ⟨sentFrames_silent hout (Grows.of_eq (coEmcy_silent hstop)), hflag⟩
  | owner o =>
    have hflag := CoNode.bootupPending_of_spine (ownerCall_spec (A := A) (w := w) o).1
    have hsilent := (ownerCall_spec (A := A) (w := w) o).2.mono (fun e he => he.owner_unsent)
    exact .inl ⟨sentFrames_silent hout hsilent, hflag.trans hpending⟩
  | world g => exact .inl ⟨sentFrames_silent (w := w) hout (Grows.refl _ _), hpending⟩

/-- A reset queues the boot-up message. -/
theorem coStep_resetBy {c : CoCall σ} (h : w.node.resetBy c = true) :
    (coStep A w c).node.bootupPending = true := by
  have hspine := coCall_spine A { w with out := [] } c
  change (coStep A w c).node.spine.bootupPending = true
  change SpineStep A _ c (coStep A w c).node.spine at hspine
  generalize (coStep A w c).node.spine = s at hspine
  cases hspine with
  | command f t cmd hcmd =>
    have hresets : cmd.resets = true := by
      simpa [CoNode.resetBy, show w.node.command f = some cmd from hcmd] using h
    simp [hresets]
  | request f t hserving hreq =>
    have hnone : w.node.command f = none :=
      CoNode.command_none (by rw [hreq.1]; exact w.node.sdoRxId_ne.1)
    simp [CoNode.resetBy, hnone] at h
  | quiet f t hcmd hreq => simp [CoNode.resetBy, show w.node.command f = none from hcmd] at h
  | tick => simp [CoNode.resetBy] at h
  | other c hrx htick =>
    cases c with
    | rx f t => exact absurd rfl (hrx f t)
    | tick | emcy | owner | world => simp [CoNode.resetBy] at h

/-- One call: what it sends keeps the order, and as long as nothing was sent since the last
    reset the boot-up message is queued. -/
theorem coStep_firstIs (hok : MapsOk w.node) {waiting : Bool}
    (hwait : waiting = true → w.node.bootupPending = true) {c : CoCall σ}
    (hc : ¬ OutrunsBootup A w c) :
    FirstIs w.node.bootupFrame waiting (busEvents A w c) ∧
      (waits waiting (busEvents A w c) = true → (coStep A w c).node.bootupPending = true) := by
  have hreset : ∀ {b : Bool}, FirstIs w.node.bootupFrame b
      (if w.node.resetBy c then [.reset] else []) := by
    intro b
    split <;> trivial
  rw [busEvents, firstIs_append, waits_append]
  cases waiting with
  | false =>
    obtain ⟨hfirst, hwaits⟩ := firstIs_sent w.node.bootupFrame
      (sentFrames (coStep A w c).out)
    refine ⟨⟨hfirst, hreset⟩, ?_⟩
    rw [hwaits]
    split
    · next h => exact fun _ => coStep_resetBy h
    · exact fun h => absurd h (by simp [waits])
  | true =>
    rcases coCall_bootup (A := A) (w := { w with out := [] }) hok rfl (hwait rfl) hc with
      ⟨hnone, hflag⟩ | ⟨hkeep, fs, hsent⟩
    · rw [show sentFrames (coStep A w c).out = [] from hnone]
      exact ⟨⟨trivial, hreset⟩, fun _ => hflag⟩
    · have hkeep' : w.node.resetBy c = false := hkeep
      rw [show sentFrames (coStep A w c).out = w.node.bootupFrame :: fs from hsent, hkeep']
      obtain ⟨hfirst, hwaits⟩ := firstIs_sent w.node.bootupFrame fs
      refine ⟨⟨⟨fun _ => rfl, hfirst⟩, trivial⟩, fun h => ?_⟩
      exact absurd (hwaits.symm.trans h) (by simp)

theorem busTrace_firstIs {calls : List (CoCall σ)} (hok : MapsOk w.node) {waiting : Bool}
    (hwait : waiting = true → w.node.bootupPending = true)
    (hguard : Machine.Guarded (coStep A) (fun w c => ¬ OutrunsBootup A w c) w calls) :
    FirstIs w.node.bootupFrame waiting (busTrace A w calls) := by
  induction calls generalizing w waiting with
  | nil => trivial
  | cons c calls ih =>
    obtain ⟨hfirst, hwait'⟩ := coStep_firstIs hok hwait hguard.1
    have hboot : (coStep A w c).node.bootupFrame = w.node.bootupFrame :=
      congrArg (fun id : UInt8 => CoFrame.ofBytes (0x700 + id.toUInt16) [0])
        (coCall_nodeId (A := A) (w := { w with out := [] }) c)
    have hok' : MapsOk (coStep A w c).node := coCall_mapsOk (w := { w with out := [] }) hok c
    have hrest := ih hok' hwait' hguard.2
    rw [hboot] at hrest
    exact (firstIs_append _ _).mpr ⟨hfirst, hrest⟩

/-- **Boot-up**: in a run in which no call has something else to send while the boot-up
    message is queued, the first frame that the node gets on the bus after `co_init` and
    after every reset is that message. -/
theorem bootup_comes_first (A : App σ) (cfg : CoConfig) (nowMs : UInt32) (app : σ)
    (calls : List (CoCall σ))
    (hguard : Machine.Guarded (coStep A) (fun w c => ¬ OutrunsBootup A w c)
      (coInit A cfg nowMs app) calls) :
    FirstIs (CoFrame.ofBytes (0x700 + (validNodeId cfg.nodeId).toUInt16) [0]) true
      (busTrace A (coInit A cfg nowMs app) calls) := by
  have hid := coRun_nodeId (A := A) cfg nowMs app []
  have hflag : (coInit A cfg nowMs app).node.bootupPending = true := by
    obtain ⟨c, -, hspine⟩ := @coInit_spine _ A cfg nowMs app
    exact congrArg Spine.bootupPending hspine
  have hboot : (coInit A cfg nowMs app).node.bootupFrame =
      CoFrame.ofBytes (0x700 + (validNodeId cfg.nodeId).toUInt16) [0] :=
    congrArg (fun id : UInt8 => CoFrame.ofBytes (0x700 + id.toUInt16) [0]) hid
  rw [← hboot]
  exact busTrace_firstIs (coRun_mapsOk cfg nowMs app []) (fun _ => hflag) hguard

/-- A tick sends the boot-up message, and the request behind it is answered. -/
theorem bootup_comes_first_tick :
    let A := tableApp fourByteObject
    let calls := [.tick 1, .rx (CoFrame.ofBytes 0x605 [0x40, 0, 0x20, 0, 0, 0, 0, 0]) 2]
    Machine.Guarded (coStep A) (fun w c => ¬ OutrunsBootup A w c)
    (coInit A exampleConfig 0 ()) calls ∧
      FirstIs (CoFrame.ofBytes 0x705 [0]) true
      (busTrace A (coInit A exampleConfig 0 ()) calls) := by
  have hguard : Machine.Guarded (coStep (tableApp fourByteObject))
      (fun w c => ¬ OutrunsBootup (tableApp fourByteObject) w c)
      (coInit (tableApp fourByteObject) exampleConfig 0 ())
      [.tick 1, .rx (CoFrame.ofBytes 0x605 [0x40, 0, 0x20, 0, 0, 0, 0, 0]) 2] := by
    refine ⟨fun h => ?_, fun h => ?_, trivial⟩
    · exact absurd h.2.1 (by decide)
    · exact absurd h.1 (by decide)
  exact ⟨hguard, bootup_comes_first (tableApp fourByteObject) exampleConfig 0 () _ hguard⟩

/-- A request that arrives before the first tick is answered before the boot-up message. -/
theorem bootup_after_reply :
    let A := tableApp fourByteObject
    ¬ FirstIs (CoFrame.ofBytes 0x705 [0]) true (busTrace A (coInit A exampleConfig 0 ())
      [.rx (CoFrame.ofBytes 0x605 [0x40, 0, 0x20, 0, 0, 0, 0, 0]) 1, .tick 2]) := by
  decide

end Fountainer.Canopen
