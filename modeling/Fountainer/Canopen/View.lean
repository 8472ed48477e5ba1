import Fountainer.Canopen.Core

/-!
# Views of the application

The core sees the application through its callbacks only. If another application answers the same
on a view of the state of the first, and has the view of what the first becomes, then a node does
the same over both: the view of every call is the call on the view.
-/

namespace Fountainer.Canopen

variable {σ τ : Type*} {A : App σ} {B : App τ} {π : σ → τ}

/-- The application `B` is `A` as `π` shows it. -/
structure AppView (A : App σ) (B : App τ) (π : σ → τ) : Prop where
  send : ∀ a f, B.send (π a) f = Prod.map id π (A.send a f)
  odRead : ∀ a index sub cap,
    B.odRead (π a) index sub cap = Prod.map id π (A.odRead a index sub cap)
  odWrite : ∀ a index sub buf,
    B.odWrite (π a) index sub buf = Prod.map id π (A.odWrite a index sub buf)
  onReset : ∀ a resetNode, B.onReset (π a) resetNode = Prod.map id π (A.onReset a resetNode)
  onNmtChanged : ∀ a old new, B.onNmtChanged (π a) old new = π (A.onNmtChanged a old new)

/-- The world with the application as `π` shows it. -/
def World.view (π : σ → τ) (w : World σ) : World τ :=
  { node := w.node, app := π w.app, out := w.out }

@[simp] theorem World.view_node (w : World σ) : (w.view π).node = w.node := rfl

@[simp] theorem World.view_app (w : World σ) : (w.view π).app = π w.app := rfl

@[simp] theorem World.view_emit (w : World σ) (a : Act) :
    (w.view π).emit a = (w.emit a).view π := rfl

/-- A change of the node alone. -/
theorem World.view_setNode (w : World σ) (n : CoNode) :
    ({ w.view π with node := n } : World τ) = World.view π { w with node := n } := rfl

/-- A loop whose turns have a view has one. -/
theorem World.view_foldl (w : World σ) {ι : Type*} {f : World σ → ι → World σ}
    {g : World τ → ι → World τ}
    (hf : ∀ w i, g (w.view π) i = (f w i).view π) (is : List ι) :
    is.foldl g (w.view π) = (is.foldl f w).view π := by
  induction is generalizing w with
  | nil => rfl
  | cons i is ih => rw [List.foldl_cons, List.foldl_cons, hf, ih]

namespace AppView

variable (h : AppView A B π) (w : World σ)

include h

theorem tx (kind : TxKind) (id' : UInt16) (data : List UInt8) :
    tx B (w.view π) kind id' data = Prod.map id (World.view π) (tx A w kind id' data) := by
  simp only [Canopen.tx, World.view_emit, World.view_app, h.send]
  rfl

theorem nmtSet (new : NmtState) : nmtSet B (w.view π) new = (nmtSet A w new).view π := by
  simp only [Canopen.nmtSet, World.view_node, World.view_app, h.onNmtChanged]
  split <;> rfl

theorem odRead_view (index : UInt16) (sub : UInt8) (cap : ℕ) :
    Canopen.odRead B (w.view π) index sub cap =
      Prod.map id (World.view π) (Canopen.odRead A w index sub cap) := by
  simp only [Canopen.odRead, World.view_emit, World.view_app, h.odRead]
  split <;> rfl

theorem mapValidateFrom (forTx : Bool) (total : ℕ) (es : List UInt32) :
    mapValidateFrom B forTx (w.view π) total es =
      Prod.map id (World.view π) (mapValidateFrom A forTx w total es) := by
  induction es generalizing w total with
  | nil => rfl
  | cons e es ih =>
    simp only [Canopen.mapValidateFrom, h.odRead_view, Prod.map_fst, Prod.map_snd, id, ih]
    split_ifs <;> rfl

theorem mapValidate (map : List UInt32) (forTx : Bool) :
    mapValidate B (w.view π) map forTx = Prod.map id (World.view π) (mapValidate A w map forTx) :=
  h.mapValidateFrom w forTx 0 map

omit h in
theorem writeRpdoComm (i : Fin coRpdoCount) (sub : UInt8) (buf : List UInt8) :
    writeRpdoComm (w.view π) i sub buf =
      Prod.map id (World.view π) (writeRpdoComm w i sub buf) := by
  simp only [Canopen.writeRpdoComm, World.view_node, apply_ite (Prod.map id (World.view π))]
  rfl

omit h in
theorem writeTpdoComm (i : Fin coTpdoCount) (sub : UInt8) (buf : List UInt8) :
    writeTpdoComm (w.view π) i sub buf =
      Prod.map id (World.view π) (writeTpdoComm w i sub buf) := by
  simp only [Canopen.writeTpdoComm, World.view_node, apply_ite (Prod.map id (World.view π))]
  rfl

theorem writeRpdoMap (i : Fin coRpdoCount) (sub : UInt8) (buf : List UInt8) :
    writeRpdoMap B (w.view π) i sub buf =
      Prod.map id (World.view π) (writeRpdoMap A w i sub buf) := by
  simp only [Canopen.writeRpdoMap, World.view_node, h.mapValidate, Prod.map_fst, Prod.map_snd, id]
  split
  · split_ifs <;> rfl
  · split
    · rfl
    · simp only [apply_ite (Prod.map id (World.view π))]
      rfl

theorem writeTpdoMap (i : Fin coTpdoCount) (sub : UInt8) (buf : List UInt8) :
    writeTpdoMap B (w.view π) i sub buf =
      Prod.map id (World.view π) (writeTpdoMap A w i sub buf) := by
  simp only [Canopen.writeTpdoMap, World.view_node, h.mapValidate, Prod.map_fst, Prod.map_snd, id]
  split
  · split_ifs <;> rfl
  · split
    · rfl
    · simp only [apply_ite (Prod.map id (World.view π))]
      rfl

theorem odInternalWrite (index : UInt16) (sub : UInt8) (buf : List UInt8) :
    odInternalWrite B (w.view π) index sub buf =
      Prod.map id (World.view π) (odInternalWrite A w index sub buf) := by
  simp only [Canopen.odInternalWrite, World.view_node, writeRpdoComm, writeTpdoComm,
    h.writeRpdoMap, h.writeTpdoMap]
  split_ifs
  · rfl
  · rfl
  · rfl
  · rfl
  · split <;> rfl

theorem odWrite_view (via : Writer) (index : UInt16) (sub : UInt8) (buf : List UInt8) :
    Canopen.odWrite B (w.view π) via index sub buf =
      Prod.map id (World.view π) (Canopen.odWrite A w via index sub buf) := by
  simp only [Canopen.odWrite, World.view_emit, World.view_app, h.odWrite, h.odInternalWrite]
  split <;> rfl

theorem tpdoBuildFrom (data : List UInt8) (es : List UInt32) :
    tpdoBuildFrom B (w.view π) data es =
      Prod.map id (World.view π) (tpdoBuildFrom A w data es) := by
  induction es generalizing w data with
  | nil => rfl
  | cons e es ih =>
    simp only [Canopen.tpdoBuildFrom, h.odRead_view, Prod.map_fst, Prod.map_snd, id,
      World.view_emit, ih]
    split_ifs <;> rfl

theorem tpdoBuild (p : TpdoParams) :
    tpdoBuild B (w.view π) p = Prod.map id (World.view π) (tpdoBuild A w p) :=
  h.tpdoBuildFrom w [] p.entries

theorem tpdoSend (i : Fin coTpdoCount) : tpdoSend B (w.view π) i = (tpdoSend A w i).view π := by
  simp only [Canopen.tpdoSend, World.view_node, h.tpdoBuild, Prod.map_fst, Prod.map_snd, id, h.tx]
  split
  · rfl
  · split_ifs <;> rfl

theorem tpdoChanged (i : Fin coTpdoCount) :
    tpdoChanged B (w.view π) i = Prod.map id (World.view π) (tpdoChanged A w i) := by
  simp only [Canopen.tpdoChanged, World.view_node, h.tpdoBuild, Prod.map_fst, Prod.map_snd, id]
  split <;> rfl

theorem tpdoTickOne (i : Fin coTpdoCount) :
    tpdoTickOne B (w.view π) i = (tpdoTickOne A w i).view π := by
  simp only [Canopen.tpdoTickOne, World.view_node, h.tpdoChanged, h.tpdoSend, Prod.map_fst,
    Prod.map_snd, id]
  split_ifs <;> rfl

theorem tpdoTick : tpdoTick B (w.view π) = (tpdoTick A w).view π := by
  simp only [Canopen.tpdoTick, World.view_node, World.view_foldl w h.tpdoTickOne]
  split <;> rfl

theorem coEmcy (code : UInt16) (errBits : UInt8) (mfr : Option (Vector UInt8 5)) :
    coEmcy B (w.view π) code errBits mfr = (coEmcy A w code errBits mfr).view π := by
  simp only [Canopen.coEmcy, World.view_node, World.view_setNode, h.tx, Prod.map_snd]
  split <;> rfl

theorem rpdoWriteFrom (i : Fin coRpdoCount) (data : List UInt8) (pos : ℕ)
    (ks : List (Fin coPdoMapMax)) :
    rpdoWriteFrom B i data (w.view π) pos ks = (rpdoWriteFrom A i data w pos ks).view π := by
  induction ks generalizing w pos with
  | nil => rfl
  | cons k ks ih =>
    simp only [Canopen.rpdoWriteFrom, World.view_node, World.view_emit,
      h.odWrite_view, Prod.map_snd,
      ih]
    split <;> rfl

theorem rpdoApply (i : Fin coRpdoCount) (data : Vector UInt8 8) (len : Fin 9) :
    rpdoApply B (w.view π) i data len = (rpdoApply A w i data len).view π := by
  simp only [Canopen.rpdoApply, World.view_emit, World.view_node, h.coEmcy, h.rpdoWriteFrom]
  split <;> rfl

theorem syncTpdo (i : Fin coTpdoCount) : syncTpdo B (w.view π) i = (syncTpdo A w i).view π := by
  simp only [Canopen.syncTpdo, World.view_node, World.view_setNode, h.tpdoChanged, h.tpdoSend,
    Prod.map_fst, Prod.map_snd, id]
  split_ifs <;> rfl

theorem syncRpdo (i : Fin coRpdoCount) : syncRpdo B (w.view π) i = (syncRpdo A w i).view π := by
  simp only [Canopen.syncRpdo, World.view_node, World.view_setNode, h.rpdoApply]
  split <;> rfl

theorem syncRx : syncRx B (w.view π) = (syncRx A w).view π := by
  simp only [Canopen.syncRx, World.view_node, World.view_foldl _ h.syncTpdo,
    World.view_foldl _ h.syncRpdo]
  split <;> rfl

theorem pdoRx (f : CoFrame) :
    pdoRx B (w.view π) f = Prod.map id (World.view π) (pdoRx A w f) := by
  simp only [Canopen.pdoRx, World.view_node, h.tpdoSend, h.rpdoApply]
  split
  · split
    · split_ifs <;> rfl
    · rfl
  · split
    · split_ifs <;> rfl
    · rfl

theorem sdoReply (d : List UInt8) : sdoReply B (w.view π) d = (sdoReply A w d).view π := by
  simp only [Canopen.sdoReply, World.view_node, h.tx, Prod.map_snd]

omit h in
theorem sdoIdle : sdoIdle (w.view π) = (sdoIdle w).view π := rfl

theorem sdoAbort (index : UInt16) (sub : UInt8) (code : UInt32) :
    sdoAbort B (w.view π) index sub code = (sdoAbort A w index sub code).view π := by
  simp only [Canopen.sdoAbort, h.sdoReply, sdoIdle]

theorem sdoUploadInitiate (index : UInt16) (sub : UInt8) :
    sdoUploadInitiate B (w.view π) index sub = (sdoUploadInitiate A w index sub).view π := by
  simp only [Canopen.sdoUploadInitiate, h.odRead_view, Prod.map_fst, Prod.map_snd, id,
    World.view_node, World.view_setNode, World.view_emit, h.sdoAbort, sdoIdle, h.sdoReply,
    ← apply_ite (World.view π)]

theorem sdoUploadSegment (cmd : UInt8) :
    sdoUploadSegment B (w.view π) cmd = (sdoUploadSegment A w cmd).view π := by
  simp only [Canopen.sdoUploadSegment, World.view_node, World.view_emit, World.view_setNode,
    h.sdoAbort, h.sdoReply, ← apply_ite (World.view π)]
  rfl

theorem sdoDownloadInitiate (cmd : UInt8) (index : UInt16) (sub : UInt8) (payload : List UInt8) :
    sdoDownloadInitiate B (w.view π) cmd index sub payload =
      (sdoDownloadInitiate A w cmd index sub payload).view π := by
  simp only [Canopen.sdoDownloadInitiate, World.view_node, World.view_emit, World.view_setNode,
    h.odWrite_view, Prod.map_fst, Prod.map_snd, id, h.sdoAbort, h.sdoReply, sdoIdle,
    ← apply_ite (World.view π)]

theorem sdoDownloadSegment (cmd : UInt8) (payload : List UInt8) :
    sdoDownloadSegment B (w.view π) cmd payload = (sdoDownloadSegment A w cmd payload).view π := by
  simp only [Canopen.sdoDownloadSegment, World.view_node, World.view_emit, World.view_setNode,
    h.odWrite_view, Prod.map_fst, Prod.map_snd, id, h.sdoAbort, h.sdoReply, sdoIdle,
    ← apply_ite (World.view π)]

theorem sdoServe (q : SdoRequest) : sdoServe B (w.view π) q = (sdoServe A w q).view π := by
  simp only [Canopen.sdoServe, h.sdoDownloadSegment, h.sdoDownloadInitiate, h.sdoUploadInitiate,
    h.sdoUploadSegment, h.sdoAbort, sdoIdle]
  split <;> rfl

theorem sdoRx (f : CoFrame) : sdoRx B (w.view π) f = (sdoRx A w f).view π := by
  simp only [Canopen.sdoRx, h.sdoServe]
  split <;> rfl

theorem coTpdoConfigure (n : UInt8) (cobId : UInt16) (transType : UInt8)
    (inhibitMs eventMs : UInt16)
    (map : List UInt32) :
    coTpdoConfigure B (w.view π) n cobId transType inhibitMs eventMs map =
      Prod.map id (World.view π) (coTpdoConfigure A w n cobId transType inhibitMs eventMs map) := by
  simp only [Canopen.coTpdoConfigure, h.mapValidate, Prod.map_fst, Prod.map_snd, id]
  split
  · split <;> rfl
  · rfl

theorem coRpdoConfigure (n : UInt8) (cobId : UInt16) (transType : UInt8) (map : List UInt32) :
    coRpdoConfigure B (w.view π) n cobId transType map =
      Prod.map id (World.view π) (coRpdoConfigure A w n cobId transType map) := by
  simp only [Canopen.coRpdoConfigure, h.mapValidate, Prod.map_fst, Prod.map_snd, id]
  split
  · split <;> rfl
  · rfl

omit h in
theorem coTpdoRequest (n : UInt8) : coTpdoRequest (w.view π) n = (coTpdoRequest w n).view π := by
  simp only [Canopen.coTpdoRequest]
  split <;> rfl

theorem ownerCall (c : OwnerCall) : ownerCall B (w.view π) c = (ownerCall A w c).view π := by
  cases c with
  | tpdoConfigure n cobId transType inhibitMs eventMs map =>
    simp only [Canopen.ownerCall, h.coTpdoConfigure, Prod.map_snd]
  | rpdoConfigure n cobId transType map =>
    simp only [Canopen.ownerCall, h.coRpdoConfigure, Prod.map_snd]
  | tpdoRequest n => exact coTpdoRequest w n
  | heartbeatSet ms => rfl
  | errorRegisterSet bits => rfl

theorem callOnReset (resetNode : Bool) :
    callOnReset B (w.view π) resetNode = (callOnReset A w resetNode).view π := by
  simp only [Canopen.callOnReset, World.view_node, World.view_app, h.onReset, Prod.map_fst,
    Prod.map_snd, id]
  split
  · exact World.view_foldl { w with app := (A.onReset w.app resetNode).2 } h.ownerCall _
  · rfl

theorem nodeReset (resetNode : Bool) :
    nodeReset B (w.view π) resetNode = (nodeReset A w resetNode).view π := by
  simp only [Canopen.nodeReset, World.view_node, World.view_setNode, h.callOnReset, h.nmtSet]

theorem nmtCommand (cmd : NmtCmd) : nmtCommand B (w.view π) cmd = (nmtCommand A w cmd).view π := by
  cases cmd <;> simp only [Canopen.nmtCommand, h.nmtSet, h.nodeReset, World.view_node,
    World.view_setNode, sdoIdle]

theorem nmtRx (f : CoFrame) : nmtRx B (w.view π) f = (nmtRx A w f).view π := by
  simp only [Canopen.nmtRx, World.view_node, h.nmtCommand]
  split
  · split <;> rfl
  · rfl

theorem heartbeatTick : heartbeatTick B (w.view π) = (heartbeatTick A w).view π := by
  simp only [Canopen.heartbeatTick, World.view_node, h.tx, Prod.map_fst, Prod.map_snd, id]
  split_ifs <;> rfl

theorem sdoTimeout : sdoTimeout B (w.view π) = (sdoTimeout A w).view π := by
  simp only [Canopen.sdoTimeout, World.view_node, h.sdoAbort]
  split <;> rfl

omit h in
theorem masterNote : masterNote (w.view π) = (masterNote w).view π := rfl

omit h in
theorem atTime (nowMs : UInt32) : atTime (w.view π) nowMs = (atTime w nowMs).view π := rfl

theorem coRx (f : CoFrame) (nowMs : UInt32) :
    coRx B (w.view π) f nowMs = (coRx A w f nowMs).view π := by
  by_cases hnmt : f.id = 0
  · by_cases ha : (Canopen.atTime w nowMs).node.addressed f = true
    · simp only [Canopen.coRx, hnmt, if_true, atTime, masterNote, World.view_node, ha, h.nmtRx]
    · simp only [Canopen.coRx, hnmt, if_true, atTime, World.view_node, ha,
        Bool.false_eq_true, if_false, h.nmtRx]
  · simp only [Canopen.coRx, hnmt, if_false, atTime, World.view_node, masterNote, h.syncRx, h.sdoRx,
      h.pdoRx, Prod.map_fst, Prod.map_snd, id, ← apply_ite (World.view π)]

theorem coTick (nowMs : UInt32) : coTick B (w.view π) nowMs = (coTick A w nowMs).view π := by
  simp only [Canopen.coTick, atTime, h.heartbeatTick, h.sdoTimeout, h.tpdoTick]

theorem coInit (cfg : CoConfig) (nowMs : UInt32) (a : σ) :
    coInit B cfg nowMs (π a) = (coInit A cfg nowMs a).view π := by
  have hr := h.nodeReset { node := blankNode cfg nowMs, app := a, out := [] } true
  simp only [Canopen.coInit]
  rw [show ({ node := blankNode cfg nowMs, app := π a, out := [] } : World τ) =
    World.view π { node := blankNode cfg nowMs, app := a, out := [] } from rfl, hr]
  rfl

end AppView

/-! ### Two runs that look the same -/

/-- The same call in two runs: what happens between two calls may differ where the view does not
    show it. -/
inductive SameCall (π : σ → τ) : CoCall σ → CoCall σ → Prop where
  | rx (f : CoFrame) (nowMs : UInt32) : SameCall π (.rx f nowMs) (.rx f nowMs)
  | tick (nowMs : UInt32) : SameCall π (.tick nowMs) (.tick nowMs)
  | emcy (code : UInt16) (errBits : UInt8) (mfr : Option (Vector UInt8 5)) :
    SameCall π (.emcy code errBits mfr) (.emcy code errBits mfr)
  | owner (c : OwnerCall) : SameCall π (.owner c) (.owner c)
  | world (g g' : σ → σ) (hg : ∀ a b, π a = π b → π (g a) = π (g' b)) :
    SameCall π (.world g) (.world g')

/-- The same call from worlds with one view leads to worlds with one view. -/
theorem AppView.coStep (h : AppView A B π) {w w' : World σ} (hw : w.view π = w'.view π)
    {c c' : CoCall σ} (hc : SameCall π c c') :
    (coStep A w c).view π = (coStep A w' c').view π := by
  have hclear : World.view π { w with out := [] } = World.view π { w' with out := [] } := by
    have hnode : w.node = w'.node := congrArg (fun v : World τ => v.node) hw
    have happ : π w.app = π w'.app := congrArg (fun v : World τ => v.app) hw
    simp only [World.view, hnode, happ]
  cases hc with
  | rx f nowMs => simp only [Canopen.coStep, coCall, ← h.coRx, hclear]
  | tick nowMs => simp only [Canopen.coStep, coCall, ← h.coTick, hclear]
  | emcy code errBits mfr => simp only [Canopen.coStep, coCall, ← h.coEmcy, hclear]
  | owner c => simp only [Canopen.coStep, coCall, ← h.ownerCall, hclear]
  | world g g' hg =>
    have hnode : w.node = w'.node := congrArg (fun v : World τ => v.node) hw
    have happ : π w.app = π w'.app := congrArg (fun v : World τ => v.app) hw
    simp only [Canopen.coStep, coCall, World.view, hnode, hg _ _ happ]

end Fountainer.Canopen
