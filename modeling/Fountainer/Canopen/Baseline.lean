import Fountainer.Canopen.Turns

/-!
# The baseline of event-driven TPDOs

A tick sends an event-driven TPDO when its data differ from `last_data`. Whatever a node goes
through, that baseline is the payload of the last frame that the driver took, or it is not valid;
so a change that has not been sent is still seen, and a tick that may send brings the
baseline up to date.
-/

namespace Fountainer.Canopen

open Traces (Grows)

variable {σ : Type*} {A : App σ} {w : World σ} {i : Fin coTpdoCount}

-- ════════════════════════════════════════════════════════════════════════
-- Payloads
-- ════════════════════════════════════════════════════════════════════════

/-- The data bytes of a frame. -/
def CoFrame.payload (f : CoFrame) : List UInt8 := f.data.toList.take f.dlc

theorem CoFrame.ofBytes_payload {id : UInt16} {bytes : List UInt8} (h : bytes.length ≤ 8) :
    (CoFrame.ofBytes id bytes).payload = bytes := by
  have hdlc : (CoFrame.ofBytes id bytes).dlc.val = bytes.length := min_eq_left h
  rw [CoFrame.payload, hdlc]
  apply List.ext_getElem
  · rw [List.length_take, Vector.length_toList]
    exact min_eq_left h
  · intro k _ hk
    rw [List.getElem_take, Vector.getElem_toList]
    simp only [CoFrame.ofBytes, Vector.getElem_ofFn]
    exact List.getD_eq_getElem _ _ hk

theorem tpdoBuildFrom_length {data bytes : List UInt8} {es : List UInt32} (hlen : data.length ≤ 8)
    (h : (tpdoBuildFrom A w data es).1 = some bytes) : bytes.length ≤ 8 := by
  induction es generalizing w data with
  | nil =>
    obtain rfl : data = bytes := Option.some.inj h
    exact hlen
  | cons e es ih =>
    simp only [tpdoBuildFrom] at h
    split at h
    · exact absurd h (by simp)
    · next hfits =>
      simp only [not_or, ne_eq, not_not, not_lt] at hfits
      refine ih ?_ h
      rw [List.length_append, hfits.2.1]
      exact hfits.2.2

/-- The data fit a frame, which carries them as they are. -/
theorem tpdoBuild_payload {p : TpdoParams} {data : List UInt8}
    (h : (tpdoBuild A w p).1 = some data) : (p.frame data).payload = data :=
  CoFrame.ofBytes_payload (@tpdoBuildFrom_length _ A w [] data p.entries (Nat.zero_le 8) h)

-- ════════════════════════════════════════════════════════════════════════
-- What a part of a call does to the baselines
-- ════════════════════════════════════════════════════════════════════════

/-- The last frame that the driver took. -/
def lastTaken (sends : List (CoFrame × Bool)) : Option CoFrame :=
  ((sends.filter (·.2)).map (·.1)).getLast?

theorem lastTaken_append (sends sends' : List (CoFrame × Bool)) :
    lastTaken (sends ++ sends') = (lastTaken sends').or (lastTaken sends) := by
  simp only [lastTaken, List.filter_append, List.map_append, List.getLast?_append]

/-- The baselines of the node `n'` were baselines of `n`. -/
def KeepsLast (n n' : CoNode) : Prop :=
  ∀ i, (n'.tpdo i).haveLast = true →
    (n.tpdo i).haveLast = true ∧ (n'.tpdo i).lastData = (n.tpdo i).lastData

section Nodes

variable {n n' n'' : CoNode}

theorem KeepsLast.of_eq (h : n'.tpdo = n.tpdo) : KeepsLast n n' :=
  fun i hi => ⟨by rwa [h] at hi, by rw [h]⟩

theorem KeepsLast.trans (h : KeepsLast n n') (h' : KeepsLast n' n'') : KeepsLast n n'' := by
  intro i hi
  obtain ⟨hlast', hdata'⟩ := h' i hi
  obtain ⟨hlast, hdata⟩ := h i hlast'
  exact ⟨hlast, hdata'.trans hdata⟩

theorem KeepsLast.setTpdo {p : CoTpdo} (h : p.haveLast = true →
    (n.tpdo i).haveLast = true ∧ p.lastData = (n.tpdo i).lastData) :
    KeepsLast n (n.setTpdo i p) := by
  intro j hj
  by_cases hji : j = i
  · subst hji
    rw [CoNode.setTpdo_self] at hj ⊢
    exact h hj
  · rw [CoNode.setTpdo_of_ne _ hji] at hj ⊢
    exact ⟨hj, rfl⟩

/-- A node without a baseline. -/
theorem KeepsLast.of_forgotten (h : ∀ i, (n'.tpdo i).haveLast = false) : KeepsLast n n' :=
  fun i hi => absurd ((h i).symm.trans hi) (by simp)

end Nodes

/-- What happens from `w` to `w'` keeps every baseline, or sets it to the payload of the last frame
    that the driver took meanwhile. -/
def Follows (w w' : World σ) : Prop :=
  ∀ i, ∃ new, tpdoSends i w'.out = tpdoSends i w.out ++ new ∧
    ((w'.node.tpdo i).haveLast = true →
      match lastTaken new with
      | some f => (w'.node.tpdo i).lastData = f.payload
      | none => (w.node.tpdo i).haveLast = true ∧
          (w'.node.tpdo i).lastData = (w.node.tpdo i).lastData)

theorem Follows.of_keeps {w w' : World σ} (hsends : ∀ i, tpdoSends i w'.out = tpdoSends i w.out)
    (hkeep : KeepsLast w.node w'.node) : Follows w w' :=
  fun i => ⟨[], by rw [hsends, List.append_nil], hkeep i⟩

theorem Follows.refl (w : World σ) : Follows w w := .of_keeps (fun _ => rfl) (.of_eq rfl)

theorem Follows.trans {w w' w'' : World σ} (h : Follows w w') (h' : Follows w' w'') :
    Follows w w'' := by
  intro i
  obtain ⟨new, hnew, hlast⟩ := h i
  obtain ⟨new', hnew', hlast'⟩ := h' i
  refine ⟨new ++ new', by rw [hnew', hnew, List.append_assoc], fun hi => ?_⟩
  have hlast' := hlast' hi
  rw [lastTaken_append]
  cases htaken' : lastTaken new' with
  | some f =>
    rw [htaken'] at hlast'
    exact hlast'
  | none =>
    rw [htaken'] at hlast'
    obtain ⟨hmid, hdata⟩ := hlast'
    have hlast := hlast hmid
    rw [Option.none_or, hdata]
    exact hlast

theorem Follows.foldl {β : Type*} {f : World σ → β → World σ} (hf : ∀ w b, Follows w (f w b))
    (bs : List β) (w : World σ) : Follows w (bs.foldl f w) := by
  induction bs generalizing w with
  | nil => exact Follows.refl w
  | cons b bs ih => exact (hf w b).trans (ih (f w b))

/-- A frame that the driver refuses leaves the baseline, one that it takes becomes the baseline. -/
theorem tpdoSend_follows (A : App σ) (w : World σ) (i : Fin coTpdoCount) :
    Follows w (tpdoSend A w i) := by
  intro j
  by_cases hj : j = i
  · subst hj
    cases tpdoSend_attempt A w j with
    | unreadable _ hnode hsends =>
      exact ⟨[], by rw [hsends, List.append_nil], KeepsLast.of_eq (by rw [hnode]) j⟩
    | refused data _ hnode hsends => exact ⟨_, hsends, KeepsLast.of_eq (by rw [hnode]) j⟩
    | sent data hdata hnode hsends =>
      refine ⟨_, hsends, fun _ => ?_⟩
      show ((tpdoSend A w j).node.tpdo j).lastData = ((w.node.tpdo j).frame data).payload
      rw [hnode, tpdoBuild_payload hdata, CoNode.setTpdo_self]
      rfl
  · obtain ⟨hothers, hsends⟩ := tpdoSend_turn A w i
    refine ⟨[], by rw [hsends j hj, List.append_nil], fun hlast => ?_⟩
    rw [hothers j hj] at hlast ⊢
    exact ⟨hlast, rfl⟩

theorem tpdoChanged_follows (i : Fin coTpdoCount) : Follows w (tpdoChanged A w i).2 :=
  .of_keeps (fun j => tpdoChanged_sends i j) (.of_eq (by rw [tpdoChanged_node]))

theorem tpdoTickOne_follows (A : App σ) (w : World σ) (i : Fin coTpdoCount) :
    Follows w (tpdoTickOne A w i) := by
  simp only [tpdoTickOne]
  split
  · exact Follows.refl w
  split
  · exact Follows.refl w
  split
  · exact tpdoSend_follows A w i
  split
  · exact (tpdoChanged_follows i).trans (tpdoSend_follows A _ i)
  · exact tpdoChanged_follows i

theorem syncTpdo_follows (A : App σ) (w : World σ) (i : Fin coTpdoCount) :
    Follows w (syncTpdo A w i) := by
  simp only [syncTpdo]
  split
  · exact Follows.refl w
  split
  · split
    · exact (tpdoChanged_follows i).trans (tpdoSend_follows A _ i)
    · exact tpdoChanged_follows i
  · have hcount : Follows w { w with node := (w.node.setTpdo i
        { w.node.tpdo i with syncCount := (w.node.tpdo i).syncCount + 1 }) } :=
      .of_keeps (fun _ => rfl) (.setTpdo fun h => ⟨h, rfl⟩)
    split
    · exact hcount.trans (tpdoSend_follows A _ i)
    · exact hcount

-- ════════════════════════════════════════════════════════════════════════
-- Configurations, commands and resets
-- ════════════════════════════════════════════════════════════════════════

theorem writeTpdoComm_keepsLast (i : Fin coTpdoCount) (sub : UInt8) (buf : List UInt8) :
    KeepsLast w.node (writeTpdoComm w i sub buf).2.node := by
  have hsame : ∀ {p : CoTpdo}, p.haveLast = (w.node.tpdo i).haveLast →
      p.lastData = (w.node.tpdo i).lastData → KeepsLast w.node (w.node.setTpdo i p) :=
    fun hlast hdata => .setTpdo fun h => ⟨hlast ▸ h, hdata⟩
  simp only [writeTpdoComm]
  repeat' split
  all_goals first
    | exact .of_eq rfl
    | exact .setTpdo fun h => absurd h Bool.false_ne_true
    | exact hsame rfl rfl

theorem writeTpdoMap_keepsLast (i : Fin coTpdoCount) (sub : UInt8) (buf : List UInt8) :
    KeepsLast w.node (writeTpdoMap A w i sub buf).2.node := by
  simp only [writeTpdoMap]
  split
  · split
    · exact .of_eq rfl
    split
    · exact .of_eq rfl
    split
    · rw [mapValidate_node]
      exact .of_eq rfl
    · rw [mapValidate_node]
      exact .setTpdo fun h => absurd h Bool.false_ne_true
  · repeat' split
    all_goals first
      | exact .of_eq rfl
      | exact .setTpdo fun h => ⟨h, rfl⟩

/-- The RPDO records are apart from the TPDOs. -/
theorem writeRpdo_tpdo (i : Fin coRpdoCount) (sub : UInt8) (buf : List UInt8) :
    (writeRpdoComm w i sub buf).2.node.tpdo = w.node.tpdo ∧
      (writeRpdoMap A w i sub buf).2.node.tpdo = w.node.tpdo := by
  constructor
  · simp only [writeRpdoComm]
    repeat' split
    all_goals rfl
  · have hvalid : ∀ map forTx, (mapValidate A w map forTx).2.node.tpdo = w.node.tpdo :=
      fun _ _ => congrArg CoNode.tpdo mapValidate_node
    simp only [writeRpdoMap]
    split
    · repeat' split
      all_goals first
        | rfl
        | exact hvalid _ _
    · repeat' split
      all_goals rfl

theorem odInternalWrite_keepsLast (index : UInt16) (sub : UInt8) (buf : List UInt8) :
    KeepsLast w.node (odInternalWrite A w index sub buf).2.node := by
  simp only [odInternalWrite]
  split
  · repeat' split
    all_goals exact .of_eq rfl
  split
  · exact .of_eq rfl
  split
  · exact .of_eq (writeRpdo_tpdo (A := A) _ sub buf).1
  · exact .of_eq (writeRpdo_tpdo _ sub buf).2
  · exact writeTpdoComm_keepsLast _ sub buf
  · exact writeTpdoMap_keepsLast _ sub buf
  · exact .of_eq rfl

theorem odWrite_keepsLast (via : Writer) (index : UInt16) (sub : UInt8) (buf : List UInt8) :
    KeepsLast w.node (odWrite A w via index sub buf).2.node := by
  simp only [odWrite]
  split
  · exact odInternalWrite_keepsLast (w := w.emit (.write via index sub buf)) index sub buf
  · exact .of_eq rfl

/-- A request to the SDO server writes once at most, and sends no TPDO. -/
theorem sdoServe_keepsLast (q : SdoRequest) : KeepsLast w.node (sdoServe A w q).node := by
  have hwrite := fun (w' : World σ) via index sub buf =>
    odWrite_keepsLast (A := A) (w := w') via index sub buf
  rw [sdoServe]
  split
  · simp only [sdoDownloadSegment]
    repeat' split
    all_goals first
      | exact .of_eq rfl
      | exact hwrite _ _ _ _ _
  · simp only [sdoDownloadInitiate]
    repeat' split
    all_goals first
      | exact .of_eq rfl
      | exact hwrite _ _ _ _ _
  · have hread : (odRead A w q.index q.sub coSdoBufSize).2.node.tpdo = w.node.tpdo :=
      congrArg CoNode.tpdo odRead_node
    simp only [sdoUploadInitiate]
    repeat' split
    all_goals exact .of_eq hread
  · simp only [sdoUploadSegment]
    repeat' split
    all_goals exact .of_eq rfl
  · exact .of_eq rfl
  · exact .of_eq rfl

theorem ownerCall_keepsLast (c : OwnerCall) : KeepsLast w.node (ownerCall A w c).node := by
  have howned := ownerCall_owned A w c
  generalize (ownerCall A w c).node = n' at howned
  cases howned with
  | tpdo | request => exact .setTpdo fun h => absurd h Bool.false_ne_true
  | tpdoRefused | rpdoRefused | rpdo | requestRefused | heartbeat | register => exact .of_eq rfl

theorem ownerCalls_keepsLast (cs : List OwnerCall) :
    KeepsLast w.node (cs.foldl (ownerCall A) w).node := by
  induction cs generalizing w with
  | nil => exact .of_eq rfl
  | cons c cs ih => exact (ownerCall_keepsLast c).trans ih

/-- A reset forgets every baseline, and the owner's calls set none. -/
theorem nodeReset_forgotten (resetNode : Bool) (i : Fin coTpdoCount) :
    ((nodeReset A w resetNode).node.tpdo i).haveLast = false := by
  have hcall : KeepsLast (resetComm w.node resetNode)
      (callOnReset A { w with node := resetComm w.node resetNode } resetNode).node := by
    simp only [callOnReset]
    split
    · exact ownerCalls_keepsLast (w := { w with
        node := resetComm w.node resetNode, app := (A.onReset w.app resetNode).2 }) _
    · exact .of_eq rfl
  simp only [nodeReset, nmtSet_node]
  by_contra hlast
  exact absurd (hcall i (Bool.not_eq_false _ ▸ hlast)).1 Bool.false_ne_true

theorem nmtCommand_keepsLast (cmd : NmtCmd) : KeepsLast w.node (nmtCommand A w cmd).node := by
  cases cmd with
  | start => exact .of_forgotten fun _ => rfl
  | stop =>
    refine .of_eq ?_
    simp only [nmtCommand, sdoIdle, nmtSet_node]
    rfl
  | preop => exact .of_eq (by simp only [nmtCommand, nmtSet_node])
  | resetNode => exact .of_forgotten (nodeReset_forgotten true)
  | resetComm => exact .of_forgotten (nodeReset_forgotten false)

-- ════════════════════════════════════════════════════════════════════════
-- Calls and runs
-- ════════════════════════════════════════════════════════════════════════

theorem pdoRx_follows (hok : MapsOk w.node) (f : CoFrame) : Follows w (pdoRx A w f).2 := by
  simp only [pdoRx]
  split
  · split
    · dsimp only
      split
      · exact tpdoSend_follows A w _
      · exact Follows.refl w
    · exact Follows.refl w
  split
  · next i _ =>
    split
    · exact Follows.refl w
    split
    · exact .of_keeps (fun _ => rfl) (.of_eq rfl)
    · obtain ⟨reg, hnode⟩ := @rpdoApply_node _ A w hok i f.data f.dlc
      refine .of_keeps (fun j => ?_) (.of_eq (by rw [hnode]))
      exact (@rpdoApply_spec _ A w i f.data f.dlc).2.tpdoSends_eq (by simp)
  · exact Follows.refl w

theorem coStep_follows (hok : MapsOk w.node) (c : CoCall σ) :
    Follows { w with out := [] } (coStep A w c) := by
  set w₀ : World σ := { w with out := [] }
  have hcase := coCall_happens A w₀ c
  rw [show coStep A w c = coCall A w₀ c from rfl]
  generalize coCall A w₀ c = w' at hcase
  cases hcase with
  | command f t cmd h =>
    exact .of_keeps (fun i => (nmtCommand_growsBy (w := noted w₀ t) cmd).tpdoSends_eq (by simp))
      (nmtCommand_keepsLast (w := noted w₀ t) cmd)
  | request f t hnmt h =>
    exact .of_keeps (fun i => (sdoServe_growsBy (w := noted w₀ t) f.request).tpdoSends_eq (by simp))
      (sdoServe_keepsLast (w := noted w₀ t) f.request)
  | sync f t hid hop hrtr =>
    have hturns : Follows (noted w₀ t)
        ((List.finRange coTpdoCount).foldl (syncTpdo A) (noted w₀ t)) :=
      Follows.foldl (syncTpdo_follows A) _ _
    obtain ⟨htpdo, hsends⟩ :=
      syncRx_tpdo (A := A) (w := noted w₀ t) (hok.congr (fun _ => rfl) rfl) hop
    exact hturns.trans (.of_keeps hsends (.of_eq htpdo))
  | pdo f t hnmt hid hsdo w' hw =>
    have hrx : Follows w₀ (pdoRx A (atTime w₀ t) f).2 :=
      pdoRx_follows (w := atTime w₀ t) (hok.congr (fun _ => rfl) rfl) f
    rcases hw with rfl | rfl
    · exact hrx
    · exact hrx
  | ignored f t hcmd hreq w' hw =>
    rcases hw with rfl | rfl <;> exact .of_keeps (fun _ => rfl) (.of_eq rfl)
  | tick t =>
    obtain ⟨hb, flag, sdo, hnode⟩ := tickHead_node A w t
    have hhead : Follows w₀ (tickHead A w t) :=
      .of_keeps (fun i => tickHead_sends w t i) (.of_eq (by rw [hnode]))
    have htick : coTick A w₀ t = tpdoTick A (tickHead A w t) := rfl
    rw [htick, tpdoTick]
    split
    · exact hhead
    · exact hhead.trans (Follows.foldl (tpdoTickOne_follows A) _ _)
  | emcy code errBits mfr =>
    exact .of_keeps (fun i => coEmcy_growsBy.tpdoSends_eq (by simp)) (.of_eq (by rw [coEmcy_node]))
  | owner c =>
    exact .of_keeps (fun i => (ownerCall_spec c).2.tpdoSends_eq (by simp)) (ownerCall_keepsLast c)
  | world g => exact .of_keeps (fun _ => rfl) (.of_eq rfl)

/-- The attempts to transmit TPDO `i` along a run. -/
def runSends (A : App σ) (i : Fin coTpdoCount) (w : World σ) (calls : List (CoCall σ)) :
    List (CoFrame × Bool) :=
  (Machine.collect (coStep A) (fun _ _ w' => some (tpdoSends i w'.out)) w calls).flatten

theorem runSends_concat (i : Fin coTpdoCount) (w : World σ) (calls : List (CoCall σ))
    (c : CoCall σ) :
    runSends A i w (calls ++ [c]) = runSends A i w calls ++
      tpdoSends i (coStep A (Machine.run (coStep A) w calls) c).out := by
  rw [runSends, Machine.collect_concat, List.flatten_append]
  simp [runSends]

/-- **The baseline is what was sent last**: in every run, a baseline is the payload of the last
    frame of its TPDO that the driver took. -/
theorem coRun_baseline (A : App σ) (cfg : CoConfig) (nowMs : UInt32) (app : σ)
    (calls : List (CoCall σ)) (i : Fin coTpdoCount)
    (h : ((coRun A cfg nowMs app calls).node.tpdo i).haveLast = true) :
    ∃ f, lastTaken (runSends A i (coInit A cfg nowMs app) calls) = some f ∧
      ((coRun A cfg nowMs app calls).node.tpdo i).lastData = f.payload := by
  induction calls using List.reverseRecOn with
  | nil =>
    have hinit := nodeReset_forgotten (A := A) (w := ⟨blankNode cfg nowMs, app, []⟩) true i
    exact absurd (hinit.symm.trans h) Bool.false_ne_true
  | append_singleton calls c ih =>
    rw [coRun_concat] at h ⊢
    obtain ⟨new, hnew, hlast⟩ := coStep_follows (A := A) (coRun_mapsOk cfg nowMs app calls) c i
    obtain rfl : tpdoSends i (coStep A (coRun A cfg nowMs app calls) c).out = new := hnew
    have hlast := hlast h
    rw [runSends_concat, lastTaken_append]
    rw [coRun] at hlast ⊢
    cases htaken : lastTaken (tpdoSends i
        (coStep A (Machine.run (coStep A) (coInit A cfg nowMs app) calls) c).out) with
    | some f =>
      rw [htaken] at hlast
      exact ⟨f, rfl, hlast⟩
    | none =>
      rw [htaken] at hlast
      obtain ⟨f, hf, hdata⟩ := ih hlast.1
      exact ⟨f, hf, hlast.2.trans hdata⟩

end Fountainer.Canopen
