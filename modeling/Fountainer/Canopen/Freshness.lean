import Fountainer.Canopen.Gating

/-!
# Synchronous RPDOs are fresh

A frame buffered for the next SYNC is applied under the mapping it arrived under and
without a break in OPERATIONAL, as long as no call makes it stale: the node clears what is
pending when the COB-ID or the transmission type is written and when the owner configures
the RPDO, but not when the mapping count is written and not when NMT leaves OPERATIONAL.
-/

namespace Fountainer.Canopen

open Traces (Grows)

variable {σ : Type*} {A : App σ} {w : World σ}

-- ════════════════════════════════════════════════════════════════════════
-- Mapping counts
-- ════════════════════════════════════════════════════════════════════════

/-- A mapping count changes only to one that `map_validate` accepts. -/
def CountsChecked (A : App σ) (w w' : World σ) : Prop :=
  ∀ i, (w'.node.rpdo i).mapCount ≠ (w.node.rpdo i).mapCount →
    (mapValidate A w (mapEntries (w.node.rpdo i).map (w'.node.rpdo i).mapCount) false).1 = 0

theorem CountsChecked.of_eq {w' : World σ}
    (h : ∀ i, (w'.node.rpdo i).mapCount = (w.node.rpdo i).mapCount) : CountsChecked A w w' :=
  fun i hi => absurd (h i) hi

theorem CountsChecked.of_rpdo {w' : World σ} (h : w'.node.rpdo = w.node.rpdo) :
    CountsChecked A w w' :=
  .of_eq (fun i => by rw [h])

/-- The check of another world with the same objects. -/
theorem CountsChecked.of_same {w₁ w' : World σ} (h : CountsChecked A w₁ w')
    (hrpdo : w₁.node.rpdo = w.node.rpdo) (hod : odInternalRead w₁.node = odInternalRead w.node)
    (happ : w₁.app = w.app) : CountsChecked A w w' := by
  intro i hi
  rw [← hrpdo] at hi ⊢
  rw [← (mapValidate_congr (.of_eq hod) happ _ _).1]
  exact h i hi

theorem CoNode.setRpdo_count {n : CoNode} {i : Fin coRpdoCount} {p : CoRpdo}
    (h : p.mapCount = (n.rpdo i).mapCount) (j : Fin coRpdoCount) :
    ((n.setRpdo i p).rpdo j).mapCount = (n.rpdo j).mapCount := by
  by_cases hj : j = i
  · subst hj
    rw [CoNode.setRpdo_self, h]
  · rw [CoNode.setRpdo_of_ne _ hj]

theorem writeRpdoComm_counts (i : Fin coRpdoCount) (sub : UInt8) (buf : List UInt8) :
    CountsChecked A w (writeRpdoComm w i sub buf).2 := by
  refine .of_eq (fun j => ?_)
  simp only [writeRpdoComm]
  repeat' split
  all_goals first | rfl | exact CoNode.setRpdo_count (by rfl) j

theorem writeRpdoMap_counts (i : Fin coRpdoCount) (sub : UInt8) (buf : List UInt8) :
    CountsChecked A w (writeRpdoMap A w i sub buf).2 := by
  simp only [writeRpdoMap]
  split
  · split
    · exact .of_rpdo rfl
    split
    · exact .of_rpdo rfl
    split
    · exact .of_rpdo (by rw [mapValidate_node])
    · next hvalid =>
      intro j hj
      simp only [mapValidate_node] at hj ⊢
      by_cases hij : j = i
      · subst hij
        simpa using hvalid
      · simp [hij] at hj
  · split
    · exact .of_rpdo rfl
    split
    · exact .of_rpdo rfl
    split
    · exact .of_rpdo rfl
    · exact .of_eq (CoNode.setRpdo_count rfl)

theorem writeTpdoComm_rpdo (i : Fin coTpdoCount) (sub : UInt8) (buf : List UInt8) :
    (writeTpdoComm w i sub buf).2.node.rpdo = w.node.rpdo := by
  simp only [writeTpdoComm]
  repeat' split
  all_goals rfl

theorem writeTpdoMap_rpdo (i : Fin coTpdoCount) (sub : UInt8) (buf : List UInt8) :
    (writeTpdoMap A w i sub buf).2.node.rpdo = w.node.rpdo := by
  simp only [writeTpdoMap]
  repeat' split
  all_goals simp [CoNode.setTpdo]

theorem odInternalWrite_counts (index : UInt16) (sub : UInt8) (buf : List UInt8) :
    CountsChecked A w (odInternalWrite A w index sub buf).2 := by
  simp only [odInternalWrite]
  split
  · split
    · exact .of_rpdo rfl
    split
    · exact .of_rpdo rfl
    · exact .of_rpdo rfl
  split
  · exact .of_rpdo rfl
  split
  · exact writeRpdoComm_counts _ _ _
  · exact writeRpdoMap_counts _ _ _
  · exact .of_rpdo (writeTpdoComm_rpdo _ _ _)
  · exact .of_rpdo (writeTpdoMap_rpdo _ _ _)
  · exact .of_rpdo rfl

theorem odWrite_counts (via : Writer) (index : UInt16) (sub : UInt8) (buf : List UInt8) :
    CountsChecked A w (odWrite A w via index sub buf).2 := by
  simp only [odWrite]
  split
  · exact (odInternalWrite_counts index sub buf).of_same rfl rfl rfl
  · exact .of_rpdo rfl

theorem sdoDownloadInitiate_counts (cmd : UInt8) (index : UInt16) (sub : UInt8)
    (payload : List UInt8) : CountsChecked A w (sdoDownloadInitiate A w cmd index sub payload) := by
  simp only [sdoDownloadInitiate]
  split
  · have hwrite :
      CountsChecked A w (odWrite A (w.emit (.copy .frame 4 (expeditedLen cmd))) .sdo index
        sub (payload.take (expeditedLen cmd))).2 :=
      (odWrite_counts _ _ _ _).of_same rfl rfl rfl
    split
    · exact hwrite
    · exact hwrite
  · generalize (if cmd &&& 0x01 ≠ 0 then (coGetU32 payload).toNat else 0) = expected
    split
    · exact .of_rpdo rfl
    · exact .of_rpdo rfl

theorem sdoDownloadSegment_counts (cmd : UInt8) (payload : List UInt8) :
    CountsChecked A w (sdoDownloadSegment A w cmd payload) := by
  by_cases h : w.node.sdo.Accepts cmd
  · rw [sdoDownloadSegment_accepted h]
    dsimp only
    split
    · split
      · exact .of_rpdo rfl
      · have hwrite : CountsChecked A w (odWrite A ((segmentStored w cmd payload).emit
            (.copy .sdo 0 (w.node.sdo.store w.node.nowMs cmd payload).pos)) .sdo
            (w.node.sdo.store w.node.nowMs cmd payload).index
            (w.node.sdo.store w.node.nowMs cmd payload).sub
            (Bytes.read (w.node.sdo.store w.node.nowMs cmd payload).buf 0
              (w.node.sdo.store w.node.nowMs cmd payload).pos)).2 :=
          (odWrite_counts _ _ _ _).of_same rfl rfl rfl
        split
        · exact hwrite
        · exact hwrite
    · exact .of_rpdo rfl
  · obtain ⟨index, sub, code, heq⟩ := sdoDownloadSegment_refused (A := A) payload h
    rw [heq]
    exact .of_rpdo rfl

/-- A request changes a mapping count only through a checked write. -/
theorem sdoServe_counts (q : SdoRequest) : CountsChecked A w (sdoServe A w q) := by
  by_cases hcalls : q.ccs = 0 ∨ q.ccs = 1
  · rcases hcalls with h | h
    · simp only [sdoServe, h]
      exact sdoDownloadSegment_counts _ _
    · simp only [sdoServe, h]
      exact sdoDownloadInitiate_counts _ _ _ _
  · -- The other requests make no call of `od_write`.
    obtain ⟨n, hn, hnode⟩ := sdoServe_node (A := A) (w := w) q
    have hnone : q.calls w.node.sdo = [] := by
      rw [SdoRequest.calls]
      split
      · next h0 => exact absurd (.inl h0) hcalls
      · next h1 => exact absurd (.inr h1) hcalls
      · rfl
    rw [hnone] at hn
    refine .of_rpdo ?_
    rw [hnode, show n = w.node from hn]
    rfl

-- ════════════════════════════════════════════════════════════════════════
-- What a call does to a pending frame
-- ════════════════════════════════════════════════════════════════════════

/-- The frame is buffered for the RPDO `i`. -/
structure CoNode.Receives (n : CoNode) (f : CoFrame) (i : Fin coRpdoCount) : Prop where
  operational : n.nmt = .operational
  data : f.rtr = false
  listens : (n.rpdo i).listens f.id = true
  sync : (n.rpdo i).transType ≤ 240

/-- The call leaves OPERATIONAL by a stop or by entering PRE-OPERATIONAL, or writes another
    mapping count, while an RPDO that it concerns has a frame pending. -/
def StalesPending (A : App σ) (w : World σ) : CoCall σ → Prop
  | .rx f t =>
    ((w.node.command f = some .stop ∨ w.node.command f = some .preop) ∧
      ∃ i, (w.node.rpdo i).pending = true) ∨
    (w.node.nmt.Serving ∧ w.node.RequestIn f ∧
      ∃ i v, (w.node.rpdo i).pending = true ∧ v ≠ (w.node.rpdo i).mapCount ∧
        v.toNat ≤ coPdoMapMax ∧
        (mapValidate A (noted w t) (mapEntries (w.node.rpdo i).map v) false).1 = 0 ∧
        ∃ c ∈ f.request.calls w.node.sdo,
          pdoOf 0x1600 coRpdoCount c.index = some i ∧ c.sub = 0 ∧ c.bytes = [v])
  | _ => False

/-- The recorded effects do not matter. -/
theorem StalesPending.of_out {out : List Effect} {c : CoCall σ}
    (h : StalesPending A { w with out := out } c) : StalesPending A w c := by
  cases c with
  | rx f t =>
    refine h.imp id ?_
    rintro ⟨hserving, hreq, i, v, hp, hne, hv, hvalid, hcall⟩
    refine ⟨hserving, hreq, i, v, hp, hne, hv, ?_, hcall⟩
    rw [← hvalid]
    exact (@mapValidate_congr _ A (noted { w with out := out } t) (noted w t)
      (.of_eq rfl) rfl _ _).1
  | tick | emcy | owner | world => exact h

/-- A pending frame belongs to a mapped RPDO of an operational node. -/
def PendingOk (n : CoNode) : Prop :=
  ∀ i, (n.rpdo i).pending = true → n.nmt = .operational ∧ (n.rpdo i).mapCount ≠ 0

/-- A PDO frame is buffered for the RPDO that receives it; the others stay. -/
theorem pdoRx_pending (hmaps : MapsOk w.node) (f : CoFrame) (i : Fin coRpdoCount)
    (hi : ((pdoRx A w f).2.node.rpdo i).pending = true) :
    (pdoRx A w f).2.node.rpdo i = w.node.rpdo i ∨
      (w.node.Receives f i ∧ (pdoRx A w f).2.node.rpdo i =
        { w.node.rpdo i with pending := true, len := f.dlc, data := f.data }) := by
  revert hi
  simp only [pdoRx]
  split
  · split
    · dsimp only
      split
      · next i' _ _ =>
        intro _
        have htx := @tpdoSend_only _ A w i'
        exact .inl (congrFun (CoNode.rpdo_of_withoutTx htx.node) i)
      · exact fun _ => .inl rfl
    · exact fun _ => .inl rfl
  next hdata =>
  split
  · next j hfind =>
    split
    · exact fun _ => .inl rfl
    next hop =>
    split
    · next hsync =>
      intro _
      by_cases hij : i = j
      · subst hij
        have hlistens := List.find?_some hfind
        exact .inr ⟨⟨not_not.mp hop, by simpa using hdata, hlistens, hsync⟩,
          CoNode.setRpdo_self _ _ _⟩
      · exact .inl (CoNode.setRpdo_of_ne _ hij _)
    · intro _
      obtain ⟨reg, hnode⟩ := @rpdoApply_node _ A w hmaps j f.data f.dlc
      rw [hnode]
      exact .inl rfl
  · exact fun _ => .inl rfl

/-- A write by SDO keeps a pending RPDO as it is, unless it changes the mapping count. -/
theorem InternalWrite.pending {n n' : CoNode} {index : UInt16} {sub : UInt8} {buf : List UInt8}
    (h : InternalWrite n index sub buf n') (hok : PendingOk n) (i : Fin coRpdoCount)
    (hi : (n'.rpdo i).pending = true) :
    n'.rpdo i = n.rpdo i ∨ ∃ v, (n.rpdo i).pending = true ∧ v ≠ (n.rpdo i).mapCount ∧
      v.toNat ≤ coPdoMapMax ∧ (n'.rpdo i).mapCount = v ∧
      pdoOf 0x1600 coRpdoCount index = some i ∧ sub = 0 ∧ buf = [v] := by
  cases h with
  | refused | heartbeat | tpdoComm | tpdoCount | tpdoEntry => exact .inl rfl
  | rpdoComm j cobId transType => exact .inl (PendingKept.setRpdo (by simp) i hi)
  | rpdoCount j v hindex hsub hbuf hv hmap =>
    by_cases hij : i = j
    · subst hij
      rw [CoNode.setRpdo_self] at hi ⊢
      by_cases hsame : v = (n.rpdo i).mapCount
      · rw [hsame]
        exact .inl rfl
      · exact .inr ⟨v, hi, hsame, hv, rfl, hindex, hsub, hbuf⟩
    · exact .inl (CoNode.setRpdo_of_ne _ hij _)
  | rpdoEntry j k e hzero =>
    by_cases hij : i = j
    · subst hij
      have hp : (n.rpdo i).pending = true := by simpa [CoNode.setRpdo] using hi
      exact absurd hzero (hok i hp).2
    · exact .inl (CoNode.setRpdo_of_ne _ hij _)

/-- The frame pending for the RPDO `i` after a call was pending before and means the same,
    or the call received it. -/
def PendingFrom (w : World σ) (c : CoCall σ) (w' : World σ) (i : Fin coRpdoCount) : Prop :=
  w'.node.nmt = .operational ∧
    (w'.node.rpdo i = w.node.rpdo i ∨ ∃ f t, c = .rx f t ∧ w.node.Receives f i ∧
      w'.node.rpdo i = { w.node.rpdo i with pending := true, len := f.dlc, data := f.data })

theorem coCall_pending (hok : PendingOk w.node) (hmaps : MapsOk w.node) {c : CoCall σ}
    (hc : ¬ StalesPending A w c) (i : Fin coRpdoCount)
    (hi : ((coCall A w c).node.rpdo i).pending = true) : PendingFrom w c (coCall A w c) i := by
  -- A call that keeps the RPDO and the NMT state.
  have hkeep : ∀ w' : World σ, w'.node.nmt = w.node.nmt → w'.node.rpdo i = w.node.rpdo i →
      (w'.node.rpdo i).pending = true → PendingFrom w c w' i := by
    intro w' hnmt hrpdo hp
    rw [hrpdo] at hp
    exact ⟨hnmt.trans (hok i hp).1, .inl hrpdo⟩
  have hcase := coCall_happens A w c
  generalize coCall A w c = w' at hcase hi ⊢
  cases hcase with
  | command f t cmd hcmd =>
    have hrpdo := nmtCommand_pendingKept (A := A) (w := noted w t) cmd i hi
    have hp : (w.node.rpdo i).pending = true := by rwa [hrpdo] at hi
    have hnmt : (nmtCommand A (noted w t) cmd).node.nmt = cmd.target :=
      congrArg Spine.nmt (nmtCommand_spine (A := A) (w := noted w t) cmd)
    cases cmd with
    | start => exact ⟨hnmt, .inl hrpdo⟩
    | stop => exact absurd (.inl ⟨.inl hcmd, i, hp⟩) hc
    | preop => exact absurd (.inl ⟨.inr hcmd, i, hp⟩) hc
    | resetNode => exact absurd ((nodeReset_notPending true i).symm.trans hi) (by simp)
    | resetComm => exact absurd ((nodeReset_notPending false i).symm.trans hi) (by simp)
  | request f t hserving hreq =>
    have hnmt : (sdoServe A (noted w t) f.request).node.nmt = w.node.nmt :=
      congrArg Spine.nmt (sdoServe_spine (A := A) (w := noted w t) f.request)
    obtain ⟨n, hn, hnode⟩ := sdoServe_node (A := A) (w := noted w t) f.request
    have hrpdo : (sdoServe A (noted w t) f.request).node.rpdo i = n.rpdo i :=
      congrFun ((congrArg CoNode.rpdo hnode).trans rfl) i
    rw [hrpdo] at hi
    suffices hsame : n.rpdo i = w.node.rpdo i from
      hkeep _ hnmt (hrpdo.trans hsame) (by rwa [hrpdo])
    generalize hcs : f.request.calls (noted w t).node.sdo = cs at hn
    match cs, hn with
    | [], hn => exact congrFun (congrArg CoNode.rpdo hn) i
    | [call], hn =>
      have hok' : PendingOk (noted w t).node := hok
      rcases InternalWrite.pending hn hok' i hi with hsame | hcount
      · exact hsame
      obtain ⟨v, hp, hne, hv, hcount, hindex, hsub, hbuf⟩ := hcount
      -- The count has changed, so the check has passed.
      have hvalid := sdoServe_counts (A := A) (w := noted w t) f.request i
        (by rw [hrpdo, hcount]; exact hne)
      rw [hrpdo, hcount] at hvalid
      refine absurd
        (.inr ⟨hserving, hreq, i, v, hp, hne, hv, hvalid, call, ?_, hindex, hsub, hbuf⟩) hc
      rw [show f.request.calls w.node.sdo = [call] from hcs]
      exact List.mem_singleton_self call
  | sync f t hid hop =>
    have hrpdo :=
      syncRx_pendingKept (A := A) (w := noted w t) (hmaps.congr (fun _ => rfl) rfl) hop i hi
    have hnmt : (syncRx A (noted w t)).node.nmt = (noted w t).node.nmt :=
      CoNode.nmt_of_spine syncRx_spec.1
    exact hkeep _ hnmt hrpdo hi
  | pdo f t hserving hid hsdo w' hw =>
    have hsame : w'.node.rpdo = (pdoRx A (atTime w t) f).2.node.rpdo ∧
      w'.node.nmt = w.node.nmt := by
      have hnmt : (pdoRx A (atTime w t) f).2.node.nmt = (atTime w t).node.nmt :=
        CoNode.nmt_of_spine pdoRx_spec.1
      rcases hw with rfl | rfl
      · exact ⟨rfl, hnmt⟩
      · exact ⟨rfl, hnmt⟩
    rw [PendingFrom, hsame.1, hsame.2]
    rw [hsame.1] at hi
    rcases pdoRx_pending (w := atTime w t) (hmaps.congr (fun _ => rfl) rfl) f i hi with hrpdo | hrec
    · rw [hrpdo] at hi
      exact ⟨(hok i hi).1, .inl hrpdo⟩
    · obtain ⟨⟨hop, hdata, hlistens, hsync⟩, hrpdo⟩ := hrec
      exact ⟨hop, .inr ⟨f, t, rfl, ⟨hop, hdata, hlistens, hsync⟩, hrpdo⟩⟩
  | ignored f t hcmd hreq w' hw => rcases hw with rfl | rfl <;> exact hkeep _ rfl rfl hi
  | tick t =>
    obtain ⟨hb, flag, hbeat⟩ := @heartbeatTick_node _ A (atTime w t)
    have hnode : (coTick A w t).node.rpdo = w.node.rpdo := by
      rw [coTick, CoNode.rpdo_of_withoutTx tpdoTick_only.node, sdoTimeout_node, hbeat]
      rfl
    obtain ⟨flag', hspine⟩ := @coTick_spine _ A w t
    exact hkeep _ (congrArg Spine.nmt hspine) (congrFun hnode i) hi
  | emcy code errBits mfr =>
    have hnode := @coEmcy_node _ A w code errBits mfr
    exact hkeep _ (by rw [hnode]) (by rw [hnode]) hi
  | owner o =>
    exact hkeep _ (CoNode.nmt_of_spine (ownerCall_spec o).1) (ownerCall_pendingKept o i hi) hi
  | world g => exact hkeep _ rfl rfl hi

-- ════════════════════════════════════════════════════════════════════════
-- What a call applies
-- ════════════════════════════════════════════════════════════════════════

/-- The effect applies only frames that are pending for their RPDO. -/
def AppliesPending (n : CoNode) (e : Effect) : Prop :=
  ∀ i data len, e.act = .apply i data len →
    (n.rpdo i).pending = true ∧ (n.rpdo i).data = data ∧ (n.rpdo i).len = len

theorem Act.rpdoEvent_apply {a : Act} {i : Fin coRpdoCount} {data : Vector UInt8 8} {len : Fin 9}
    (h : a.rpdoEvent? = some (.apply i data len)) : a = .apply i data len := by
  cases a with
  | apply => simpa [Act.rpdoEvent?] using h
  | send kind f ok => cases kind <;> simp [Act.rpdoEvent?] at h
  | write via index sub bytes => cases via <;> simp [Act.rpdoEvent?] at h
  | read | copy => simp [Act.rpdoEvent?] at h

/-- A part that applies no RPDO. -/
theorem By.not_apply {nmt : NmtState} {S : Set Part} {e : Effect} (h : By nmt S e)
    (hS : ∀ p ∈ S, ∀ i, p ≠ .rpdo i) (i : Fin coRpdoCount) (data : Vector UInt8 8) (len : Fin 9) :
    e.act ≠ .apply i data len := by
  obtain ⟨-, p, hp, hact⟩ := h
  intro happly
  rw [happly] at hact
  cases p with
  | rpdo j => exact hS _ hp j rfl
  | owner | heartbeat | emcy | sdo | tpdo => simp [Part.allows] at hact

/-- Applying a frame records its data once. -/
theorem rpdoApply_applies (hok : MapsOk w.node) (hop : w.node.nmt = .operational)
    (i : Fin coRpdoCount) (data : Vector UInt8 8) (len : Fin 9) :
    Grows (fun e => ∀ j d l, e.act = .apply j d l → i = j ∧ data = d ∧ len = l) w.out
      (rpdoApply A w i data len).out := by
  by_cases hlen : mapLength (w.node.rpdo i).entries ≤ len
  · rw [(rpdoApply_long hok hlen).2]
    refine (Grows.refl _ _).append ?_
    rw [List.forall_mem_cons]
    refine ⟨fun j d l h => by simpa using h, ?_⟩
    generalize (w.node.rpdo i).entries = es, 0 = pos
    induction es generalizing pos with
    | nil => simp [writeEffects]
    | cons e es ih =>
      simp only [writeEffects, List.forall_mem_cons]
      exact ⟨by simp, by simp, ih _⟩
  · obtain ⟨ok, hout⟩ := (@rpdoApply_short _ A _ i data len hop (not_le.mp hlen)).2
    rw [hout]
    refine (Grows.refl _ _).append ?_
    simp

theorem syncRpdo_applies (hok : MapsOk w.node) (hop : w.node.nmt = .operational)
    (i : Fin coRpdoCount) : Grows (AppliesPending w.node) w.out (syncRpdo A w i).out := by
  simp only [syncRpdo]
  split
  · next hp =>
    refine (rpdoApply_applies (A := A) (w := { w with node := _ }) (hok.clearPending i) hop i
      _ _).mono ?_
    rintro e he j data len hact
    obtain ⟨rfl, rfl, rfl⟩ := he j data len hact
    exact ⟨hp, rfl, rfl⟩
  · exact Grows.refl _ _

/-- A SYNC applies what is pending, as it was buffered. -/
theorem syncRx_applies (hok : MapsOk w.node) :
    Grows (AppliesPending w.node) w.out (syncRx A w).out := by
  by_cases hop : w.node.nmt = .operational
  · have htx : TpdoOnly w ((List.finRange coTpdoCount).foldl (syncTpdo A) w) :=
      TpdoOnly.foldl (fun w i => syncTpdo_only i) _
    have htx' : Grows (AppliesPending w.node) w.out
        ((List.finRange coTpdoCount).foldl (syncTpdo A) w).out :=
      htx.grows.mono (fun e he i data len hact => absurd hact (he.not_apply (by simp) i data len))
    refine htx'.trans (syncRpdos_grows hok hop ?_).2
    intro w' i hok' hop' hkept
    refine (syncRpdo_applies hok' hop' i).mono fun e he j data len hact => ?_
    rw [← hkept j (he j data len hact).1]
    exact he j data len hact
  · rw [syncRx, if_pos hop]
    exact Grows.refl _ _

theorem coCall_sync_applies (hok : MapsOk w.node) {f : CoFrame} (hf : f.IsSync) (t : UInt32) :
    Grows (AppliesPending w.node) w.out (coCall A w (.rx f t)).out := by
  have hnote : MapsOk (noted w t).node := hok.congr (fun _ => rfl) rfl
  simp only [coCall, coRx, hf.1, hf.2]
  split
  · next h0 => exact absurd h0 (by decide)
  split
  · exact Grows.refl _ _
  split
  · exact syncRx_applies (w := noted w t) hnote
  · next hsync => simp at hsync

/-- A PDO frame is applied as received. -/
theorem pdoRx_applies (hok : MapsOk w.node) (f : CoFrame) :
    Grows (fun e => ∀ i data len, e.act = .apply i data len → f.data = data ∧ f.dlc = len) w.out
      (pdoRx A w f).2.out := by
  simp only [pdoRx]
  split
  · split
    · dsimp only
      split
      · next i _ _ =>
        exact (tpdoSend_only i).grows.mono
          (fun e he i data len hact => absurd hact (he.not_apply (by simp) i data len))
      · exact Grows.refl _ _
    · exact Grows.refl _ _
  split
  · next i _ =>
    split
    · exact Grows.refl _ _
    next hop =>
    split
    · exact Grows.refl _ _
    · exact (rpdoApply_applies hok (not_not.mp hop) i f.data f.dlc).mono
        (fun e he i data len hact => (he i data len hact).2)
  · exact Grows.refl _ _

/-- Calls other than a SYNC apply at most the frame that they receive. -/
theorem coCall_applies (hok : MapsOk w.node) {c : CoCall σ} (hc : ∀ f t, c = .rx f t → ¬ f.IsSync) :
    Grows (fun e => ∀ i data len, e.act = .apply i data len →
      ∃ f t, c = .rx f t ∧ f.data = data ∧ f.dlc = len) w.out (coCall A w c).out := by
  by_cases hrx : ∃ f t, c = .rx f t
  · obtain ⟨f, t, rfl⟩ := hrx
    have hnone : ∀ {nmt : NmtState} {S : Set Part} {w' : World σ}, GrowsBy nmt S w w' →
        (∀ p ∈ S, ∀ i, p ≠ .rpdo i) → Grows (fun e => ∀ i data len, e.act = .apply i data len →
          ∃ f' t', CoCall.rx (σ := σ) f t = .rx f' t' ∧ f'.data = data ∧ f'.dlc = len)
          w.out w'.out :=
      fun h hS => h.mono (fun e he i data len hact => absurd hact (he.not_apply hS i data len))
    have hcase := coCall_happens A w (.rx f t)
    generalize coCall A w (.rx f t) = w' at hcase
    cases hcase with
    | command _ _ cmd h => exact hnone (nmtCommand_growsBy (w := noted w t) cmd) (by simp)
    | request _ _ hnmt h => exact hnone (sdoServe_growsBy (w := noted w t) f.request) (by simp)
    | sync _ _ hid hop hrtr => exact absurd ⟨hid, hrtr⟩ (hc f t rfl)
    | pdo _ _ hnmt hid hsdo w' hw =>
      have hrx := (pdoRx_applies (A := A) (w := atTime w t) (hok.congr (fun _ => rfl) rfl) f).mono
        (fun e he i data len hact => (⟨f, t, rfl, he i data len hact⟩ :
          ∃ f' t', CoCall.rx (σ := σ) f t = .rx f' t' ∧ f'.data = data ∧ f'.dlc = len))
      rcases hw with rfl | rfl
      · exact hrx
      · exact hrx
    | ignored _ _ hcmd hreq w' hw =>
      rcases hw with rfl | rfl <;> exact Grows.refl _ _
  · refine (coCall_noRpdo (fun f t h => hrx ⟨f, t, h⟩)).mono ?_
    intro e he i data len hact
    obtain ⟨code, hcode⟩ := he (.apply i data len) (by rw [hact]; rfl)
    exact absurd hcode (by simp)

-- ════════════════════════════════════════════════════════════════════════
-- Runs
-- ════════════════════════════════════════════════════════════════════════

/-- The data came with one of the calls, for the RPDO `i`, and since then the node has
    stayed OPERATIONAL and the RPDO as it was, with this data pending. -/
def Fresh (A : App σ) (cfg : CoConfig) (nowMs : UInt32) (app : σ) (calls : List (CoCall σ))
    (i : Fin coRpdoCount) (data : Vector UInt8 8) (len : Fin 9) : Prop :=
  ∃ k f t, calls[k]? = some (.rx f t) ∧ f.data = data ∧ f.dlc = len ∧
    (coRun A cfg nowMs app (calls.take k)).node.Receives f i ∧
    ∀ m, k < m → m ≤ calls.length →
      (coRun A cfg nowMs app (calls.take m)).node.nmt = .operational ∧
      (coRun A cfg nowMs app (calls.take m)).node.rpdo i =
        { (coRun A cfg nowMs app (calls.take k)).node.rpdo i with pending := true, len, data }

section Runs

variable {cfg : CoConfig} {nowMs : UInt32} {app : σ} {calls : List (CoCall σ)}
  {i : Fin coRpdoCount}

/-- What was fresh stays fresh through a call that keeps it. -/
theorem Fresh.concat {data : Vector UInt8 8} {len : Fin 9} {c : CoCall σ}
    (h : Fresh A cfg nowMs app calls i data len)
    (hnmt : (coRun A cfg nowMs app (calls ++ [c])).node.nmt = .operational)
    (hrpdo : (coRun A cfg nowMs app (calls ++ [c])).node.rpdo i =
      (coRun A cfg nowMs app calls).node.rpdo i) :
    Fresh A cfg nowMs app (calls ++ [c]) i data len := by
  obtain ⟨k, f, t, hk, hdata, hlen, hrec, hsince⟩ := h
  have hlt : k < calls.length := (List.getElem?_eq_some_iff.mp hk).1
  refine ⟨k, f, t, ?_, hdata, hlen, ?_, fun m hkm hm => ?_⟩
  · rw [List.getElem?_append_left hlt]
    exact hk
  · rw [List.take_append_of_le_length hlt.le]
    exact hrec
  rw [List.take_append_of_le_length hlt.le]
  rcases Nat.lt_or_ge calls.length m with hlast | hold
  · have hall : (calls ++ [c]).take m = calls ++ [c] := List.take_of_length_le (by simp; omega)
    have hnow := (hsince calls.length hlt le_rfl).2
    rw [List.take_length] at hnow
    rw [hall]
    exact ⟨hnmt, hrpdo.trans hnow⟩
  · rw [List.take_append_of_le_length hold]
    exact hsince m hkm hold

/-- A frame just buffered is fresh. -/
theorem Fresh.received {f : CoFrame} {t : UInt32}
    (hrec : (coRun A cfg nowMs app calls).node.Receives f i)
    (hnmt : (coRun A cfg nowMs app (calls ++ [.rx f t])).node.nmt = .operational)
    (hrpdo : (coRun A cfg nowMs app (calls ++ [.rx f t])).node.rpdo i =
      { (coRun A cfg nowMs app calls).node.rpdo i with
        pending := true, len := f.dlc, data := f.data }) :
    Fresh A cfg nowMs app (calls ++ [.rx f t]) i f.data f.dlc := by
  refine ⟨calls.length, f, t, by simp, rfl, rfl, ?_, fun m hkm hm => ?_⟩
  · rw [List.take_left]
    exact hrec
  · have hall : (calls ++ [CoCall.rx f t]).take m = calls ++ [.rx f t] :=
      List.take_of_length_le (by simp; omega)
    rw [List.take_left, hall]
    exact ⟨hnmt, hrpdo⟩

/-- Along a run without a call that makes a pending frame stale, every pending frame
    is fresh. -/
theorem coRun_fresh
    (hguard : Machine.Guarded (coStep A) (fun w c => ¬ StalesPending A w c)
      (coInit A cfg nowMs app) calls) :
    PendingOk (coRun A cfg nowMs app calls).node ∧
      ∀ i, ((coRun A cfg nowMs app calls).node.rpdo i).pending = true →
        Fresh A cfg nowMs app calls i ((coRun A cfg nowMs app calls).node.rpdo i).data
          ((coRun A cfg nowMs app calls).node.rpdo i).len := by
  induction calls using List.reverseRecOn with
  | nil =>
    have hnone : ∀ i, ((coRun A cfg nowMs app []).node.rpdo i).pending = false :=
      @nodeReset_notPending _ A { node := blankNode cfg nowMs, app, out := [] } true
    exact ⟨fun i hi => absurd ((hnone i).symm.trans hi) (by simp),
      fun i hi => absurd ((hnone i).symm.trans hi) (by simp)⟩
  | append_singleton calls c ih =>
    obtain ⟨hbefore, hc, -⟩ := (Machine.guarded_append _ _ _ _ _).mp hguard
    obtain ⟨hok, hfresh⟩ := ih hbefore
    have hmaps : MapsOk (coRun A cfg nowMs app calls).node := coRun_mapsOk cfg nowMs app calls
    have hstep : ∀ i, ((coRun A cfg nowMs app (calls ++ [c])).node.rpdo i).pending = true →
        PendingFrom { coRun A cfg nowMs app calls with out := [] } c
          (coRun A cfg nowMs app (calls ++ [c])) i := by
      intro i hi
      rw [coRun_concat] at hi ⊢
      exact coCall_pending (w := { coRun A cfg nowMs app calls with out := [] }) hok hmaps
        (fun h => hc h.of_out) i hi
    refine ⟨fun i hi => ?_, fun i hi => ?_⟩
    · obtain ⟨hnmt, hkept | ⟨f, t, -, hrec, hrpdo⟩⟩ := hstep i hi
      · rw [hkept] at hi ⊢
        exact ⟨hnmt, (hok i hi).2⟩
      · have hlistens := hrec.listens
        simp only [RpdoParams.listens, Bool.and_eq_true, bne_iff_ne] at hlistens
        rw [hrpdo]
        exact ⟨hnmt, hlistens.1.2⟩
    · obtain ⟨hnmt, hkept | ⟨f, t, rfl, hrec, hrpdo⟩⟩ := hstep i hi
      · have hkept' : (coRun A cfg nowMs app (calls ++ [c])).node.rpdo i =
            (coRun A cfg nowMs app calls).node.rpdo i := hkept
        rw [hkept'] at hi ⊢
        exact (hfresh i hi).concat hnmt hkept'
      · have hnew := Fresh.received (t := t) ⟨hrec.operational, hrec.data, hrec.listens, hrec.sync⟩
          hnmt hrpdo
        rw [hrpdo]
        exact hnew

end Runs

/-- **Fresh RPDOs**: in a run in which no call makes a pending frame stale, a SYNC applies
    and writes only data that was received for the RPDO as it still is, in the stay in
    OPERATIONAL that still lasts. The other calls apply the frame that they receive. -/
theorem sync_applies_fresh (A : App σ) (cfg : CoConfig) (nowMs : UInt32) (app : σ)
    (calls : List (CoCall σ))
    (hguard : Machine.Guarded (coStep A) (fun w c => ¬ StalesPending A w c)
      (coInit A cfg nowMs app) calls) :
    let w := coRun A cfg nowMs app calls
    (∀ f t, f.IsSync → ∀ e ∈ (coStep A w (.rx f t)).out,
      (∀ i data len, e.act = .apply i data len → Fresh A cfg nowMs app calls i data len) ∧
      ∀ i index sub bytes, e.act = .write (.rpdo i) index sub bytes →
        ∃ data len, Fresh A cfg nowMs app calls i data len ∧
          ⟨index, sub, bytes⟩ ∈ slices (data.toList.take len) (w.node.rpdo i).entries) ∧
      ∀ c, (∀ f t, c = .rx f t → ¬ f.IsSync) → ∀ e ∈ (coStep A w c).out, ∀ i data len,
        e.act = .apply i data len → ∃ f t, c = .rx f t ∧ f.data = data ∧ f.dlc = len := by
  intro w
  obtain ⟨-, hfresh⟩ := coRun_fresh hguard
  have hmaps : MapsOk w.node := coRun_mapsOk cfg nowMs app calls
  refine ⟨fun f t hf => ?_, fun c hc => ?_⟩
  · have happly : ∀ e ∈ (coStep A w (.rx f t)).out, ∀ i data len, e.act = .apply i data len →
        Fresh A cfg nowMs app calls i data len := by
      intro e he i data len hact
      obtain ⟨hp, rfl, rfl⟩ := (coCall_sync_applies (A := A) (w := { w with out := [] })
        hmaps hf t).forall_mem e he i data len hact
      exact hfresh i hp
    refine fun e he => ⟨happly e he, fun i index sub bytes hwrite => ?_⟩
    obtain ⟨new, hnew, hexp, -⟩ := coRx_recorded (A := A) (w := { w with out := [] }) hmaps f t
    have hout : (coStep A w (.rx f t)).out = new := hnew.trans (List.nil_append new)
    rw [hout] at he happly
    -- The write belongs to a frame that this call applied.
    have hmem : RpdoEvent.write i ⟨index, sub, bytes⟩ ∈ (rpdoEvents new).flatMap w.node.caused := by
      rw [← show rpdoEvents new = _ from hexp]
      exact List.mem_filterMap.mpr ⟨e, he, by rw [hwrite]; rfl⟩
    obtain ⟨ev, hev, hcaused⟩ := List.mem_flatMap.mp hmem
    obtain ⟨e', he', hact⟩ := List.mem_filterMap.mp hev
    cases ev with
    | write | emcy => simp [CoNode.caused] at hcaused
    | apply j data len =>
      have happly' : e'.act = .apply j data len := Act.rpdoEvent_apply hact
      have hslice : RpdoEvent.write i ⟨index, sub, bytes⟩ ∈ w.node.applied j data len := by
        simpa [CoNode.caused] using hcaused
      rw [CoNode.applied] at hslice
      split at hslice
      · obtain ⟨call, hcall, heq⟩ := List.mem_map.mp hslice
        obtain ⟨rfl, rfl⟩ : j = i ∧ call = ⟨index, sub, bytes⟩ := by simpa using heq
        exact ⟨data, len, happly e' he' j data len happly', hcall⟩
      · simp at hslice
  · exact (coCall_applies (A := A) (w := { w with out := [] }) hmaps hc).forall_mem

/-- The node is started after its RPDO was mapped, and a frame is buffered. -/
def bufferedCalls : List (CoCall Unit) :=
  [.owner (.rpdoConfigure 0 0 1 [0x20000020]), .rx (CoFrame.ofBytes 0 [0x01, 5]) 1,
    .rx (CoFrame.ofBytes 0x205 [7, 0, 0, 0]) 2]

theorem sync_applies_fresh_buffered :
    Machine.Guarded (coStep (tableApp fourByteObject))
        (fun w c => ¬ StalesPending (tableApp fourByteObject) w c)
        (coInit (tableApp fourByteObject) exampleConfig 0 ()) bufferedCalls ∧
      Fresh (tableApp fourByteObject) exampleConfig 0 () bufferedCalls 0
        #v[7, 0, 0, 0, 0, 0, 0, 0] 4 := by
  have hguard : Machine.Guarded (coStep (tableApp fourByteObject))
      (fun w c => ¬ StalesPending (tableApp fourByteObject) w c)
      (coInit (tableApp fourByteObject) exampleConfig 0 ()) bufferedCalls := by
    refine ⟨id, ?_, ?_, trivial⟩
    · rintro (h | ⟨-, h, -⟩)
      · exact absurd h.1 (by decide)
      · exact absurd h (by decide)
    · rintro (h | ⟨-, h, -⟩)
      · exact absurd h.1 (by decide)
      · exact absurd h (by decide)
  refine ⟨hguard, ?_⟩
  obtain ⟨hsync, -⟩ := sync_applies_fresh (tableApp fourByteObject) exampleConfig 0 () bufferedCalls
    hguard
  exact (hsync (CoFrame.ofBytes 0x080 []) 3 ⟨by decide, by decide⟩
    ⟨.operational, .apply 0 #v[7, 0, 0, 0, 0, 0, 0, 0] 4⟩ (by decide)).1 _ _ _ rfl

/-- A frame buffered before PRE-OPERATIONAL is applied after the next start. -/
theorem sync_applies_before_restart :
    let A := tableApp fourByteObject
    let calls := bufferedCalls ++
      [.rx (CoFrame.ofBytes 0 [0x80, 5]) 3, .rx (CoFrame.ofBytes 0 [0x01, 5]) 4]
    let data := #v[7, 0, 0, 0, 0, 0, 0, 0]
    ⟨.operational, .apply 0 data 4⟩ ∈
        (coStep A (coRun A exampleConfig 0 () calls) (.rx (CoFrame.ofBytes 0x080 []) 5)).out ∧
      ⟨.operational, .write (.rpdo 0) 0x2000 0 [7, 0, 0, 0]⟩ ∈
        (coStep A (coRun A exampleConfig 0 () calls) (.rx (CoFrame.ofBytes 0x080 []) 5)).out ∧
      ¬ Fresh A exampleConfig 0 () calls 0 data 4 := by
  refine ⟨by decide, by decide, ?_⟩
  rintro ⟨k, f, t, hk, hdata, -, -, hsince⟩
  match k with
  | 0 => simp [bufferedCalls] at hk
  | 1 | 3 | 4 =>
    obtain ⟨rfl, rfl⟩ : CoFrame.ofBytes 0 _ = f ∧ _ = t := by simpa [bufferedCalls] using hk
    exact absurd hdata (by decide)
  | 2 => exact absurd (hsince 4 (by decide) (by decide)).1 (by decide)
  | k + 5 => simp [bufferedCalls] at hk

end Fountainer.Canopen
