import Fountainer.Canopen.Baseline
import Fountainer.Canopen.EventTpdo

/-!
# No lost change

An event-driven TPDO whose objects can be read and stand still during a tick is tried at that tick
exactly when it is due: it has no baseline, its data differ from the baseline, or its event timer
has run out. A frame that the driver refuses leaves the record as it was, so that the TPDO stays
due.
-/

namespace Fountainer.Canopen

variable {σ : Type*} {A : App σ} {w : World σ} {i : Fin coTpdoCount}

-- ════════════════════════════════════════════════════════════════════════
-- Objects that stand still
-- ════════════════════════════════════════════════════════════════════════

/-- The states that the application and the driver get to by frames sent and objects read. -/
inductive Touched (A : App σ) (s : σ) : σ → Prop where
  | refl : Touched A s s
  | send {s' : σ} (h : Touched A s s') (f : CoFrame) : Touched A s (A.send s' f).2
  | read {s' : σ} (h : Touched A s s') (index : UInt16) (sub : UInt8) (cap : ℕ) :
      Touched A s (A.odRead s' index sub cap).2

theorem Touched.trans {s s' s'' : σ} (h : Touched A s s') (h' : Touched A s' s'') :
    Touched A s s'' := by
  induction h' with
  | refl => exact h
  | send _ f ih => exact ih.send f
  | read _ index sub cap ih => exact ih.read index sub cap

theorem odRead_touched (index : UInt16) (sub : UInt8) (cap : ℕ) :
    Touched A w.app (odRead A w index sub cap).2.app := by
  simp only [odRead]
  split
  · exact .refl
  · exact .read .refl _ _ _

theorem tpdoBuildFrom_touched (data : List UInt8) (es : List UInt32) :
    Touched A w.app (tpdoBuildFrom A w data es).2.app := by
  induction es generalizing w data with
  | nil => exact .refl
  | cons e es ih =>
    simp only [tpdoBuildFrom]
    split
    · exact odRead_touched _ _ _
    · exact (odRead_touched _ _ _).trans (ih (w := World.emit _ _) _)

theorem tpdoSend_touched (i : Fin coTpdoCount) : Touched A w.app (tpdoSend A w i).app := by
  simp only [tpdoSend]
  split
  · exact tpdoBuildFrom_touched _ _
  · split <;> exact (tpdoBuildFrom_touched _ _).send _

theorem tpdoChanged_touched (i : Fin coTpdoCount) :
    Touched A w.app (tpdoChanged A w i).2.app := by
  simp only [tpdoChanged]
  split <;> exact tpdoBuildFrom_touched _ _

theorem tpdoTickOne_touched (i : Fin coTpdoCount) : Touched A w.app (tpdoTickOne A w i).app := by
  simp only [tpdoTickOne]
  split
  · exact .refl
  split
  · exact .refl
  split
  · exact tpdoSend_touched i
  split
  · exact (tpdoChanged_touched i).trans (tpdoSend_touched i)
  · exact tpdoChanged_touched i

theorem heartbeatTick_touched : Touched A w.app (heartbeatTick A w).app := by
  simp only [heartbeatTick]
  split
  · split <;> exact .send .refl _
  split
  · exact .refl
  split
  · exact .send .refl _
  · exact .refl

theorem tickTurn_touched (t : UInt32) (i : Fin coTpdoCount) :
    Touched A w.app (tickTurn A w t i).app := by
  have htimeout : ∀ w' : World σ, Touched A w'.app (sdoTimeout A w').app := by
    intro w'
    simp only [sdoTimeout]
    split
    · exact .send .refl _
    · exact .refl
  have hhead : Touched A w.app (tickHead A w t).app :=
    (heartbeatTick_touched (w := atTime { w with out := [] } t)).trans (htimeout _)
  refine hhead.trans ?_
  rw [tickTurn, turnOf]
  generalize (List.finRange coTpdoCount).take i = is
  generalize tickHead A w t = w₁
  induction is generalizing w₁ with
  | nil => exact .refl
  | cons j is ih => exact (tpdoTickOne_touched j).trans (ih _)

/-- The answer to a read of the object that an entry maps. -/
def objectRead (A : App σ) (n : CoNode) (s : σ) (e : UInt32) : OdRead :=
  if isInternalIndex (entryIndex e) then odInternalRead n (entryIndex e) (entrySub e) coSdoBufSize
  else (A.odRead s (entryIndex e) (entrySub e) coSdoBufSize).1

/-- The mapped objects can be read at their mapped lengths, and have these values whatever frames
    are sent and objects are read meanwhile. -/
structure Steady (A : App σ) (w : World σ) (p : TpdoParams) (value : UInt32 → List UInt8) :
    Prop where
  reads : ∀ e ∈ p.entries, ∀ s, Touched A w.app s → objectRead A w.node s e = ⟨0, value e⟩
  length : ∀ e ∈ p.entries, (value e).length = entryLen e

/-- The mapped data, one object after the other. -/
def TpdoParams.mapped (p : TpdoParams) (value : UInt32 → List UInt8) : List UInt8 :=
  p.entries.flatMap value

theorem tpdoBuildFrom_steady {w' : World σ} {value : UInt32 → List UInt8} {es : List UInt32}
    (hreads : ∀ e ∈ es, ∀ s, Touched A w.app s → objectRead A w.node s e = ⟨0, value e⟩)
    (hlength : ∀ e ∈ es, (value e).length = entryLen e)
    (hod : odInternalRead w'.node = odInternalRead w.node) (happ : Touched A w.app w'.app)
    {data : List UInt8} (hroom : data.length + mapLength es ≤ 8) :
    (tpdoBuildFrom A w' data es).1 = some (data ++ es.flatMap value) := by
  induction es generalizing w' data with
  | nil => simp [tpdoBuildFrom]
  | cons e es ih =>
    obtain ⟨hread, hreads⟩ := List.forall_mem_cons.mp hreads
    obtain ⟨hlen, hlength⟩ := List.forall_mem_cons.mp hlength
    have hanswer : (odRead A w' (entryIndex e) (entrySub e) coSdoBufSize).1 = ⟨0, value e⟩ := by
      rw [← hread w'.app happ]
      simp only [odRead, objectRead, World.emit_node, World.emit_app, hod]
      split <;> rfl
    have hcons : data.length + (entryLen e + mapLength es) ≤ 8 := by simpa [mapLength] using hroom
    have hfits :
      ¬ ((⟨0, value e⟩ : OdRead).code ≠ 0 ∨ (⟨0, value e⟩ : OdRead).bytes.length ≠ entryLen e ∨
        8 < data.length + entryLen e) := by
      simp only [hlen, ne_eq, not_true_eq_false, false_or, not_lt]
      omega
    simp only [tpdoBuildFrom, hanswer, hfits, if_false]
    refine (ih hreads hlength ?_ ?_ ?_).trans ?_
    · rw [World.emit_node, odRead_node]
      exact hod
    · exact happ.trans (odRead_touched _ _ _)
    · rw [List.length_append, hlen]
      omega
    · rw [List.append_assoc, List.flatMap_cons]

theorem mapLength_mul_le (es : List UInt32) : mapLength es * 8 ≤ (es.map entryBits).sum := by
  induction es with
  | nil => exact Nat.le_refl 0
  | cons e es ih =>
    have hentry : entryLen e * 8 ≤ entryBits e := Nat.div_mul_le_self _ _
    have hcons : mapLength (e :: es) = entryLen e + mapLength es := by simp [mapLength]
    rw [hcons, List.map_cons, List.sum_cons]
    omega

/-- Objects that stand still give the same data wherever the tick reads them. -/
theorem tpdoBuild_steady {p : TpdoParams} {value : UInt32 → List UInt8} (h : Steady A w p value)
    (hmap : MapOk true p.mapCount p.map) {w' : World σ}
    (hod : odInternalRead w'.node = odInternalRead w.node) (happ : Touched A w.app w'.app) :
    (tpdoBuild A w' p).1 = some (p.mapped value) := by
  have hsum := hmap.fits.sum
  have hlen := mapLength_mul_le (mapEntries p.map p.mapCount)
  have hroom : ([] : List UInt8).length + mapLength p.entries ≤ 8 := by
    rw [List.length_nil, TpdoParams.entries]
    omega
  exact tpdoBuildFrom_steady h.reads h.length hod happ hroom

-- ════════════════════════════════════════════════════════════════════════
-- A tick over objects that stand still
-- ════════════════════════════════════════════════════════════════════════

/-- The TPDO has something to send: it has no baseline, its data are others, or its event timer has
    run out. -/
def CoTpdo.Due (p : CoTpdo) (nowMs : UInt32) (data : List UInt8) : Prop :=
  p.haveLast = false ∨ p.lastData ≠ data ∨
    p.eventMs ≠ 0 ∧ p.eventMs.toUInt32 ≤ nowMs - p.lastTxMs

/-- What becomes of a TPDO that a tick may send and whose data are `data`: the record before, the
    record after, and the attempts to transmit. -/
inductive SteadyTurn (nowMs : UInt32) (data : List UInt8) (p p' : CoTpdo)
    (sends : List (CoFrame × Bool)) : Prop where
  | rests (hdue : ¬ p.Due nowMs data) (hrec : p' = p) (hsends : sends = [])
  | refused (hdue : p.Due nowMs data) (hrec : p' = p) (hsends : sends = [(p.frame data, false)])
  | sent (hdue : p.Due nowMs data) (hrec : p' = p.taken nowMs data)
      (hsends : sends = [(p.frame data, true)])

theorem Attempt.steady {v v' w' : World σ} {data : List UInt8} (h : Attempt A i v' w')
    (hnode : v'.node = v.node) (hunsent : tpdoSends i v'.out = [])
    (hdata : (tpdoBuild A v' (v.node.tpdo i).toTpdoParams).1 = some data)
    (hdue : (v.node.tpdo i).Due v.node.nowMs data) :
    SteadyTurn v.node.nowMs data (v.node.tpdo i) (w'.node.tpdo i) (tpdoSends i w'.out) := by
  rw [← hnode] at hdata hdue ⊢
  cases h with
  | unreadable hnone => exact absurd (hnone.symm.trans hdata) (by simp)
  | refused data' hdata' hrec hsends =>
    obtain rfl : data' = data := Option.some.inj (hdata'.symm.trans hdata)
    rw [hunsent] at hsends
    exact .refused hdue (by rw [hrec]) hsends
  | sent data' hdata' hrec hsends =>
    obtain rfl : data' = data := Option.some.inj (hdata'.symm.trans hdata)
    rw [hunsent] at hsends
    exact .sent hdue (by rw [hrec, CoNode.setTpdo_self]) hsends

theorem tpdoTickOne_steady {v : World σ} {data : List UInt8} (hunsent : tpdoSends i v.out = [])
    (hfree : ¬ (v.node.tpdo i).Inhibited v.node.nowMs)
    (hdata : ∀ v' : World σ, v'.node = v.node → Touched A v.app v'.app →
      (tpdoBuild A v' (v.node.tpdo i).toTpdoParams).1 = some data) :
    SteadyTurn v.node.nowMs data (v.node.tpdo i) ((tpdoTickOne A v i).node.tpdo i)
      (tpdoSends i (tpdoTickOne A v i).out) := by
  obtain ⟨hevent, hwait⟩ := not_or.mp hfree
  simp only [tpdoTickOne]
  rw [if_neg hevent]
  split
  · next hinhibit => exact absurd hinhibit hwait
  split
  · next htimer =>
    refine (tpdoSend_attempt A v i).steady rfl hunsent (hdata v rfl .refl) ?_
    rcases htimer with ⟨hevent, hlast | hlate⟩
    · exact .inl (Bool.eq_false_iff.mpr hlast)
    · exact .inr (.inr ⟨hevent, hlate⟩)
  next htimer =>
  have hread := hdata v rfl .refl
  have hchanged : (tpdoChanged A v i).1 =
      (!(v.node.tpdo i).haveLast || (v.node.tpdo i).lastData != data) := by
    simp only [tpdoChanged, hread]
  split
  · next hchange =>
    rw [hchanged, Bool.or_eq_true, Bool.not_eq_true', bne_iff_ne] at hchange
    refine (tpdoSend_attempt A _ i).steady (tpdoChanged_node i) ?_ ?_ (hchange.imp_right .inl)
    · rw [tpdoChanged_sends]
      exact hunsent
    · exact hdata _ (tpdoChanged_node i) (tpdoChanged_touched i)
  · next hchange =>
    rw [hchanged, Bool.or_eq_true, Bool.not_eq_true', bne_iff_ne, not_or] at hchange
    refine .rests ?_ (by rw [tpdoChanged_node]) (by rw [tpdoChanged_sends, hunsent])
    rintro (hlast | hother | ⟨hevent, hlate⟩)
    · exact hchange.1 hlast
    · exact hchange.2 hother
    · exact htimer ⟨hevent, .inr hlate⟩

/-- The inhibit time of the record, in tenths of a millisecond, has passed. -/
theorem inhibitMs_le_iff (p : TpdoParams) (since : UInt32) :
    ¬ since < p.inhibitMs ↔ p.inhibit100us.toNat ≤ 10 * since.toNat := by
  have h16 := p.inhibit100us.toNat_lt
  have hinhibit : p.inhibitMs.toNat = (p.inhibit100us.toNat + 9) / 10 := by
    rw [TpdoParams.inhibitMs]
    simp only [UInt32.toNat_div, UInt32.toNat_add, UInt16.toNat_toUInt32, UInt32.reduceToNat]
    omega
  rw [UInt32.lt_iff_toNat_lt, hinhibit]
  omega

/-- The TPDO is event-driven and its inhibit time has passed, or it has no baseline. -/
structure CoTpdo.MaySend (p : CoTpdo) (nowMs : UInt32) : Prop where
  enabled : p.enabled = true
  event : 254 ≤ p.transType
  free : p.haveLast = false ∨ p.inhibit100us.toNat ≤ 10 * (nowMs - p.lastTxMs).toNat

theorem CoTpdo.MaySend.not_inhibited {p : CoTpdo} {nowMs : UInt32} (h : p.MaySend nowMs) :
    ¬ p.Inhibited nowMs := by
  rintro ((hdisabled | htype) | ⟨hlast, hsoon⟩)
  · exact hdisabled h.enabled
  · exact UInt8.not_le.mpr htype h.event
  · rcases h.free with hfree | hfree
    · exact absurd (hfree.symm.trans hlast) (by simp)
    · exact (inhibitMs_le_iff p.toTpdoParams _).mpr hfree hsoon

/-- A tick that may send the TPDO. -/
theorem coStep_tick_steady (hok : MapsOk w.node) (hop : w.node.nmt = .operational) {t : UInt32}
    (hmay : (w.node.tpdo i).MaySend t) {value : UInt32 → List UInt8}
    (hsteady : Steady A w (w.node.tpdo i).toTpdoParams value) :
    SteadyTurn t ((w.node.tpdo i).mapped value) (w.node.tpdo i)
      ((coStep A w (.tick t)).node.tpdo i) (tpdoSends i (coStep A w (.tick t)).out) := by
  obtain ⟨hrec, hsends⟩ := coStep_tick (A := A) hop t i
  obtain ⟨hturn, hnow, -, hunsent⟩ := tickTurn_at (A := A) hop t i
  have hod : odInternalRead (tickTurn A w t i).node = odInternalRead w.node := by
    have honly : TpdoOnly (tickHead A w t) (tickTurn A w t i) :=
      TpdoOnly.foldl (fun _ j => tpdoTickOne_only j) _
    obtain ⟨hb, flag, sdo, hnode⟩ := tickHead_node A w t
    rw [← odInternalRead_withoutTx, honly.node, odInternalRead_withoutTx, hnode]
    rfl
  have hfree : ¬ ((tickTurn A w t i).node.tpdo i).Inhibited (tickTurn A w t i).node.nowMs := by
    rw [hturn, hnow]
    exact hmay.not_inhibited
  have hdata : ∀ v : World σ, v.node = (tickTurn A w t i).node →
    Touched A (tickTurn A w t i).app v.app →
      (tpdoBuild A v ((tickTurn A w t i).node.tpdo i).toTpdoParams).1 =
        some ((w.node.tpdo i).mapped value) := by
    intro v hnode happ
    rw [hturn]
    exact tpdoBuild_steady hsteady (hok.tpdo i) (by rw [hnode, hod])
      ((tickTurn_touched t i).trans happ)
  have hsteadyTurn := tpdoTickOne_steady hunsent hfree hdata
  rw [hturn, hnow] at hsteadyTurn
  rwa [hrec, hsends]

-- ════════════════════════════════════════════════════════════════════════
-- Refused frames
-- ════════════════════════════════════════════════════════════════════════

/-- Without a frame taken an attempt leaves the node as it was. -/
theorem Attempt.node_of_refused {v w' : World σ} (h : Attempt A i v w')
    (hfail : ∀ s ∈ tpdoSends i w'.out, s.2 = false) : w'.node = v.node := by
  cases h with
  | unreadable _ hnode | refused _ _ hnode => exact hnode
  | sent data _ hnode hsends =>
    have htaken := hfail ((v.node.tpdo i).frame data, true) (by simp [hsends])
    exact absurd htaken (by simp)

theorem tpdoSend_refused (j : Fin coTpdoCount)
    (hfail : ∀ s ∈ tpdoSends i (tpdoSend A w j).out, s.2 = false) :
    (tpdoSend A w j).node.tpdo i = w.node.tpdo i := by
  by_cases hj : i = j
  · subst hj
    rw [(tpdoSend_attempt A w i).node_of_refused hfail]
  · exact (tpdoSend_turn A w j).others i hj

theorem pdoRx_refused (hok : MapsOk w.node) {f : CoFrame}
    (hfail : ∀ s ∈ tpdoSends i (pdoRx A w f).2.out, s.2 = false) :
    (pdoRx A w f).2.node.tpdo i = w.node.tpdo i := by
  by_cases hrtr : f.rtr
  · simp only [pdoRx, hrtr, if_true] at hfail ⊢
    split
    · next j hfind =>
      dsimp only
      split
      · next hop =>
        simp only [hfind, hop, if_true] at hfail
        exact tpdoSend_refused j hfail
      · rfl
    · rfl
  · simp only [pdoRx, hrtr, Bool.false_eq_true, if_false]
    split
    · next j _ =>
      split
      · rfl
      split
      · rfl
      · obtain ⟨reg, hnode⟩ := @rpdoApply_node _ A w hok j f.data f.dlc
        rw [hnode]
    · rfl

/-- A tick in OPERATIONAL in which the driver takes no frame of the TPDO. -/
theorem coStep_tick_refused (hop : w.node.nmt = .operational) {t : UInt32}
    (hfail : ∀ s ∈ tpdoSends i (coStep A w (.tick t)).out, s.2 = false) :
    (coStep A w (.tick t)).node.tpdo i = w.node.tpdo i := by
  obtain ⟨hrec, hsends⟩ := coStep_tick (A := A) hop t i
  obtain ⟨hturn, -, -, -⟩ := tickTurn_at (A := A) hop t i
  rw [hsends] at hfail
  rw [hrec, ← hturn]
  cases tpdoTickOne_turns A (tickTurn A w t i) i with
  | rests hnode => rw [hnode]
  | tries _ v hv _ hattempt => rw [hattempt.node_of_refused hfail, hv]

/-- A call in which the driver takes no frame of an event-driven TPDO, though one is tried, leaves
    the record as it was. -/
theorem coStep_refused (hok : MapsOk w.node) (hevent : 254 ≤ (w.node.tpdo i).transType)
    {c : CoCall σ} (htried : tpdoSends i (coStep A w c).out ≠ [])
    (hfail : ∀ s ∈ tpdoSends i (coStep A w c).out, s.2 = false) :
    (coStep A w c).node.tpdo i = w.node.tpdo i := by
  set w₀ : World σ := { w with out := [] }
  have hcase := coCall_happens A w₀ c
  generalize hw : coCall A w₀ c = w' at hcase
  rw [show coStep A w c = w' from hw] at htried hfail ⊢
  -- What sends no TPDO was not meant.
  have hsilent : tpdoSends i w'.out = [] → w'.node.tpdo i = w.node.tpdo i :=
    fun hnone => absurd hnone htried
  cases hcase with
  | command f t cmd h =>
    exact hsilent ((nmtCommand_growsBy (w := noted w₀ t) cmd).tpdoSends_eq (by simp))
  | request f t hnmt h =>
    exact hsilent ((sdoServe_growsBy (w := noted w₀ t) f.request).tpdoSends_eq (by simp))
  | sync f t hid hop hrtr =>
    obtain ⟨hrec, -⟩ := coStep_sync (A := A) hok hop (f := f) ⟨hid, hrtr⟩ t i
    obtain ⟨hturn, -, -, -⟩ := syncTurn_at (A := A) (w := w) hop t i
    have hasync : 240 < ((syncTurn A w t i).node.tpdo i).transType := by
      rw [hturn]
      exact UInt8.lt_of_lt_of_le (by decide) hevent
    have hskip : syncTpdo A (syncTurn A w t i) i = syncTurn A w t i := if_pos (.inr hasync)
    rw [hskip, hturn] at hrec
    rw [← hw]
    exact hrec
  | pdo f t hnmt hid hsdo w' hrx =>
    have hkeep := pdoRx_refused (A := A) (w := atTime w₀ t) (i := i) (f := f)
      (hok.congr (fun _ => rfl) rfl)
    rcases hrx with rfl | rfl
    · exact hkeep hfail
    · exact hkeep hfail
  | ignored f t hcmd hreq w' hrest =>
    rcases hrest with rfl | rfl <;> rfl
  | tick t =>
    by_cases hop : w.node.nmt = .operational
    · exact coStep_tick_refused hop hfail
    · have hhead : (tickHead A w t).node.nmt ≠ .operational := by
        obtain ⟨hb, flag, sdo, hnode⟩ := tickHead_node A w t
        rw [hnode]
        exact hop
      have hskip : coTick A w₀ t = tickHead A w t := if_pos hhead
      refine hsilent ?_
      rw [hskip]
      exact tickHead_sends w t i
  | emcy code errBits mfr => exact hsilent (coEmcy_growsBy.tpdoSends_eq (by simp))
  | owner c => exact hsilent ((ownerCall_spec c).2.tpdoSends_eq (by simp))
  | world g => rfl

/-- **No lost change**: in every run a baseline is the payload of the last frame of its TPDO that
    the driver took. A tick that may send an event-driven TPDO over objects that stand still tries
    exactly when the TPDO is due, and if the driver takes what is tried, the baseline is the mapped
    data behind it. A refused frame leaves the record, by which later ticks decide, as it was. -/
theorem no_lost_change (A : App σ) (cfg : CoConfig) (nowMs : UInt32) (app : σ)
    (calls : List (CoCall σ)) (i : Fin coTpdoCount) :
    let w := coRun A cfg nowMs app calls
    let p := w.node.tpdo i
    (p.haveLast = true → ∃ f, lastTaken (runSends A i (coInit A cfg nowMs app) calls) = some f ∧
      p.lastData = f.payload) ∧
    (∀ t value, w.node.nmt = .operational → p.MaySend t → Steady A w p.toTpdoParams value →
      let w' := coStep A w (.tick t)
      (tpdoSends i w'.out ≠ [] ↔ p.Due t (p.mapped value)) ∧
        ((∀ s ∈ tpdoSends i w'.out, s.2 = true) →
          (w'.node.tpdo i).haveLast = true ∧ (w'.node.tpdo i).lastData = p.mapped value)) ∧
    ∀ c, 254 ≤ p.transType → tpdoSends i (coStep A w c).out ≠ [] →
      (∀ s ∈ tpdoSends i (coStep A w c).out, s.2 = false) → (coStep A w c).node.tpdo i = p := by
  intro w p
  have hok : MapsOk w.node := coRun_mapsOk cfg nowMs app calls
  refine ⟨coRun_baseline A cfg nowMs app calls i, fun t value hop hmay hsteady => ?_,
    fun c hevent => coStep_refused hok hevent⟩
  intro w'
  cases coStep_tick_steady (A := A) hok hop hmay hsteady with
  | rests hdue hrec hsends =>
    refine ⟨iff_of_false (not_not.mpr hsends) hdue, fun _ => ?_⟩
    obtain ⟨hlast, hdata⟩ := not_or.mp hdue
    rw [hrec]
    exact ⟨Bool.not_eq_false _ ▸ hlast, not_not.mp (not_or.mp hdata).1⟩
  | refused hdue hrec hsends =>
    refine ⟨iff_of_true (by rw [hsends]; simp) hdue, fun htaken => ?_⟩
    have htaken := htaken (p.frame (p.mapped value), false) (hsends ▸ List.mem_singleton_self _)
    exact absurd htaken Bool.false_ne_true
  | sent hdue hrec hsends =>
    refine ⟨iff_of_true (by rw [hsends]; simp) hdue, fun _ => ?_⟩
    rw [hrec]
    exact ⟨rfl, rfl⟩

/-- A node whose first TPDO was sent at 0 and whose object has changed behind it. -/
def changedNode : World UInt8 :=
  coRun byteApp exampleConfig 0 0
    [startCall, .owner (.tpdoConfigure 0 0 254 500 0 [0x20000008]), .tick 0, .world (· + 1)]

/-- The object stands still while frames are sent and objects are read. -/
theorem byteApp_steady {w : World UInt8} {p : TpdoParams} (h : p.entries = [0x20000008]) :
    Steady byteApp w p (fun _ => [w.app]) := by
  have htouched : ∀ s, Touched byteApp w.app s → s = w.app := by
    intro s hs
    induction hs with
    | refl => rfl
    | send _ _ ih | read _ _ _ _ ih => exact ih
  constructor
  · rw [h, List.forall_mem_singleton]
    intro s hs
    rw [htouched s hs]
    rfl
  · rw [h, List.forall_mem_singleton]
    rfl

theorem changedNode_record : changedNode.node.nmt = .operational ∧
    (changedNode.node.tpdo 0).entries = [0x20000008] ∧ (changedNode.node.tpdo 0).lastData = [0] ∧
    (changedNode.node.tpdo 0).mapped (fun _ => [changedNode.app]) = [1] ∧
    ∀ s ∈ tpdoSends 0 (coStep byteApp changedNode (.tick 500)).out, s.2 = true := by
  decide +kernel

/-- The change is sent when the inhibit time has passed. -/
theorem no_lost_change_byte :
    (changedNode.node.tpdo 0).lastData = [0] ∧
      tpdoSends 0 (coStep byteApp changedNode (.tick 500)).out ≠ [] ∧
      ((coStep byteApp changedNode (.tick 500)).node.tpdo 0).lastData = [1] := by
  obtain ⟨hop, hentries, hbefore, hmapped, hall⟩ := changedNode_record
  have hmay : (changedNode.node.tpdo 0).MaySend 500 :=
    ⟨by decide +kernel, by decide +kernel, by decide +kernel⟩
  obtain ⟨-, htick, -⟩ := no_lost_change byteApp exampleConfig 0 0
    [startCall, .owner (.tpdoConfigure 0 0 254 500 0 [0x20000008]), .tick 0, .world (· + 1)] 0
  obtain ⟨htried, htaken⟩ := htick 500 _ hop hmay (byteApp_steady hentries)
  have hdue : (changedNode.node.tpdo 0).Due 500
      ((changedNode.node.tpdo 0).mapped (fun _ => [changedNode.app])) := by
    rw [hmapped]
    exact .inr (.inl (by rw [hbefore]; decide))
  exact ⟨hbefore, htried.mpr hdue, (htaken hall).2.trans hmapped⟩

end Fountainer.Canopen
