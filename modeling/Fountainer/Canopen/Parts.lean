import Fountainer.Canopen.Core
import Fountainer.Lib.Traces
import Mathlib.Data.Set.Insert

/-!
# What the parts of the core do and leave alone

For each part of the core: the fields of the node it does not touch, and which kinds of
actions it records, with the NMT state in which they happen. The results about runs use
these facts and never look into the loops again.
-/

namespace Fountainer.Canopen

open Traces (Grows)
open Bytes (leU16)

variable {σ : Type*} {A : App σ} {w : World σ}

/-- The parts of the core that act on the surroundings. -/
inductive Part where
  | owner
  | heartbeat
  | emcy
  | sdo
  | tpdo (i : Fin coTpdoCount)
  | rpdo (i : Fin coRpdoCount)
  deriving DecidableEq, Repr

/-- The actions of a part. -/
def Part.allows : Part → Act → Prop
  | .owner, .read _ _ => True
  | .heartbeat, .send kind _ _ => kind = .bootup ∨ kind = .heartbeat
  | .emcy, .send kind _ _ => kind = .emcy
  | .sdo, .send kind _ _ => kind = .sdo
  | .sdo, .read _ _ => True
  | .sdo, .write via _ _ _ => via = .sdo
  | .tpdo i, .send kind _ _ => kind = .tpdo i
  | .tpdo _, .read _ _ => True
  | .rpdo i, .write via _ _ _ => via = .rpdo i
  | .rpdo _, .read _ _ => True
  | .rpdo i, .apply j _ _ => j = i
  | .owner, .copy _ _ _ => False
  | _, .copy _ _ _ => True
  | _, _ => False

/-- The effect happens in the NMT state `nmt` and is an action of one of the parts `S`. -/
def By (nmt : NmtState) (S : Set Part) (e : Effect) : Prop := e.nmt = nmt ∧ ∃ p ∈ S, p.allows e.act

theorem By.mono {nmt : NmtState} {S T : Set Part} {e : Effect} (h : By nmt S e) (hST : S ⊆ T) :
    By nmt T e := by
  obtain ⟨hnmt, p, hp, hact⟩ := h
  exact ⟨hnmt, p, hST hp, hact⟩

/-- A copy stays inside its buffer. -/
def Act.InBounds : Act → Prop
  | .copy b off n => off + n ≤ b.size
  | _ => True

/-- The trace grows by actions of the parts `S` in the state `nmt`. -/
abbrev GrowsBy (nmt : NmtState) (S : Set Part) (w w' : World σ) : Prop :=
  Grows (By nmt S) w.out w'.out

/-- The trace grows, and every copy stays inside its buffer. -/
abbrev GrowsInBounds (w w' : World σ) : Prop :=
  Grows (fun e : Effect => e.act.InBounds) w.out w'.out

-- ════════════════════════════════════════════════════════════════════════
-- Sending and reading
-- ════════════════════════════════════════════════════════════════════════

/-- A frame of eight bytes carries them as they are. -/
theorem CoFrame.ofBytes_data {id : UInt16} {bytes : List UInt8} (h : bytes.length = 8) :
    (CoFrame.ofBytes id bytes).data.toList = bytes := by
  apply List.ext_getElem
  · rw [Vector.length_toList, h]
  · intro k _ hk
    rw [Vector.getElem_toList]
    simp only [CoFrame.ofBytes, Vector.getElem_ofFn]
    exact List.getD_eq_getElem _ _ hk

/-- An identifier of eleven bits stands in the frame as it is. -/
theorem CoFrame.ofBytes_id {id : UInt16} (h : id.toNat < 0x800) (bytes : List UInt8) :
    (CoFrame.ofBytes id bytes).id = id := by
  apply UInt16.toNat_inj.mp
  simp only [CoFrame.ofBytes, UInt16.toNat_and]
  exact (Nat.and_two_pow_sub_one_eq_mod id.toNat 11).trans (Nat.mod_eq_of_lt h)

theorem CoFrame.ofBytes_zero {id : UInt16} {bytes : List UInt8} :
    (CoFrame.ofBytes id bytes).cmd = bytes.getD 0 0 := by
  simp only [CoFrame.ofBytes, CoFrame.cmd, Vector.getElem_ofFn]

theorem coGetU16_append (v : UInt16) (rest : List UInt8) : coGetU16 (leU16 v ++ rest) = v := by
  apply Bytes.rdU16_of_holds
  intro i hi
  dsimp only
  rw [Nat.zero_add, List.getD_append _ _ _ _ hi]
  exact List.getD_eq_getElem _ _ hi

@[simp] theorem tx_node {kind : TxKind} {id : UInt16} {data : List UInt8} :
    (tx A w kind id data).2.node = w.node := rfl

theorem tx_out {kind : TxKind} {id : UInt16} {data : List UInt8} :
    (tx A w kind id data).2.out = w.out ++
      [⟨w.node.nmt, .copy .frame 0 (min data.length 8)⟩,
        ⟨w.node.nmt, .send kind (CoFrame.ofBytes id data) (tx A w kind id data).1⟩] := by
  simp [tx, CoFrame.ofBytes]

theorem tx_growsBy {kind : TxKind} {id : UInt16} {data : List UInt8} {p : Part}
    (hsend : ∀ f ok, p.allows (.send kind f ok)) (hcopy : ∀ b off n, p.allows (.copy b off n)) :
    GrowsBy w.node.nmt {p} w (tx A w kind id data).2 := by
  rw [GrowsBy, tx_out]
  refine (Grows.refl _ _).append ?_
  simp only [List.forall_mem_cons, By, Set.mem_singleton_iff, exists_eq_left, true_and]
  exact ⟨hcopy _ _ _, hsend _ _, by simp⟩

theorem tx_inBounds {kind : TxKind} {id : UInt16} {data : List UInt8} :
    GrowsInBounds w (tx A w kind id data).2 := by
  rw [GrowsInBounds, tx_out]
  refine (Grows.refl _ _).append ?_
  simp [Act.InBounds, Buffer.size]

@[simp] theorem odRead_node {index : UInt16} {sub : UInt8} {cap : ℕ} :
    (odRead A w index sub cap).2.node = w.node := by
  unfold odRead
  split <;> rfl

@[simp] theorem odRead_out {index : UInt16} {sub : UInt8} {cap : ℕ} :
    (odRead A w index sub cap).2.out = w.out ++ [⟨w.node.nmt, .read index sub⟩] := by
  unfold odRead
  split <;> rfl

/-- The answer of `od_read` depends on the communication objects and the application. -/
theorem odRead_congr {w w' : World σ} {index : UInt16} {sub : UInt8} {cap : ℕ}
    (hod : odInternalRead w'.node = odInternalRead w.node) (happ : w'.app = w.app) :
    (odRead A w' index sub cap).1 = (odRead A w index sub cap).1 ∧
      (odRead A w' index sub cap).2.app = (odRead A w index sub cap).2.app := by
  simp only [odRead, World.emit_node, World.emit_app, hod, happ]
  split
  · exact ⟨rfl, happ⟩
  · exact ⟨rfl, rfl⟩

theorem mapValidateFrom_spec {forTx : Bool} {total : ℕ} {es : List UInt32} :
    (mapValidateFrom A forTx w total es).2.node = w.node ∧
      Grows (By w.node.nmt {.owner}) w.out (mapValidateFrom A forTx w total es).2.out := by
  induction es generalizing w total with
  | nil => exact ⟨rfl, Grows.refl _ _⟩
  | cons e es ih =>
    have hread : Grows (By w.node.nmt {.owner}) w.out
        (odRead A w (entryIndex e) (entrySub e) coSdoBufSize).2.out := by
      rw [odRead_out]
      exact (Grows.refl _ _).concat ⟨rfl, .owner, rfl, trivial⟩
    simp only [mapValidateFrom]
    split
    · exact ⟨rfl, Grows.refl _ _⟩
    split
    · exact ⟨rfl, Grows.refl _ _⟩
    split
    · exact ⟨odRead_node, hread⟩
    split
    · exact ⟨odRead_node, hread⟩
    split
    · exact ⟨odRead_node, hread⟩
    · obtain ⟨hnode, hgrow⟩ := @ih (odRead A w (entryIndex e) (entrySub e) coSdoBufSize).2
        (total + entryBits e)
      rw [odRead_node] at hnode hgrow
      exact ⟨hnode, hread.trans hgrow⟩

/-- The abort code of an answer and its number of bytes. -/
def OdRead.shape (r : OdRead) : UInt32 × ℕ := (r.code, r.bytes.length)

/-- The communication objects of the nodes differ at most in their values. -/
def SameShapes (n n' : CoNode) : Prop :=
  ∀ index sub cap, (odInternalRead n' index sub cap).shape = (odInternalRead n index sub cap).shape

theorem SameShapes.of_eq {n n' : CoNode} (h : odInternalRead n' = odInternalRead n) :
    SameShapes n n' := fun _ _ _ => by rw [h]

theorem odRead_shape {w w' : World σ} {index : UInt16} {sub : UInt8} {cap : ℕ}
    (hod : SameShapes w.node w'.node) (happ : w'.app = w.app) :
    (odRead A w' index sub cap).1.shape = (odRead A w index sub cap).1.shape ∧
      (odRead A w' index sub cap).2.app = (odRead A w index sub cap).2.app := by
  simp only [odRead, World.emit_node, World.emit_app, happ]
  split
  · exact ⟨hod index sub cap, happ⟩
  · exact ⟨rfl, rfl⟩

theorem mapValidateFrom_congr {w w' : World σ} {forTx : Bool} {total : ℕ} {es : List UInt32}
    (hod : SameShapes w.node w'.node) (happ : w'.app = w.app) :
    (mapValidateFrom A forTx w' total es).1 = (mapValidateFrom A forTx w total es).1 ∧
      (mapValidateFrom A forTx w' total es).2.app = (mapValidateFrom A forTx w total es).2.app := by
  induction es generalizing w w' total with
  | nil => exact ⟨rfl, happ⟩
  | cons e es ih =>
    obtain ⟨hshape, happ'⟩ :=
      @odRead_shape _ A w w' (entryIndex e) (entrySub e) coSdoBufSize hod happ
    obtain ⟨hcode, hlen⟩ := Prod.mk.inj hshape
    have hod' : SameShapes (odRead A w (entryIndex e) (entrySub e) coSdoBufSize).2.node
        (odRead A w' (entryIndex e) (entrySub e) coSdoBufSize).2.node := by
      rw [odRead_node, odRead_node]
      exact hod
    simp only [mapValidateFrom, hcode, hlen]
    repeat' split
    all_goals first | exact ⟨rfl, happ⟩ | exact ⟨rfl, happ'⟩ | exact ih hod' happ'

/-- `map_validate` looks only at the codes and the lengths of the communication objects. -/
theorem mapValidate_congr {w w' : World σ} (hod : SameShapes w.node w'.node) (happ : w'.app = w.app)
    (map : List UInt32) (forTx : Bool) :
    (mapValidate A w' map forTx).1 = (mapValidate A w map forTx).1 ∧
      (mapValidate A w' map forTx).2.app = (mapValidate A w map forTx).2.app :=
  mapValidateFrom_congr hod happ

@[simp] theorem mapValidate_node {map : List UInt32} {forTx : Bool} :
    (mapValidate A w map forTx).2.node = w.node :=
  mapValidateFrom_spec.1

theorem mapValidate_growsBy {map : List UInt32} {forTx : Bool} :
    GrowsBy w.node.nmt {.owner} w (mapValidate A w map forTx).2 :=
  mapValidateFrom_spec.2

-- ════════════════════════════════════════════════════════════════════════
-- TPDOs
-- ════════════════════════════════════════════════════════════════════════

/-- The node with the runtime fields of the TPDOs blanked. -/
def CoNode.withoutTx (n : CoNode) : CoNode :=
  { n with tpdo := fun i =>
      { n.tpdo i with lastTxMs := 0, haveLast := false, lastData := [], syncCount := 0 } }

theorem CoNode.withoutTx_setTpdo {n : CoNode} {i : Fin coTpdoCount} {p : CoTpdo}
    (h : p.toTpdoParams = (n.tpdo i).toTpdoParams) : (n.setTpdo i p).withoutTx = n.withoutTx := by
  simp only [withoutTx, setTpdo, CoNode.mk.injEq, true_and, and_true]
  funext j
  by_cases hj : j = i
  · subst hj
    rw [Function.update_self, h]
  · rw [Function.update_of_ne hj]

theorem tpdoBuildFrom_spec {i : Fin coTpdoCount} {data : List UInt8} {es : List UInt32}
    (hlen : data.length ≤ 8) :
    (tpdoBuildFrom A w data es).2.node = w.node ∧
      GrowsBy w.node.nmt {.tpdo i} w (tpdoBuildFrom A w data es).2 ∧
      GrowsInBounds w (tpdoBuildFrom A w data es).2 := by
  induction es generalizing w data with
  | nil => exact ⟨rfl, Grows.refl _ _, Grows.refl _ _⟩
  | cons e es ih =>
    have hread : ∀ P : Effect → Prop, P ⟨w.node.nmt, .read (entryIndex e) (entrySub e)⟩ →
        Grows P w.out (odRead A w (entryIndex e) (entrySub e) coSdoBufSize).2.out := by
      intro P hP
      rw [odRead_out]
      exact (Grows.refl _ _).concat hP
    simp only [tpdoBuildFrom]
    split
    · exact ⟨odRead_node, hread _ ⟨rfl, .tpdo i, rfl, trivial⟩, hread _ trivial⟩
    · next hfits =>
      simp only [not_or, ne_eq, not_not, not_lt] at hfits
      obtain ⟨-, hbytes, hroom⟩ := hfits
      obtain ⟨hnode, hgrow, hbounds⟩ := @ih
        ((odRead A w (entryIndex e) (entrySub e) coSdoBufSize).2.emit
          (.copy .frame data.length (entryLen e)))
        (data ++ (odRead A w (entryIndex e) (entrySub e) coSdoBufSize).1.bytes)
        (by rw [List.length_append, hbytes]; exact hroom)
      simp only [World.emit_node, odRead_node] at hnode hgrow
      refine ⟨hnode, Grows.trans ?_ hgrow, Grows.trans ?_ hbounds⟩
      · exact (hread _ ⟨rfl, .tpdo i, rfl, trivial⟩).concat
          ⟨congrArg CoNode.nmt odRead_node, .tpdo i, rfl, trivial⟩
      · exact (hread _ trivial).concat hroom

theorem tpdoBuild_spec (i : Fin coTpdoCount) (p : TpdoParams) :
    (tpdoBuild A w p).2.node = w.node ∧ GrowsBy w.node.nmt {.tpdo i} w (tpdoBuild A w p).2 ∧
      GrowsInBounds w (tpdoBuild A w p).2 :=
  tpdoBuildFrom_spec (Nat.zero_le 8)

/-- What every step of the TPDO engine keeps: the node up to the runtime fields, and only
    actions of TPDOs. -/
structure TpdoOnly (w w' : World σ) : Prop where
  node : w'.node.withoutTx = w.node.withoutTx
  grows : GrowsBy w.node.nmt {p | ∃ i, p = .tpdo i} w w'
  inBounds : GrowsInBounds w w'

theorem TpdoOnly.refl (w : World σ) : TpdoOnly w w := ⟨rfl, Grows.refl _ _, Grows.refl _ _⟩

theorem TpdoOnly.nmt {w w' : World σ} (h : TpdoOnly w w') : w'.node.nmt = w.node.nmt :=
  show w'.node.withoutTx.nmt = w.node.withoutTx.nmt from congrArg CoNode.nmt h.node

theorem TpdoOnly.trans {w w' w'' : World σ} (h : TpdoOnly w w') (h' : TpdoOnly w' w'') :
    TpdoOnly w w'' :=
  ⟨h'.node.trans h.node, h.grows.trans (h.nmt ▸ h'.grows), h.inBounds.trans h'.inBounds⟩

theorem TpdoOnly.foldl {β : Type*} {f : World σ → β → World σ} (hf : ∀ w b, TpdoOnly w (f w b))
    (bs : List β) : TpdoOnly w (bs.foldl f w) := by
  induction bs generalizing w with
  | nil => exact TpdoOnly.refl w
  | cons b bs ih => exact (hf w b).trans ih

theorem TpdoOnly.of_build (i : Fin coTpdoCount) (p : TpdoParams) :
    TpdoOnly w (tpdoBuild A w p).2 := by
  obtain ⟨hnode, hgrow, hbounds⟩ := @tpdoBuild_spec _ A w i p
  exact ⟨congrArg CoNode.withoutTx hnode,
    hgrow.mono (fun e he => he.mono (by rintro _ rfl; exact ⟨i, rfl⟩)), hbounds⟩

theorem tpdoSend_only (i : Fin coTpdoCount) : TpdoOnly w (tpdoSend A w i) := by
  have hbuild := @TpdoOnly.of_build _ A w i (w.node.tpdo i).toTpdoParams
  have hnode := (@tpdoBuild_spec _ A w i (w.node.tpdo i).toTpdoParams).1
  simp only [tpdoSend]
  split
  · exact hbuild
  · next data hdata =>
    have htx : TpdoOnly w (tx A (tpdoBuild A w (w.node.tpdo i).toTpdoParams).2 (.tpdo i)
        ((w.node.tpdo i).cobId &&& 0x7FF).toUInt16 data).2 := by
      refine hbuild.trans ⟨rfl, ?_, tx_inBounds⟩
      exact (tx_growsBy (p := .tpdo i) (fun _ _ => rfl) (fun _ _ _ => trivial)).mono
        (fun e he => he.mono (by rintro _ rfl; exact ⟨i, rfl⟩))
    split
    · refine ⟨?_, htx.grows, htx.inBounds⟩
      rw [← htx.node]
      apply CoNode.withoutTx_setTpdo
      rw [tx_node, hnode]
    · exact htx

theorem tpdoChanged_only (i : Fin coTpdoCount) : TpdoOnly w (tpdoChanged A w i).2 := by
  simp only [tpdoChanged]
  split <;> exact TpdoOnly.of_build i _

theorem tpdoTickOne_only (i : Fin coTpdoCount) : TpdoOnly w (tpdoTickOne A w i) := by
  simp only [tpdoTickOne]
  split
  · exact TpdoOnly.refl w
  split
  · exact TpdoOnly.refl w
  split
  · exact tpdoSend_only i
  split
  · exact (tpdoChanged_only i).trans (tpdoSend_only i)
  · exact tpdoChanged_only i

theorem syncTpdo_only (i : Fin coTpdoCount) : TpdoOnly w (syncTpdo A w i) := by
  simp only [syncTpdo]
  split
  · exact TpdoOnly.refl w
  split
  · split
    · exact (tpdoChanged_only i).trans (tpdoSend_only i)
    · exact tpdoChanged_only i
  · have hcount : TpdoOnly w { w with node := (w.node.setTpdo i
        { w.node.tpdo i with syncCount := (w.node.tpdo i).syncCount + 1 }) } :=
      ⟨CoNode.withoutTx_setTpdo rfl, Grows.refl _ _, Grows.refl _ _⟩
    split
    · exact hcount.trans (tpdoSend_only i)
    · exact hcount

theorem tpdoTick_only : TpdoOnly w (tpdoTick A w) := by
  rw [tpdoTick]
  split
  · exact TpdoOnly.refl w
  · exact TpdoOnly.foldl (fun w i => tpdoTickOne_only i) _

-- ════════════════════════════════════════════════════════════════════════
-- Writes to the object dictionary
-- ════════════════════════════════════════════════════════════════════════

/-- A mapping that may become active: every entry has 8, 16, 32 or 64 bits, together they
    fit a frame, and an RPDO maps no communication object. -/
structure MapFits (forTx : Bool) (es : List UInt32) : Prop where
  bits : ∀ e ∈ es, entryBits e ∈ [8, 16, 32, 64]
  sum : (es.map entryBits).sum ≤ 64
  target : forTx = false → ∀ e ∈ es, 0x2000 ≤ entryIndex e

theorem MapFits.nil (forTx : Bool) : MapFits forTx [] :=
  ⟨by simp, by simp, by simp⟩

theorem mapValidateFrom_fits {forTx : Bool} {total : ℕ} {es : List UInt32} (htotal : total ≤ 64)
    (h : (mapValidateFrom A forTx w total es).1 = 0) :
    (∀ e ∈ es, entryBits e ∈ [8, 16, 32, 64]) ∧ total + (es.map entryBits).sum ≤ 64 ∧
      (forTx = false → ∀ e ∈ es, 0x2000 ≤ entryIndex e) := by
  induction es generalizing w total with
  | nil => simpa using htotal
  | cons e es ih =>
    have hmap : abortPdoMap ≠ 0 := by decide
    have hlength : abortPdoLength ≠ 0 := by decide
    simp only [mapValidateFrom] at h
    split at h
    · exact absurd h hmap
    next hbits =>
    split at h
    · exact absurd h hlength
    next hroom =>
    split at h
    · exact absurd h hmap
    split at h
    · exact absurd h hmap
    split at h
    · exact absurd h hmap
    next htarget =>
    obtain ⟨hbits', hsum, htarget'⟩ := ih (not_lt.mp hroom) h
    refine ⟨List.forall_mem_cons.mpr ⟨not_not.mp hbits, hbits'⟩, ?_, fun htx => ?_⟩
    · rw [List.map_cons, List.sum_cons]
      omega
    · refine List.forall_mem_cons.mpr ⟨?_, htarget' htx⟩
      by_contra hlt
      exact htarget ⟨by simp [htx], UInt16.not_le.mp hlt⟩

theorem mapValidate_fits {forTx : Bool} {es : List UInt32} (h : (mapValidate A w es forTx).1 = 0) :
    MapFits forTx es := by
  obtain ⟨hbits, hsum, htarget⟩ := mapValidateFrom_fits (Nat.zero_le 64) h
  exact ⟨hbits, by omega, htarget⟩

/-- What a write to a communication object can do to the node. -/
inductive InternalWrite (n : CoNode) (index : UInt16) (sub : UInt8) (buf : List UInt8) :
    CoNode → Prop where
  | refused : InternalWrite n index sub buf n
  | heartbeat (ms : UInt16) : InternalWrite n index sub buf
      { n with cfg := { n.cfg with heartbeatMs := ms }, hbLastMs := n.nowMs }
  | rpdoComm (i : Fin coRpdoCount) (cobId : UInt32) (transType : UInt8) :
      InternalWrite n index sub buf
        (n.setRpdo i { n.rpdo i with cobId, transType, pending := false })
  | rpdoCount (i : Fin coRpdoCount) (v : UInt8) (hindex : pdoOf 0x1600 coRpdoCount index = some i)
      (hsub : sub = 0) (hbuf : buf = [v]) (hv : v.toNat ≤ coPdoMapMax)
      (hmap : MapFits false (mapEntries (n.rpdo i).map v)) :
      InternalWrite n index sub buf (n.setRpdo i { n.rpdo i with mapCount := v })
  | rpdoEntry (i : Fin coRpdoCount) (k : Fin coPdoMapMax) (e : UInt32)
      (hzero : (n.rpdo i).mapCount = 0) :
      InternalWrite n index sub buf
        (n.setRpdo i { n.rpdo i with map := Function.update (n.rpdo i).map k e })
  | tpdoComm (i : Fin coTpdoCount) (p : CoTpdo) (hcount : p.mapCount = (n.tpdo i).mapCount)
      (hmap : p.map = (n.tpdo i).map) : InternalWrite n index sub buf (n.setTpdo i p)
  | tpdoCount (i : Fin coTpdoCount) (v : UInt8) (hv : v.toNat ≤ coPdoMapMax)
      (hmap : MapFits true (mapEntries (n.tpdo i).map v)) :
      InternalWrite n index sub buf
        (n.setTpdo i { n.tpdo i with mapCount := v, haveLast := false })
  | tpdoEntry (i : Fin coTpdoCount) (k : Fin coPdoMapMax) (e : UInt32)
      (hzero : (n.tpdo i).mapCount = 0) :
      InternalWrite n index sub buf
        (n.setTpdo i { n.tpdo i with map := Function.update (n.tpdo i).map k e })

section Records

variable {index : UInt16} {sub : UInt8} {buf : List UInt8}

theorem writeRpdoComm_spec (index : UInt16) (i : Fin coRpdoCount) :
    InternalWrite w.node index sub buf (writeRpdoComm w i sub buf).2.node ∧
      (writeRpdoComm w i sub buf).2.out = w.out := by
  simp only [writeRpdoComm]
  split
  · exact ⟨.refused, rfl⟩
  split
  · split
    · exact ⟨.refused, rfl⟩
    split
    · exact ⟨.refused, rfl⟩
    · exact ⟨.rpdoComm i _ (w.node.rpdo i).transType, rfl⟩
  split
  · split
    · exact ⟨.refused, rfl⟩
    split
    · exact ⟨.refused, rfl⟩
    · exact ⟨.rpdoComm i (w.node.rpdo i).cobId _, rfl⟩
  · exact ⟨.refused, rfl⟩

theorem writeTpdoComm_spec (index : UInt16) (i : Fin coTpdoCount) :
    InternalWrite w.node index sub buf (writeTpdoComm w i sub buf).2.node ∧
      (writeTpdoComm w i sub buf).2.out = w.out := by
  simp only [writeTpdoComm]
  split
  · exact ⟨.refused, rfl⟩
  split
  · split
    · exact ⟨.refused, rfl⟩
    split
    · exact ⟨.refused, rfl⟩
    · exact ⟨.tpdoComm i _ rfl rfl, rfl⟩
  split
  · split
    · exact ⟨.refused, rfl⟩
    split
    · exact ⟨.refused, rfl⟩
    · exact ⟨.tpdoComm i _ rfl rfl, rfl⟩
  split
  · split
    · exact ⟨.refused, rfl⟩
    · exact ⟨.tpdoComm i _ rfl rfl, rfl⟩
  split
  · exact ⟨.refused, rfl⟩
  split
  · split
    · exact ⟨.refused, rfl⟩
    · exact ⟨.tpdoComm i _ rfl rfl, rfl⟩
  · exact ⟨.refused, rfl⟩

/-- A buffer of one byte. -/
theorem eq_singleton_headD (h : ¬ buf.length ≠ 1) : buf = [buf.headD 0] := by
  obtain ⟨v, rfl⟩ := List.length_eq_one_iff.mp (not_not.mp h)
  rfl

theorem writeRpdoMap_spec (i : Fin coRpdoCount) (hindex : pdoOf 0x1600 coRpdoCount index = some i) :
    InternalWrite w.node index sub buf (writeRpdoMap A w i sub buf).2.node ∧
      GrowsBy w.node.nmt {.owner} w (writeRpdoMap A w i sub buf).2 := by
  simp only [writeRpdoMap]
  split
  · next hsub =>
    split
    · exact ⟨.refused, Grows.refl _ _⟩
    next hlen =>
    split
    · exact ⟨.refused, Grows.refl _ _⟩
    next hv =>
    split
    · rw [mapValidate_node]
      exact ⟨.refused, mapValidate_growsBy⟩
    · next hok =>
      rw [mapValidate_node]
      exact ⟨.rpdoCount i _ hindex hsub (eq_singleton_headD hlen) (not_lt.mp hv)
        (mapValidate_fits (not_not.mp hok)), mapValidate_growsBy⟩
  · split
    · exact ⟨.refused, Grows.refl _ _⟩
    split
    · exact ⟨.refused, Grows.refl _ _⟩
    split
    · exact ⟨.refused, Grows.refl _ _⟩
    · next hzero => exact ⟨.rpdoEntry i _ _ (not_not.mp hzero), Grows.refl _ _⟩

theorem writeTpdoMap_spec (i : Fin coTpdoCount) :
    InternalWrite w.node index sub buf (writeTpdoMap A w i sub buf).2.node ∧
      GrowsBy w.node.nmt {.owner} w (writeTpdoMap A w i sub buf).2 := by
  simp only [writeTpdoMap]
  split
  · split
    · exact ⟨.refused, Grows.refl _ _⟩
    split
    · exact ⟨.refused, Grows.refl _ _⟩
    next hv =>
    split
    · rw [mapValidate_node]
      exact ⟨.refused, mapValidate_growsBy⟩
    · next hok =>
      rw [mapValidate_node]
      exact ⟨.tpdoCount i _ (not_lt.mp hv) (mapValidate_fits (not_not.mp hok)),
        mapValidate_growsBy⟩
  · split
    · exact ⟨.refused, Grows.refl _ _⟩
    split
    · exact ⟨.refused, Grows.refl _ _⟩
    split
    · exact ⟨.refused, Grows.refl _ _⟩
    · next hzero => exact ⟨.tpdoEntry i _ _ (not_not.mp hzero), Grows.refl _ _⟩

theorem odInternalWrite_spec :
    InternalWrite w.node index sub buf (odInternalWrite A w index sub buf).2.node ∧
      GrowsBy w.node.nmt {.owner} w (odInternalWrite A w index sub buf).2 := by
  simp only [odInternalWrite]
  split
  · split
    · exact ⟨.refused, Grows.refl _ _⟩
    split
    · exact ⟨.refused, Grows.refl _ _⟩
    · exact ⟨.heartbeat _, Grows.refl _ _⟩
  split
  · exact ⟨.refused, Grows.refl _ _⟩
  split
  · exact ⟨(writeRpdoComm_spec index _).1, Grows.of_eq (writeRpdoComm_spec index _).2⟩
  · next i hcomm hindex => exact writeRpdoMap_spec i hindex
  · exact ⟨(writeTpdoComm_spec index _).1, Grows.of_eq (writeTpdoComm_spec index _).2⟩
  · exact writeTpdoMap_spec _
  · exact ⟨.refused, Grows.refl _ _⟩

end Records

/-- The fields of the node that neither the PDO engine, the owner nor a write to the
    object dictionary touches: NMT, the SDO server, the boot-up flag, the time, and the
    configuration up to the heartbeat time. -/
structure Spine where
  cfg : CoConfig
  nmt : NmtState
  nowMs : UInt32
  bootupPending : Bool
  sdo : CoSdo

/-- The spine of a node. -/
def CoNode.spine (n : CoNode) : Spine where
  cfg := { n.cfg with heartbeatMs := 0 }
  nmt := n.nmt
  nowMs := n.nowMs
  bootupPending := n.bootupPending
  sdo := n.sdo

section Spine

variable {n n' : CoNode} (h : n'.spine = n.spine)
include h

theorem CoNode.nmt_of_spine : n'.nmt = n.nmt :=
  show n'.spine.nmt = n.spine.nmt from congrArg Spine.nmt h

theorem CoNode.sdo_of_spine : n'.sdo = n.sdo :=
  show n'.spine.sdo = n.spine.sdo from congrArg Spine.sdo h

theorem CoNode.bootupPending_of_spine : n'.bootupPending = n.bootupPending :=
  show n'.spine.bootupPending = n.spine.bootupPending from congrArg Spine.bootupPending h

theorem CoNode.nodeId_of_spine : n'.cfg.nodeId = n.cfg.nodeId :=
  show n'.spine.cfg.nodeId = n.spine.cfg.nodeId from congrArg (fun s => s.cfg.nodeId) h

end Spine

theorem TpdoOnly.spine {w w' : World σ} (h : TpdoOnly w w') : w'.node.spine = w.node.spine :=
  show w'.node.withoutTx.spine = w.node.withoutTx.spine from congrArg CoNode.spine h.node

theorem InternalWrite.spine {n n' : CoNode} {index : UInt16} {sub : UInt8} {buf : List UInt8}
    (h : InternalWrite n index sub buf n') : n'.spine = n.spine := by
  cases h <;> rfl

section Writes

variable {via : Writer} {index : UInt16} {sub : UInt8} {buf : List UInt8}

theorem odWrite_internal (h : isInternalIndex index = true) :
    InternalWrite w.node index sub buf (odWrite A w via index sub buf).2.node := by
  simp only [odWrite, h, if_true]
  exact (odInternalWrite_spec (w := w.emit (.write via index sub buf))).1

theorem odWrite_external (h : isInternalIndex index = false) :
    (odWrite A w via index sub buf).2.node = w.node := by
  simp [odWrite, h]

theorem odWrite_spine : (odWrite A w via index sub buf).2.node.spine = w.node.spine := by
  cases h : isInternalIndex index with
  | true => exact (odWrite_internal h).spine
  | false => rw [odWrite_external h]

/-- A write is recorded, and behind it at most the reads of a mapping check. -/
theorem odWrite_grows :
    Grows (By w.node.nmt {.owner}) (w.out ++ [⟨w.node.nmt, .write via index sub buf⟩])
      (odWrite A w via index sub buf).2.out := by
  simp only [odWrite]
  split
  · exact odInternalWrite_spec.2
  · exact Grows.refl _ _

/-- The writes and the reads behind them as actions of the part that writes. -/
theorem odWrite_growsBy {p : Part} (hwrite : p.allows (.write via index sub buf))
    (hread : ∀ i s, p.allows (.read i s)) :
    GrowsBy w.node.nmt {p} w (odWrite A w via index sub buf).2 := by
  refine ((Grows.refl _ _).concat ⟨rfl, p, rfl, hwrite⟩).trans (odWrite_grows.mono ?_)
  rintro ⟨nmt, act⟩ ⟨hnmt, q, hq, hact⟩
  obtain rfl : q = .owner := hq
  refine ⟨hnmt, p, rfl, ?_⟩
  cases act with
  | read i s => exact hread i s
  | send | write | apply | copy => exact absurd hact (by simp [Part.allows])

end Writes

-- ════════════════════════════════════════════════════════════════════════
-- EMCY and RPDOs
-- ════════════════════════════════════════════════════════════════════════

section Emcy

variable {code : UInt16} {errBits : UInt8} {mfr : Option (Vector UInt8 5)}

/-- The error register after `co_emcy`. -/
def emcyRegister (n : CoNode) (code : UInt16) (errBits : UInt8) : UInt8 :=
  if code = 0 then n.errorRegister &&& ~~~errBits else n.errorRegister ||| errBits

theorem coEmcy_node : (coEmcy A w code errBits mfr).node =
    { w.node with errorRegister := emcyRegister w.node code errBits } := by
  simp only [coEmcy]
  split <;> rfl

theorem coEmcy_growsBy : GrowsBy w.node.nmt {.emcy} w (coEmcy A w code errBits mfr) := by
  simp only [coEmcy]
  split
  · exact Grows.refl _ _
  · exact tx_growsBy (fun _ _ => rfl) (fun _ _ _ => trivial)

theorem coEmcy_inBounds : GrowsInBounds w (coEmcy A w code errBits mfr) := by
  simp only [coEmcy]
  split
  · exact Grows.refl _ _
  · exact tx_inBounds

/-- The frame of an emergency message. -/
def emcyFrame (n : CoNode) (code : UInt16) (errBits : UInt8) (mfr : Option (Vector UInt8 5)) :
    CoFrame :=
  CoFrame.ofBytes (0x080 + n.cfg.nodeId.toUInt16)
    (leU16 code ++ [emcyRegister n code errBits] ++
      (mfr.map Vector.toList).getD (List.replicate 5 0))

theorem coEmcy_out (h : ¬ (w.node.nmt = .stopped ∨ w.node.nmt = .initialising)) :
    ∃ ok, (coEmcy A w code errBits mfr).out = w.out ++
      [⟨w.node.nmt, .copy .frame 0 8⟩,
        ⟨w.node.nmt, .send .emcy (emcyFrame w.node code errBits mfr) ok⟩] := by
  have hlen : ((mfr.map Vector.toList).getD (List.replicate 5 0)).length = 5 := by
    cases mfr with
    | none => rfl
    | some v => exact v.length_toList
  have htx := @tx_out _ A
    { w with node := { w.node with errorRegister := emcyRegister w.node code errBits } } .emcy
    (0x080 + w.node.cfg.nodeId.toUInt16)
    (leU16 code ++ [emcyRegister w.node code errBits] ++
      (mfr.map Vector.toList).getD (List.replicate 5 0))
  simp only [List.length_append, Bytes.length_leU16, List.length_singleton, hlen] at htx
  rw [coEmcy, if_neg h]
  exact ⟨_, htx⟩

theorem coEmcy_silent (h : w.node.nmt = .stopped ∨ w.node.nmt = .initialising) :
    (coEmcy A w code errBits mfr).out = w.out := by
  simp only [coEmcy, h, if_true]

end Emcy

theorem rpdoWriteFrom_spec {i : Fin coRpdoCount} {data : List UInt8} {pos : ℕ}
    {ks : List (Fin coPdoMapMax)} :
    (rpdoWriteFrom A i data w pos ks).node.spine = w.node.spine ∧
      GrowsBy w.node.nmt {.rpdo i} w (rpdoWriteFrom A i data w pos ks) := by
  induction ks generalizing w pos with
  | nil => exact ⟨rfl, Grows.refl _ _⟩
  | cons k ks ih =>
    simp only [rpdoWriteFrom]
    split
    · set e := (w.node.rpdo i).map k
      set w₁ := w.emit (.copy .frame pos (entryLen e))
      set r := odWrite A w₁ (.rpdo i) (entryIndex e) (entrySub e)
        ((data.drop pos).take (entryLen e))
      have hspine : r.2.node.spine = w.node.spine := odWrite_spine
      have hgrow : GrowsBy w.node.nmt {.rpdo i} w r.2 :=
        ((Grows.refl _ _).concat ⟨rfl, .rpdo i, rfl, trivial⟩).trans
          (odWrite_growsBy (w := w₁) rfl (fun _ _ => trivial))
      obtain ⟨hspine', hgrow'⟩ := @ih r.2 (pos + entryLen e)
      rw [CoNode.nmt_of_spine hspine] at hgrow'
      exact ⟨hspine'.trans hspine, hgrow.trans hgrow'⟩
    · exact ⟨rfl, Grows.refl _ _⟩

theorem rpdoApply_spec {i : Fin coRpdoCount} {data : Vector UInt8 8} {len : Fin 9} :
    (rpdoApply A w i data len).node.spine = w.node.spine ∧
      GrowsBy w.node.nmt {.rpdo i, .emcy} w (rpdoApply A w i data len) := by
  have happly : GrowsBy w.node.nmt {.rpdo i, .emcy} w (w.emit (.apply i data len)) :=
    (Grows.refl _ _).concat ⟨rfl, .rpdo i, by simp, rfl⟩
  simp only [rpdoApply]
  split
  · rw [coEmcy_node]
    exact ⟨rfl, happly.trans (coEmcy_growsBy.mono (fun e he => he.mono (by simp)))⟩
  · obtain ⟨hspine, hgrow⟩ := @rpdoWriteFrom_spec _ A (w.emit (.apply i data len)) i data.toList 0
      (List.finRange coPdoMapMax)
    exact ⟨hspine, happly.trans (hgrow.mono (fun e he => he.mono (by simp)))⟩

theorem syncRpdo_spec (i : Fin coRpdoCount) :
    (syncRpdo A w i).node.spine = w.node.spine ∧
      GrowsBy w.node.nmt {p | p = .emcy ∨ ∃ i, p = .rpdo i} w (syncRpdo A w i) := by
  simp only [syncRpdo]
  split
  · obtain ⟨hspine, hgrow⟩ := @rpdoApply_spec _ A
      { w with node := w.node.setRpdo i { w.node.rpdo i with pending := false } } i
      (w.node.rpdo i).data (w.node.rpdo i).len
    refine ⟨hspine, hgrow.mono (fun e he => he.mono ?_)⟩
    rintro p (rfl | rfl)
    · exact .inr ⟨i, rfl⟩
    · exact .inl rfl
  · exact ⟨rfl, Grows.refl _ _⟩

/-- The parts that PDOs involve. -/
def pdoParts : Set Part := {p | p = .emcy ∨ (∃ i, p = .rpdo i) ∨ ∃ i, p = .tpdo i}

theorem syncRx_spec : (syncRx A w).node.spine = w.node.spine ∧
    GrowsBy w.node.nmt pdoParts w (syncRx A w) := by
  rw [syncRx]
  split
  · exact ⟨rfl, Grows.refl _ _⟩
  · have htx : TpdoOnly w ((List.finRange coTpdoCount).foldl (syncTpdo A) w) :=
      TpdoOnly.foldl (fun w i => syncTpdo_only i) _
    have hrx := @Grows.foldl _ _ (By w.node.nmt pdoParts) _ World.out (syncRpdo A)
      (fun w' => w'.node.spine = w.node.spine) (List.finRange coRpdoCount)
      (fun w' i hw' => by
        obtain ⟨hspine, hgrow⟩ := @syncRpdo_spec _ A w' i
        rw [GrowsBy, CoNode.nmt_of_spine hw'] at hgrow
        exact ⟨hspine.trans hw', hgrow.mono (fun e he => he.mono
          (by rintro p (h | h); exacts [.inl h, .inr (.inl h)]))⟩)
      ((List.finRange coTpdoCount).foldl (syncTpdo A) w) htx.spine
    exact ⟨hrx.1, (htx.grows.mono (fun e he => he.mono (fun p hp => .inr (.inr hp)))).trans hrx.2⟩

theorem pdoRx_spec {f : CoFrame} : (pdoRx A w f).2.node.spine = w.node.spine ∧
    GrowsBy w.node.nmt pdoParts w (pdoRx A w f).2 := by
  simp only [pdoRx]
  split
  · split
    · next i _ =>
      have htx := @tpdoSend_only _ A w i
      dsimp only
      split
      · exact ⟨htx.spine, htx.grows.mono (fun e he => he.mono (fun p hp => .inr (.inr hp)))⟩
      · exact ⟨rfl, Grows.refl _ _⟩
    · exact ⟨rfl, Grows.refl _ _⟩
  split
  · next i _ =>
    split
    · exact ⟨rfl, Grows.refl _ _⟩
    split
    · exact ⟨rfl, Grows.refl _ _⟩
    · obtain ⟨hspine, hgrow⟩ := @rpdoApply_spec _ A w i f.data f.dlc
      refine ⟨hspine, hgrow.mono (fun e he => he.mono ?_)⟩
      rintro p (rfl | rfl)
      · exact .inr (.inl ⟨i, rfl⟩)
      · exact .inl rfl
  · exact ⟨rfl, Grows.refl _ _⟩

-- ════════════════════════════════════════════════════════════════════════
-- The owner, NMT and the heartbeat
-- ════════════════════════════════════════════════════════════════════════

/-- The record that `co_tpdo_configure` makes of TPDO `k`. -/
def CoTpdo.configured (p : CoTpdo) (nodeId k : UInt8) (cobId : UInt16) (transType : UInt8)
    (inhibitMs eventMs : UInt16) (map : List UInt32) : CoTpdo :=
  { p with
    cobId := if cobId ≠ 0 then (cobId &&& 0x7FF).toUInt32
      else 0x180 + 0x100 * k.toUInt32 + nodeId.toUInt32
    transType, inhibit100us := inhibitMs * 10, eventMs
    mapCount := UInt8.ofNat map.length, map := mapCopy p.map map
    haveLast := false, syncCount := 0 }

/-- The record that `co_rpdo_configure` makes of RPDO `k`. -/
def CoRpdo.configured (p : CoRpdo) (nodeId k : UInt8) (cobId : UInt16) (transType : UInt8)
    (map : List UInt32) : CoRpdo :=
  { p with
    cobId := if cobId ≠ 0 then (cobId &&& 0x7FF).toUInt32
      else 0x200 + 0x100 * k.toUInt32 + nodeId.toUInt32
    transType, mapCount := UInt8.ofNat map.length, map := mapCopy p.map map
    pending := false }

/-- What a call of the owner can do to the node. -/
inductive Owned (n : CoNode) : OwnerCall → CoNode → Prop where
  | tpdoRefused (k : UInt8) (cobId : UInt16) (transType : UInt8) (inhibitMs eventMs : UInt16)
      (map : List UInt32) : Owned n (.tpdoConfigure k cobId transType inhibitMs eventMs map) n
  | tpdo (k : UInt8) (cobId : UInt16) (transType : UInt8) (inhibitMs eventMs : UInt16)
      (map : List UInt32) (hk : k.toNat < coTpdoCount) (hlen : map.length ≤ coPdoMapMax)
      (hfits : MapFits true map) :
      Owned n (.tpdoConfigure k cobId transType inhibitMs eventMs map)
        (n.setTpdo ⟨k.toNat, hk⟩ ((n.tpdo ⟨k.toNat, hk⟩).configured n.cfg.nodeId k cobId transType
          inhibitMs eventMs map))
  | rpdoRefused (k : UInt8) (cobId : UInt16) (transType : UInt8) (map : List UInt32) :
      Owned n (.rpdoConfigure k cobId transType map) n
  | rpdo (k : UInt8) (cobId : UInt16) (transType : UInt8) (map : List UInt32)
      (hk : k.toNat < coRpdoCount) (hlen : map.length ≤ coPdoMapMax) (hfits : MapFits false map) :
      Owned n (.rpdoConfigure k cobId transType map)
        (n.setRpdo ⟨k.toNat, hk⟩ ((n.rpdo ⟨k.toNat, hk⟩).configured n.cfg.nodeId k cobId transType
          map))
  | requestRefused (k : UInt8) : Owned n (.tpdoRequest k) n
  | request (k : UInt8) (hk : k.toNat < coTpdoCount) :
      Owned n (.tpdoRequest k)
        (n.setTpdo ⟨k.toNat, hk⟩ { n.tpdo ⟨k.toNat, hk⟩ with haveLast := false })
  | heartbeat (ms : UInt16) :
      Owned n (.heartbeatSet ms)
        { n with cfg := { n.cfg with heartbeatMs := ms }, hbLastMs := n.nowMs }
  | register (bits : UInt8) :
      Owned n (.errorRegisterSet bits) { n with errorRegister := n.errorRegister ||| bits }

theorem Owned.spine {n n' : CoNode} {c : OwnerCall} (h : Owned n c n') : n'.spine = n.spine := by
  cases h <;> rfl

theorem ownerCall_owned (A : App σ) (w : World σ) (c : OwnerCall) :
    Owned w.node c (ownerCall A w c).node := by
  cases c with
  | tpdoConfigure k cobId transType inhibitMs eventMs map =>
    simp only [ownerCall, coTpdoConfigure]
    split
    · next h =>
      split
      · rw [mapValidate_node]
        exact .tpdoRefused k cobId transType inhibitMs eventMs map
      · next hvalid =>
        dsimp only
        rw [mapValidate_node]
        exact .tpdo k cobId transType inhibitMs eventMs map h.1 h.2
          (mapValidate_fits (not_not.mp hvalid))
    · exact .tpdoRefused k cobId transType inhibitMs eventMs map
  | rpdoConfigure k cobId transType map =>
    simp only [ownerCall, coRpdoConfigure]
    split
    · next h =>
      split
      · rw [mapValidate_node]
        exact .rpdoRefused k cobId transType map
      · next hvalid =>
        dsimp only
        rw [mapValidate_node]
        exact .rpdo k cobId transType map h.1 h.2 (mapValidate_fits (not_not.mp hvalid))
    · exact .rpdoRefused k cobId transType map
  | tpdoRequest k =>
    simp only [ownerCall, coTpdoRequest]
    split
    · next hk => exact .request k hk
    · exact .requestRefused k
  | heartbeatSet ms => exact .heartbeat ms
  | errorRegisterSet bits => exact .register bits

/-- Of the effects, an owner's call has those of the check of a mapping only. -/
theorem ownerCall_growsBy (c : OwnerCall) : GrowsBy w.node.nmt {.owner} w (ownerCall A w c) := by
  cases c with
  | tpdoConfigure =>
    simp only [ownerCall, coTpdoConfigure]
    split
    · split <;> exact mapValidate_growsBy
    · exact Grows.refl _ _
  | rpdoConfigure =>
    simp only [ownerCall, coRpdoConfigure]
    split
    · split <;> exact mapValidate_growsBy
    · exact Grows.refl _ _
  | tpdoRequest =>
    simp only [ownerCall, coTpdoRequest]
    split <;> exact Grows.refl _ _
  | heartbeatSet | errorRegisterSet => exact Grows.refl _ _

theorem ownerCall_spec (c : OwnerCall) : (ownerCall A w c).node.spine = w.node.spine ∧
    GrowsBy w.node.nmt {.owner} w (ownerCall A w c) :=
  ⟨(ownerCall_owned A w c).spine, ownerCall_growsBy c⟩

theorem ownerCalls_spec (cs : List OwnerCall) :
    (cs.foldl (ownerCall A) w).node.spine = w.node.spine ∧
      GrowsBy w.node.nmt {.owner} w (cs.foldl (ownerCall A) w) := by
  refine Grows.foldl World.out (fun w' => w'.node.spine = w.node.spine) ?_ rfl
  intro w' c hw'
  obtain ⟨hspine, hgrow⟩ := @ownerCall_spec _ A w' c
  rw [GrowsBy, CoNode.nmt_of_spine hw'] at hgrow
  exact ⟨hspine.trans hw', hgrow⟩

theorem callOnReset_spec (resetNode : Bool) :
    (callOnReset A w resetNode).node.spine = w.node.spine ∧
      GrowsBy w.node.nmt {.owner} w (callOnReset A w resetNode) := by
  simp only [callOnReset]
  split
  · exact @ownerCalls_spec _ A { w with app := (A.onReset w.app resetNode).2 } _
  · exact ⟨rfl, Grows.refl _ _⟩

theorem nmtSet_node (new : NmtState) : (nmtSet A w new).node = { w.node with nmt := new } := by
  simp only [nmtSet]
  split
  · next h => rw [← h]
  · rfl

@[simp] theorem nmtSet_out (new : NmtState) : (nmtSet A w new).out = w.out := by
  simp only [nmtSet]
  split <;> rfl

/-- The spine that a reset leaves. -/
theorem nodeReset_spine (resetNode : Bool) : (nodeReset A w resetNode).node.spine =
    { w.node.spine with
      nmt := .preoperational, bootupPending := true,
      sdo := { w.node.sdo with state := .idle } } := by
  have h := (@callOnReset_spec _ A { w with node := resetComm w.node resetNode } resetNode).1
  simp only [nodeReset, nmtSet_node]
  simp only [CoNode.spine, resetComm, Spine.mk.injEq] at h ⊢
  obtain ⟨hcfg, -, hnow, -, hsdo⟩ := h
  exact ⟨hcfg, trivial, hnow, trivial, hsdo⟩

/-- A reset acts through the callback only, in the state INITIALISING. -/
theorem nodeReset_growsBy (resetNode : Bool) :
    GrowsBy .initialising {.owner} w (nodeReset A w resetNode) := by
  simp only [nodeReset, GrowsBy, nmtSet_out]
  exact (@callOnReset_spec _ A { w with node := resetComm w.node resetNode } resetNode).2

/-- A command acts on the outside by a reset only, where the owner's calls are made. -/
theorem nmtCommand_growsBy (cmd : NmtCmd) :
    GrowsBy .initialising {.owner} w (nmtCommand A w cmd) := by
  cases cmd with
  | start | stop | preop =>
    refine Grows.of_eq ?_
    simp only [nmtCommand, sdoIdle, nmtSet_out]
  | resetNode => exact nodeReset_growsBy true
  | resetComm => exact nodeReset_growsBy false

theorem heartbeatTick_growsBy : GrowsBy w.node.nmt {.heartbeat} w (heartbeatTick A w) := by
  simp only [heartbeatTick]
  split
  · have htx : GrowsBy w.node.nmt {.heartbeat} w
        (tx A w .bootup (0x700 + w.node.cfg.nodeId.toUInt16) [0]).2 :=
      tx_growsBy (fun _ _ => .inl rfl) (fun _ _ _ => trivial)
    split <;> exact htx
  split
  · exact Grows.refl _ _
  split
  · exact tx_growsBy (fun _ _ => .inr rfl) (fun _ _ _ => trivial)
  · exact Grows.refl _ _

theorem heartbeatTick_inBounds : GrowsInBounds w (heartbeatTick A w) := by
  simp only [heartbeatTick]
  split
  · split <;> exact tx_inBounds
  split
  · exact Grows.refl _ _
  split
  · exact tx_inBounds
  · exact Grows.refl _ _

/-- The heartbeat changes its time stamp and the boot-up flag only. -/
theorem heartbeatTick_node : ∃ hb flag, (heartbeatTick A w).node =
    { w.node with hbLastMs := hb, bootupPending := flag } := by
  simp only [heartbeatTick]
  split
  · split <;> exact ⟨_, _, rfl⟩
  split
  · exact ⟨_, _, rfl⟩
  split <;> exact ⟨_, _, rfl⟩

/-- An action of the owner copies nothing. -/
theorem GrowsBy.owner_inBounds {nmt : NmtState} {w w' : World σ} (h : GrowsBy nmt {.owner} w w') :
    GrowsInBounds w w' := by
  refine h.mono ?_
  rintro ⟨nmt, act⟩ ⟨-, q, hq, hact⟩
  obtain rfl : q = .owner := hq
  cases act with
  | copy => exact absurd hact (by simp [Part.allows])
  | read | send | write | apply => trivial

end Fountainer.Canopen
