import Fountainer.Canopen.Server
import Mathlib.Data.List.TakeWhile

/-!
# PDO mappings along a run

Every path that makes a mapping active checks it, so the active entries of a PDO always
fit a frame. An RPDO therefore never writes to a communication object: applying one leaves
the node as it is, and the writes it makes are the consecutive slices of its frame.
-/

namespace Fountainer.Canopen

open Traces (Grows)
open Bytes (leU16)

variable {σ : Type*} {A : App σ} {w : World σ}

-- ════════════════════════════════════════════════════════════════════════
-- The invariant
-- ════════════════════════════════════════════════════════════════════════

/-- A mapping that a PDO may be active with. -/
structure MapOk (forTx : Bool) (count : UInt8) (map : Fin coPdoMapMax → UInt32) : Prop where
  count_le : count.toNat ≤ coPdoMapMax
  fits : MapFits forTx (mapEntries map count)

theorem MapOk.zero (forTx : Bool) (map : Fin coPdoMapMax → UInt32) : MapOk forTx 0 map :=
  ⟨Nat.zero_le _, MapFits.nil forTx⟩

/-- The mappings of all PDOs of the node. -/
structure MapsOk (n : CoNode) : Prop where
  tpdo : ∀ i, MapOk true (n.tpdo i).mapCount (n.tpdo i).map
  rpdo : ∀ i, MapOk false (n.rpdo i).mapCount (n.rpdo i).map

section Node

variable {n n' : CoNode}

theorem MapsOk.setTpdo (h : MapsOk n) {i : Fin coTpdoCount} {p : CoTpdo}
    (hp : MapOk true p.mapCount p.map) : MapsOk (n.setTpdo i p) := by
  refine ⟨fun j => ?_, h.rpdo⟩
  by_cases hj : j = i
  · subst hj
    rw [CoNode.setTpdo_self]
    exact hp
  · rw [CoNode.setTpdo_of_ne _ hj]
    exact h.tpdo j

theorem MapsOk.setRpdo (h : MapsOk n) {i : Fin coRpdoCount} {p : CoRpdo}
    (hp : MapOk false p.mapCount p.map) : MapsOk (n.setRpdo i p) := by
  refine ⟨h.tpdo, fun j => ?_⟩
  by_cases hj : j = i
  · subst hj
    rw [CoNode.setRpdo_self]
    exact hp
  · rw [CoNode.setRpdo_of_ne _ hj]
    exact h.rpdo j

/-- An RPDO is no longer pending. -/
theorem MapsOk.clearPending (h : MapsOk n) (i : Fin coRpdoCount) :
    MapsOk (n.setRpdo i { n.rpdo i with pending := false }) :=
  h.setRpdo (h.rpdo i)

/-- The PDOs up to what does not bear on their mappings. -/
theorem MapsOk.congr (h : MapsOk n)
    (htpdo : ∀ i, (n'.tpdo i).toTpdoParams = (n.tpdo i).toTpdoParams)
    (hrpdo : n'.rpdo = n.rpdo) : MapsOk n' := by
  refine ⟨fun i => ?_, ?_⟩
  · rw [htpdo i]
    exact h.tpdo i
  · rw [hrpdo]
    exact h.rpdo

theorem CoNode.params_of_withoutTx (h : n'.withoutTx = n.withoutTx) (i : Fin coTpdoCount) :
    (n'.tpdo i).toTpdoParams = (n.tpdo i).toTpdoParams :=
  show (n'.withoutTx.tpdo i).toTpdoParams = (n.withoutTx.tpdo i).toTpdoParams from
    congrArg (fun m => (m.tpdo i).toTpdoParams) h

theorem CoNode.rpdo_of_withoutTx (h : n'.withoutTx = n.withoutTx) : n'.rpdo = n.rpdo :=
  show n'.withoutTx.rpdo = n.withoutTx.rpdo from congrArg CoNode.rpdo h

theorem TpdoOnly.mapsOk {w w' : World σ} (h : TpdoOnly w w') (hok : MapsOk w.node) :
    MapsOk w'.node :=
  hok.congr (CoNode.params_of_withoutTx h.node) (CoNode.rpdo_of_withoutTx h.node)

theorem InternalWrite.mapsOk {index : UInt16} {sub : UInt8} {buf : List UInt8}
    (h : InternalWrite n index sub buf n') (hok : MapsOk n) : MapsOk n' := by
  cases h with
  | refused => exact hok
  | heartbeat ms => exact hok.congr (fun _ => rfl) rfl
  | rpdoComm i cobId transType => exact hok.setRpdo (hok.rpdo i)
  | rpdoCount i v _ _ _ hv hmap => exact hok.setRpdo ⟨hv, hmap⟩
  | rpdoEntry i k e hzero =>
    refine hok.setRpdo ?_
    dsimp only
    rw [hzero]
    exact MapOk.zero _ _
  | tpdoComm i p hcount hmap =>
    refine hok.setTpdo ?_
    rw [hcount, hmap]
    exact hok.tpdo i
  | tpdoCount i v hv hmap => exact hok.setTpdo ⟨hv, hmap⟩
  | tpdoEntry i k e hzero =>
    refine hok.setTpdo ?_
    dsimp only
    rw [hzero]
    exact MapOk.zero _ _

theorem Wrote.mapsOk {cs : List OdCall} (h : Wrote n cs n') (hok : MapsOk n) : MapsOk n' := by
  match cs, h with
  | [], h => exact h ▸ hok
  | [_], h => exact InternalWrite.mapsOk h hok

end Node

/-- The owner's mapping stands in the record as it was given. -/
theorem mapEntries_mapCopy (old : Fin coPdoMapMax → UInt32) {map : List UInt32}
    (h : map.length ≤ coPdoMapMax) :
    mapEntries (mapCopy old map) (UInt8.ofNat map.length) = map := by
  have hcount : (UInt8.ofNat map.length).toNat = map.length := by
    rw [UInt8.toNat_ofNat']
    exact Nat.mod_eq_of_lt (Nat.lt_of_le_of_lt h (by decide))
  rw [mapEntries, hcount]
  apply List.ext_getElem
  · rw [List.length_take, List.length_ofFn]
    exact min_eq_left h
  · intro k _ hk
    rw [List.getElem_take, List.getElem_ofFn]
    exact List.getD_eq_getElem _ _ hk

theorem MapOk.mapCopy {forTx : Bool} {map : List UInt32} (h : MapFits forTx map)
    (hlen : map.length ≤ coPdoMapMax) (old : Fin coPdoMapMax → UInt32) :
    MapOk forTx (UInt8.ofNat map.length) (Canopen.mapCopy old map) := by
  constructor
  · rw [UInt8.toNat_ofNat']
    exact (Nat.mod_le _ _).trans hlen
  · rw [mapEntries_mapCopy old hlen]
    exact h

theorem ownerCall_mapsOk (hok : MapsOk w.node) (c : OwnerCall) : MapsOk (ownerCall A w c).node := by
  have howned := ownerCall_owned A w c
  generalize (ownerCall A w c).node = n' at howned
  cases howned with
  | tpdoRefused | rpdoRefused | requestRefused => exact hok
  | tpdo _ _ _ _ _ _ _ hlen hfits => exact hok.setTpdo (MapOk.mapCopy hfits hlen _)
  | rpdo _ _ _ _ _ hlen hfits => exact hok.setRpdo (MapOk.mapCopy hfits hlen _)
  | request => exact hok.setTpdo (hok.tpdo _)
  | heartbeat | register => exact hok.congr (fun _ => rfl) rfl

theorem ownerCalls_mapsOk (hok : MapsOk w.node) (cs : List OwnerCall) :
    MapsOk (cs.foldl (ownerCall A) w).node := by
  induction cs generalizing w with
  | nil => exact hok
  | cons c cs ih => exact ih (ownerCall_mapsOk hok c)

/-- A reset disables every PDO, whatever its mapping was. -/
theorem nodeReset_mapsOk (resetNode : Bool) : MapsOk (nodeReset A w resetNode).node := by
  have hreset : MapsOk (resetComm w.node resetNode) :=
    ⟨fun i => MapOk.zero _ _, fun i => MapOk.zero _ _⟩
  have hcall :
    MapsOk (callOnReset A { w with node := resetComm w.node resetNode } resetNode).node := by
    simp only [callOnReset]
    split
    · exact ownerCalls_mapsOk hreset _
    · exact hreset
  simp only [nodeReset, nmtSet_node]
  exact hcall.congr (fun _ => rfl) rfl

-- ════════════════════════════════════════════════════════════════════════
-- Applying an RPDO
-- ════════════════════════════════════════════════════════════════════════

/-- The effects of writing the mapped objects, from position `pos` of the data on. -/
def writeEffects (nmt : NmtState) (i : Fin coRpdoCount) (data : List UInt8) :
    ℕ → List UInt32 → List Effect
  | _, [] => []
  | pos, e :: es =>
    ⟨nmt, .copy .frame pos (entryLen e)⟩ ::
    ⟨nmt, .write (.rpdo i) (entryIndex e) (entrySub e) ((data.drop pos).take (entryLen e))⟩ ::
      writeEffects nmt i data (pos + entryLen e) es

theorem isInternalIndex_of_le {index : UInt16} (h : 0x2000 ≤ index) :
    isInternalIndex index = false := by
  simp only [isInternalIndex, Bool.and_eq_false_iff, decide_eq_false_iff_not]
  exact .inr (UInt16.not_lt.mpr h)

theorem odWrite_external_out {via : Writer} {index : UInt16} {sub : UInt8} {buf : List UInt8}
    (h : isInternalIndex index = false) :
    (odWrite A w via index sub buf).2.out = w.out ++ [⟨w.node.nmt, .write via index sub buf⟩] := by
  simp [odWrite, h]

/-- The write loop over positions whose entries are all application objects. -/
theorem rpdoWriteFrom_eq {i : Fin coRpdoCount} {data : List UInt8} {pos : ℕ}
    {ks : List (Fin coPdoMapMax)} {es : List UInt32}
    (hes : es = (ks.takeWhile (fun k => k.val < (w.node.rpdo i).mapCount.toNat)).map
      (w.node.rpdo i).map)
    (htarget : ∀ e ∈ es, 0x2000 ≤ entryIndex e) :
    (rpdoWriteFrom A i data w pos ks).node = w.node ∧
      (rpdoWriteFrom A i data w pos ks).out = w.out ++ writeEffects w.node.nmt i data pos es := by
  induction ks generalizing w pos es with
  | nil =>
    subst hes
    exact ⟨rfl, by simp [rpdoWriteFrom, writeEffects]⟩
  | cons k ks ih =>
    simp only [rpdoWriteFrom]
    by_cases hk : k.val < (w.node.rpdo i).mapCount.toNat
    · rw [List.takeWhile_cons_of_pos (by simpa using hk), List.map_cons] at hes
      subst hes
      rw [List.forall_mem_cons] at htarget
      have hext := isInternalIndex_of_le htarget.1
      rw [if_pos hk]
      set w₁ := w.emit (.copy .frame pos (entryLen ((w.node.rpdo i).map k)))
      set r := odWrite A w₁ (.rpdo i) (entryIndex ((w.node.rpdo i).map k))
        (entrySub ((w.node.rpdo i).map k))
        ((data.drop pos).take (entryLen ((w.node.rpdo i).map k))) with hr
      have hnode : r.2.node = w.node := odWrite_external (w := w₁) hext
      obtain ⟨hnode', hout'⟩ := @ih r.2 (pos + entryLen ((w.node.rpdo i).map k)) _
        (by rw [hnode]) htarget.2
      refine ⟨hnode'.trans hnode, ?_⟩
      rw [hout', hnode, hr, odWrite_external_out hext]
      simp [writeEffects, w₁]
    · rw [List.takeWhile_cons_of_neg (by simpa using hk)] at hes
      subst hes
      rw [if_neg hk]
      exact ⟨rfl, by simp [writeEffects]⟩

theorem takeWhile_finRange (c : ℕ) :
    (List.finRange coPdoMapMax).takeWhile (fun k => k.val < c) =
    (List.finRange coPdoMapMax).take c := by
  match c with
  | 0 | 1 | 2 | 3 | 4 | 5 | 6 | 7 => rfl
  | c + 8 =>
    rw [List.take_of_length_le (by simp)]
    refine List.takeWhile_eq_self_iff.mpr ?_
    intro k _
    simpa using Nat.lt_of_lt_of_le k.isLt (Nat.le_add_left 8 c)

/-- An RPDO frame that is long enough: every mapped object is written, nothing else. -/
theorem rpdoApply_long {i : Fin coRpdoCount} {data : Vector UInt8 8} {len : Fin 9}
    (hok : MapsOk w.node) (hlen : mapLength (w.node.rpdo i).entries ≤ len) :
    (rpdoApply A w i data len).node = w.node ∧
      (rpdoApply A w i data len).out = w.out ++ ⟨w.node.nmt, .apply i data len⟩ ::
        writeEffects w.node.nmt i data.toList 0 (w.node.rpdo i).entries := by
  have hes : (w.node.rpdo i).entries = ((List.finRange coPdoMapMax).takeWhile
      (fun k => k.val < (w.node.rpdo i).mapCount.toNat)).map (w.node.rpdo i).map := by
    rw [takeWhile_finRange, RpdoParams.entries, mapEntries, List.ofFn_eq_map, List.map_take]
  obtain ⟨hnode, hout⟩ := @rpdoWriteFrom_eq _ A (w.emit (.apply i data len)) i data.toList 0
    (List.finRange coPdoMapMax) _ hes ((hok.rpdo i).fits.target rfl)
  simp only [rpdoApply, World.emit_node, not_lt.mpr hlen, if_false]
  refine ⟨hnode, ?_⟩
  rw [hout]
  simp

/-- An RPDO frame that is too short: nothing is written, and the node reports it. -/
theorem rpdoApply_short {i : Fin coRpdoCount} {data : Vector UInt8 8} {len : Fin 9}
    (hop : w.node.nmt = .operational) (hlen : len < mapLength (w.node.rpdo i).entries) :
    (rpdoApply A w i data len).node =
        { w.node with errorRegister := w.node.errorRegister ||| 0x01 } ∧
      ∃ ok, (rpdoApply A w i data len).out = w.out ++
        [⟨.operational, .apply i data len⟩, ⟨.operational, .copy .frame 0 8⟩,
          ⟨.operational, .send .emcy
            (emcyFrame w.node 0x8210 0x01 (some (Vector.replicate 5 0))) ok⟩] := by
  simp only [rpdoApply, World.emit_node, hlen, if_true]
  refine ⟨by rw [coEmcy_node]; rfl, ?_⟩
  obtain ⟨ok, hout⟩ := @coEmcy_out _ A (w.emit (.apply i data len)) 0x8210 0x01
    (some (Vector.replicate 5 0)) (by simp [hop])
  refine ⟨ok, ?_⟩
  rw [hout, World.emit_out, World.emit_node, hop, List.append_assoc]
  rfl

/-- Applying an RPDO changes the error register at most. -/
theorem rpdoApply_node (hok : MapsOk w.node) {i : Fin coRpdoCount} {data : Vector UInt8 8}
    {len : Fin 9} : ∃ reg, (rpdoApply A w i data len).node =
    { w.node with errorRegister := reg } := by
  by_cases hlen : len < mapLength (w.node.rpdo i).entries
  · simp only [rpdoApply, World.emit_node, hlen, if_true]
    exact ⟨_, coEmcy_node⟩
  · exact ⟨w.node.errorRegister, (rpdoApply_long hok (not_lt.mp hlen)).1⟩

-- ════════════════════════════════════════════════════════════════════════
-- What the bus sees of an RPDO
-- ════════════════════════════════════════════════════════════════════════

/-- What RPDOs do: a frame is applied, an object is written, an emergency is raised. -/
inductive RpdoEvent where
  | apply (i : Fin coRpdoCount) (data : Vector UInt8 8) (len : Fin 9)
  | write (i : Fin coRpdoCount) (c : OdCall)
  | emcy (code : UInt16)
  deriving DecidableEq

/-- The event that an action is. -/
def Act.rpdoEvent? : Act → Option RpdoEvent
  | .apply i data len => some (.apply i data len)
  | .write (.rpdo i) index sub bytes => some (.write i ⟨index, sub, bytes⟩)
  | .send .emcy f _ => some (.emcy (coGetU16 f.data.toList))
  | _ => none

/-- The RPDO events among the effects, in order. -/
def rpdoEvents (es : List Effect) : List RpdoEvent := es.filterMap (fun e => e.act.rpdoEvent?)

@[simp] theorem rpdoEvents_append (es es' : List Effect) :
    rpdoEvents (es ++ es') = rpdoEvents es ++ rpdoEvents es' :=
  List.filterMap_append

/-- The data cut into the mapped objects, one after the other. -/
def slices : List UInt8 → List UInt32 → List OdCall
  | _, [] => []
  | data, e :: es =>
    ⟨entryIndex e, entrySub e, data.take (entryLen e)⟩ :: slices (data.drop (entryLen e)) es

/-- The events that applying a frame must cause: all the writes, from the bytes received,
    or, if these are too few, none and the emergency 0x8210. -/
def CoNode.applied (n : CoNode) (i : Fin coRpdoCount) (data : Vector UInt8 8) (len : Fin 9) :
    List RpdoEvent :=
  if mapLength (n.rpdo i).entries ≤ len then
    (slices (data.toList.take len) (n.rpdo i).entries).map (.write i)
  else [.emcy 0x8210]

/-- The events that follow from an event. -/
def CoNode.caused (n : CoNode) : RpdoEvent → List RpdoEvent
  | .apply i data len => .apply i data len :: n.applied i data len
  | _ => []

/-- Every event belongs to a frame that was applied. -/
def Explained (n : CoNode) (es : List Effect) : Prop :=
  rpdoEvents es = (rpdoEvents es).flatMap n.caused

theorem Explained.append {n : CoNode} {es es' : List Effect} (h : Explained n es)
    (h' : Explained n es') : Explained n (es ++ es') := by
  rw [Explained, rpdoEvents_append, List.flatMap_append, ← h, ← h']

theorem Explained.of_none {n : CoNode} {es : List Effect} (h : ∀ e ∈ es, e.act.rpdoEvent? = none) :
    Explained n es := by
  have hnil : rpdoEvents es = [] := List.filterMap_eq_nil_iff.mpr h
  rw [Explained, hnil]
  rfl

theorem CoNode.caused_congr {n n' : CoNode}
    (h : ∀ i, (n'.rpdo i).toRpdoParams = (n.rpdo i).toRpdoParams) : n'.caused = n.caused := by
  funext e
  cases e with
  | apply i data len => rw [caused, caused, applied, applied, h i]
  | write | emcy => rfl

/-- A part that neither applies RPDOs nor sends emergencies. -/
theorem By.rpdoEvent_none {nmt : NmtState} {S : Set Part} {e : Effect} (h : By nmt S e)
    (hS : ∀ p ∈ S, p ≠ .emcy ∧ ∀ i, p ≠ .rpdo i) : e.act.rpdoEvent? = none := by
  obtain ⟨-, p, hp, hact⟩ := h
  obtain ⟨hemcy, hrpdo⟩ := hS p hp
  cases p with
  | emcy => exact absurd rfl hemcy
  | rpdo i => exact absurd rfl (hrpdo i)
  | owner | heartbeat | sdo | tpdo =>
    cases h : e.act with
    | send kind f ok =>
      rw [h] at hact
      cases kind <;> first | rfl | simp [Part.allows] at hact
    | write via index sub bytes =>
      rw [h] at hact
      cases via <;> first | rfl | simp [Part.allows] at hact
    | apply i data len =>
      rw [h] at hact
      simp [Part.allows] at hact
    | read | copy => rfl

theorem rpdoEvents_writeEffects (nmt : NmtState) (i : Fin coRpdoCount) (data : List UInt8) (pos : ℕ)
    (es : List UInt32) :
    rpdoEvents (writeEffects nmt i data pos es) = (slices (data.drop pos) es).map (.write i) := by
  induction es generalizing pos with
  | nil => rfl
  | cons e es ih =>
    rw [slices, List.map_cons, List.drop_drop, ← ih]
    rfl

/-- The slices depend only on the bytes that the mapping covers. -/
theorem slices_take {data : List UInt8} {es : List UInt32} {len : ℕ} (h : mapLength es ≤ len) :
    slices (data.take len) es = slices data es := by
  induction es generalizing data len with
  | nil => rfl
  | cons e es ih =>
    have hcons : entryLen e + mapLength es ≤ len := by simpa [mapLength] using h
    rw [slices, slices, List.take_take, min_eq_left (by omega), List.drop_take, ih (by omega)]

theorem writeEffects_inBounds {nmt : NmtState} {i : Fin coRpdoCount} {data : List UInt8} {pos : ℕ}
    {es : List UInt32} (h : pos + mapLength es ≤ 8) :
    ∀ e ∈ writeEffects nmt i data pos es, e.act.InBounds := by
  induction es generalizing pos with
  | nil => simp [writeEffects]
  | cons e es ih =>
    have hcons : pos + (entryLen e + mapLength es) ≤ 8 := by simpa [mapLength] using h
    simp only [writeEffects, List.forall_mem_cons]
    exact ⟨show pos + entryLen e ≤ 8 by omega, trivial, ih (by omega)⟩

/-- The code in an emergency frame. -/
theorem emcyFrame_code (n : CoNode) (code : UInt16) (errBits : UInt8)
    (mfr : Option (Vector UInt8 5)) :
    coGetU16 (emcyFrame n code errBits mfr).data.toList = code := by
  rw [emcyFrame, CoFrame.ofBytes_data, List.append_assoc]
  · exact coGetU16_append code _
  · cases mfr with
    | none => rfl
    | some v => simp

/-- What PDOs do to a node that runs with good mappings: the parameters stand, and every
    event belongs to a frame that was applied. -/
structure PdoStep (w w' : World σ) : Prop where
  spine : w'.node.spine = w.node.spine
  tpdo : ∀ i, (w'.node.tpdo i).toTpdoParams = (w.node.tpdo i).toTpdoParams
  rpdo : ∀ i, (w'.node.rpdo i).toRpdoParams = (w.node.rpdo i).toRpdoParams
  out : ∃ new, w'.out = w.out ++ new ∧ Explained w.node new ∧ ∀ e ∈ new, e.act.InBounds

theorem PdoStep.refl (w : World σ) : PdoStep w w :=
  ⟨rfl, fun _ => rfl, fun _ => rfl, [], by simp, Explained.of_none (by simp), by simp⟩

theorem PdoStep.trans {w w' w'' : World σ} (h : PdoStep w w') (h' : PdoStep w' w'') :
    PdoStep w w'' := by
  obtain ⟨new, hnew, hexp, hin⟩ := h.out
  obtain ⟨new', hnew', hexp', hin'⟩ := h'.out
  refine ⟨h'.spine.trans h.spine, fun i => (h'.tpdo i).trans (h.tpdo i),
    fun i => (h'.rpdo i).trans (h.rpdo i), new ++ new', ?_, ?_, ?_⟩
  · rw [hnew', hnew, List.append_assoc]
  · rw [Explained, CoNode.caused_congr h.rpdo] at hexp'
    exact hexp.append hexp'
  · intro e he
    exact (List.mem_append.mp he).elim (hin e) (hin' e)

theorem PdoStep.mapsOk {w w' : World σ} (h : PdoStep w w') (hok : MapsOk w.node) :
    MapsOk w'.node := by
  refine ⟨fun i => ?_, fun i => ?_⟩
  · rw [h.tpdo i]
    exact hok.tpdo i
  · rw [h.rpdo i]
    exact hok.rpdo i

theorem TpdoOnly.pdoStep {w w' : World σ} (h : TpdoOnly w w') : PdoStep w w' := by
  obtain ⟨new, hnew, hby⟩ := h.grows
  obtain ⟨new', hnew', hin⟩ := h.inBounds
  obtain rfl : new = new' := List.append_cancel_left (hnew.symm.trans hnew')
  refine ⟨h.spine, CoNode.params_of_withoutTx h.node, fun i => ?_, new, hnew,
    Explained.of_none (fun e he => (hby e he).rpdoEvent_none ?_), hin⟩
  · rw [CoNode.rpdo_of_withoutTx h.node]
  · rintro _ ⟨i, rfl⟩
    exact ⟨by simp, by simp⟩

theorem rpdoApply_pdoStep (hok : MapsOk w.node) (hop : w.node.nmt = .operational)
    (i : Fin coRpdoCount) (data : Vector UInt8 8) (len : Fin 9) :
    PdoStep w (rpdoApply A w i data len) := by
  obtain ⟨reg, hreg⟩ := @rpdoApply_node _ A w hok i data len
  refine ⟨by rw [hreg]; rfl, fun j => by rw [hreg], fun j => by rw [hreg], ?_⟩
  by_cases hlen : mapLength (w.node.rpdo i).entries ≤ len
  · obtain ⟨-, hout⟩ := @rpdoApply_long _ A w i data len hok hlen
    have hevents : rpdoEvents (⟨w.node.nmt, .apply i data len⟩ ::
        writeEffects w.node.nmt i data.toList 0 (w.node.rpdo i).entries) =
          .apply i data len :: w.node.applied i data len := by
      rw [CoNode.applied, if_pos hlen, slices_take hlen, ← List.drop_zero (l := data.toList),
        ← rpdoEvents_writeEffects w.node.nmt]
      rfl
    refine ⟨_, hout, ?_, ?_⟩
    · rw [Explained, hevents, CoNode.applied, if_pos hlen]
      simp [CoNode.caused, CoNode.applied, hlen, List.flatMap_map]
    · rw [List.forall_mem_cons]
      refine ⟨trivial, writeEffects_inBounds ?_⟩
      have := len.isLt
      omega
  · obtain ⟨-, ok, hout⟩ := @rpdoApply_short _ A w i data len hop (not_le.mp hlen)
    refine ⟨_, hout, ?_, ?_⟩
    · simp [Explained, rpdoEvents, Act.rpdoEvent?, CoNode.caused, CoNode.applied, hlen,
        emcyFrame_code]
    · simp [Act.InBounds, Buffer.size]

theorem syncRpdo_pdoStep (hok : MapsOk w.node) (hop : w.node.nmt = .operational)
    (i : Fin coRpdoCount) : PdoStep w (syncRpdo A w i) := by
  simp only [syncRpdo]
  split
  · have hclear : PdoStep w
        { w with node := w.node.setRpdo i { w.node.rpdo i with pending := false } } := by
      refine ⟨rfl, fun _ => rfl, fun j => ?_, [], by simp, Explained.of_none (by simp), by simp⟩
      by_cases hj : j = i
      · subst hj
        rw [CoNode.setRpdo_self]
      · rw [CoNode.setRpdo_of_ne _ hj]
    exact hclear.trans (rpdoApply_pdoStep (hclear.mapsOk hok) hop i _ _)
  · exact PdoStep.refl w

theorem syncRx_pdoStep (hok : MapsOk w.node) : PdoStep w (syncRx A w) := by
  rw [syncRx]
  split
  · exact PdoStep.refl w
  · next hop =>
    have htx : PdoStep w ((List.finRange coTpdoCount).foldl (syncTpdo A) w) :=
      (TpdoOnly.foldl (fun w i => syncTpdo_only i) _).pdoStep
    suffices hrx : ∀ (is : List (Fin coRpdoCount)) (w' : World σ), PdoStep w w' →
        PdoStep w (is.foldl (syncRpdo A) w') from hrx _ _ htx
    intro is
    induction is with
    | nil => exact fun _ h => h
    | cons i is ih =>
      intro w' h
      have hop' : w'.node.nmt = .operational :=
        (CoNode.nmt_of_spine h.spine).trans (not_not.mp hop)
      exact ih _ (h.trans (syncRpdo_pdoStep (h.mapsOk hok) hop' i))

theorem pdoRx_pdoStep (hok : MapsOk w.node) (f : CoFrame) : PdoStep w (pdoRx A w f).2 := by
  simp only [pdoRx]
  split
  · split
    · dsimp only
      split
      · exact (tpdoSend_only _).pdoStep
      · exact PdoStep.refl w
    · exact PdoStep.refl w
  split
  · next i _ =>
    split
    · exact PdoStep.refl w
    next hop =>
    split
    · refine ⟨rfl, fun _ => rfl, fun j => ?_, [], by simp, Explained.of_none (by simp), by simp⟩
      by_cases hj : j = i
      · subst hj
        rw [CoNode.setRpdo_self]
      · rw [CoNode.setRpdo_of_ne _ hj]
    · exact rpdoApply_pdoStep hok (not_not.mp hop) i _ _
  · exact PdoStep.refl w

-- ════════════════════════════════════════════════════════════════════════
-- Steps and runs
-- ════════════════════════════════════════════════════════════════════════

theorem sdoRx_mapsOk (hok : MapsOk w.node) (f : CoFrame) : MapsOk (sdoRx A w f).node := by
  rw [sdoRx]
  split
  · exact hok
  obtain ⟨n, hn, hnode⟩ := sdoServe_node (A := A) (w := w) f.request
  rw [hnode]
  exact (hn.mapsOk hok).congr (fun _ => rfl) rfl

theorem nmtCommand_mapsOk (hok : MapsOk w.node) (cmd : NmtCmd) :
    MapsOk (nmtCommand A w cmd).node := by
  cases cmd with
  | start =>
    simp only [nmtCommand, nmtSet_node]
    exact hok.congr (fun _ => rfl) rfl
  | stop =>
    simp only [nmtCommand, sdoIdle, nmtSet_node]
    exact hok.congr (fun _ => rfl) rfl
  | preop =>
    simp only [nmtCommand, nmtSet_node]
    exact hok.congr (fun _ => rfl) rfl
  | resetNode => exact nodeReset_mapsOk true
  | resetComm => exact nodeReset_mapsOk false

theorem nmtRx_mapsOk (hok : MapsOk w.node) (f : CoFrame) : MapsOk (nmtRx A w f).node := by
  rw [nmtRx]
  split
  · split
    · exact nmtCommand_mapsOk hok _
    · exact hok
  · exact hok

theorem coRx_mapsOk (hok : MapsOk w.node) (f : CoFrame) (nowMs : UInt32) :
    MapsOk (coRx A w f nowMs).node := by
  have hat : MapsOk (atTime w nowMs).node := hok.congr (fun _ => rfl) rfl
  have hnote : ∀ {w' : World σ}, MapsOk w'.node → MapsOk (masterNote w').node :=
    fun h => h.congr (fun _ => rfl) rfl
  simp only [coRx]
  split
  · refine nmtRx_mapsOk ?_ f
    split
    · exact hnote hat
    · exact hat
  split
  · exact hat
  split
  · exact (syncRx_pdoStep (hnote hat)).mapsOk (hnote hat)
  split
  · exact hat
  split
  · exact sdoRx_mapsOk (hnote hat) f
  split
  · exact hnote ((pdoRx_pdoStep hat f).mapsOk hat)
  · exact (pdoRx_pdoStep hat f).mapsOk hat

theorem coTick_mapsOk (hok : MapsOk w.node) (nowMs : UInt32) : MapsOk (coTick A w nowMs).node := by
  refine tpdoTick_only.mapsOk ?_
  obtain ⟨hb, flag, hnode⟩ := @heartbeatTick_node _ A (atTime w nowMs)
  have hbeat : MapsOk (heartbeatTick A (atTime w nowMs)).node := by
    rw [hnode]
    exact hok.congr (fun _ => rfl) rfl
  rw [sdoTimeout]
  split
  · exact hbeat.congr (fun _ => rfl) rfl
  · exact hbeat

theorem coCall_mapsOk (hok : MapsOk w.node) (c : CoCall σ) : MapsOk (coCall A w c).node := by
  cases c with
  | rx f nowMs => exact coRx_mapsOk hok f nowMs
  | tick nowMs => exact coTick_mapsOk hok nowMs
  | emcy code errBits mfr =>
    rw [coCall, coEmcy_node]
    exact hok.congr (fun _ => rfl) rfl
  | owner c => exact ownerCall_mapsOk hok c
  | world g => exact hok

theorem coRun_mapsOk (cfg : CoConfig) (nowMs : UInt32) (app : σ) (calls : List (CoCall σ)) :
    MapsOk (coRun A cfg nowMs app calls).node := by
  refine Machine.run_invariant (coStep A) (P := fun w => MapsOk w.node) ?_ ?_ calls
  · exact fun w c hok => coCall_mapsOk (w := { w with out := [] }) hok c
  · exact (nodeReset_mapsOk true).congr (fun _ => rfl) rfl

/-- The trace grows so that every RPDO event belongs to a frame that was applied, and the
    copies stay inside their buffers, in the SDO buffer if `safe`. -/
def Recorded (n : CoNode) (safe : Prop) (w w' : World σ) : Prop :=
  ∃ new, w'.out = w.out ++ new ∧ Explained n new ∧
    ∀ e ∈ new, (e.act.OnSdo → safe) → e.act.InBounds

section Recorded

variable {n : CoNode} {safe : Prop} {w' : World σ}

theorem Recorded.refl (n : CoNode) (safe : Prop) (w : World σ) : Recorded n safe w w :=
  ⟨[], by simp, Explained.of_none (by simp), by simp⟩

theorem PdoStep.recorded (h : PdoStep w w') (safe : Prop) : Recorded w.node safe w w' := by
  obtain ⟨new, hnew, hexp, hin⟩ := h.out
  exact ⟨new, hnew, hexp, fun e he _ => hin e he⟩

theorem GrowsBy.owner_recorded {nmt : NmtState} (h : GrowsBy nmt {.owner} w w') (n : CoNode)
    (safe : Prop) : Recorded n safe w w' := by
  obtain ⟨new, hnew, hby⟩ := id h
  obtain ⟨new', hnew', hin⟩ := h.owner_inBounds
  obtain rfl : new = new' := List.append_cancel_left (hnew.symm.trans hnew')
  refine ⟨new, hnew, Explained.of_none (fun e he => (hby e he).rpdoEvent_none ?_),
    fun e he _ => hin e he⟩
  rintro _ rfl
  exact ⟨by simp, by simp⟩

theorem Served.recorded {cs : List OdCall} {d : List UInt8} (h : Served safe w w' cs d)
    (n : CoNode) :
    Recorded n safe w w' := by
  obtain ⟨new, ok, hnew, hall, -⟩ := h.out
  refine ⟨new ++ [_], by rw [hnew, List.append_assoc], Explained.append (Explained.of_none ?_)
    (Explained.of_none (by simp [Act.rpdoEvent?])), ?_⟩
  · refine fun e he => (hall e he).by_sdo.rpdoEvent_none ?_
    rintro _ rfl
    exact ⟨by simp, by simp⟩
  · intro e he
    rcases List.mem_append.mp he with he | he
    · exact (hall e he).inBounds
    · obtain rfl := List.mem_singleton.mp he
      exact fun _ => trivial

end Recorded

theorem sdoRx_recorded (f : CoFrame) (n : CoNode) :
    Recorded n (Safe A w.node.sdo) w (sdoRx A w f) := by
  rw [sdoRx]
  split
  · exact Recorded.refl _ _ w
  by_cases h4 : f.request.ccs = 4
  · rw [sdoServe_clientAbort h4]
    exact Recorded.refl _ _ w
  · obtain ⟨d, hserved⟩ := sdoServe_served (A := A) (w := w) h4
    exact hserved.recorded n

theorem nmtRx_recorded (f : CoFrame) (n : CoNode) (safe : Prop) :
    Recorded n safe w (nmtRx A w f) := by
  rw [nmtRx]
  split
  · split
    · next cmd _ => exact (nmtCommand_growsBy cmd).owner_recorded n safe
    · exact Recorded.refl _ _ w
  · exact Recorded.refl _ _ w

theorem coRx_recorded (hok : MapsOk w.node) (f : CoFrame) (nowMs : UInt32) :
    Recorded w.node (Safe A w.node.sdo) w (coRx A w f nowMs) := by
  have hat : MapsOk (atTime w nowMs).node := hok.congr (fun _ => rfl) rfl
  have hnote : MapsOk (masterNote (atTime w nowMs)).node := hok.congr (fun _ => rfl) rfl
  simp only [coRx]
  split
  · split
    · exact nmtRx_recorded (w := masterNote (atTime w nowMs)) f _ _
    · exact nmtRx_recorded (w := atTime w nowMs) f _ _
  split
  · exact Recorded.refl _ _ w
  split
  · exact (syncRx_pdoStep hnote).recorded _
  split
  · exact Recorded.refl _ _ w
  split
  · exact sdoRx_recorded (w := masterNote (atTime w nowMs)) f _
  split
  · exact (pdoRx_pdoStep hat f).recorded _
  · exact (pdoRx_pdoStep hat f).recorded _

/-- The timeout reply leaves the buffer alone. -/
theorem sdoTimeout_grows {P : Effect → Prop}
    (hcopy : ∀ n, n ≤ 8 → P ⟨w.node.nmt, .copy .frame 0 n⟩)
    (hsend : w.node.sdo.TimedOut w.node.nowMs → ∀ f ok, P ⟨w.node.nmt, .send .sdo f ok⟩) :
    Grows P w.out (sdoTimeout A w).out := by
  rw [sdoTimeout]
  split
  · next h =>
    change Grows P w.out (tx A w .sdo _ _).2.out
    rw [tx_out]
    refine (Grows.refl _ _).append ?_
    simp only [List.forall_mem_cons, List.not_mem_nil, false_imp_iff, implies_true, and_true]
    exact ⟨hcopy _ (min_le_right _ _), hsend h _ _⟩
  · exact Grows.refl _ _

theorem coTick_inBounds (nowMs : UInt32) : GrowsInBounds w (coTick A w nowMs) := by
  have hbeat : GrowsInBounds w (heartbeatTick A (atTime w nowMs)) :=
    heartbeatTick_inBounds (w := atTime w nowMs)
  refine (hbeat.trans (sdoTimeout_grows ?_ ?_)).trans tpdoTick_only.inBounds
  · intro n hn
    simpa [Act.InBounds, Buffer.size] using hn
  · exact fun _ _ _ => trivial

/-- Every copy of a call stays inside its buffer, in the SDO buffer as far as its indices
    are good. -/
theorem coCall_inBounds (hok : MapsOk w.node) (c : CoCall σ) :
    Grows (fun e => (e.act.OnSdo → Safe A w.node.sdo) → e.act.InBounds) w.out
    (coCall A w c).out := by
  cases c with
  | rx f nowMs =>
    obtain ⟨new, hnew, -, hin⟩ := coRx_recorded (A := A) hok f nowMs
    exact ⟨new, hnew, hin⟩
  | tick nowMs => exact (coTick_inBounds nowMs).mono (fun e he _ => he)
  | emcy code errBits mfr => exact coEmcy_inBounds.mono (fun e he _ => he)
  | owner c => exact ((ownerCall_spec c).2.owner_inBounds).mono (fun e he _ => he)
  | world g => exact Grows.refl _ _

/-- Calls other than a received frame apply no RPDO. -/
theorem coCall_noRpdo {c : CoCall σ} (hc : ∀ f nowMs, c ≠ .rx f nowMs) :
    Grows (fun e => ∀ ev, e.act.rpdoEvent? = some ev → ∃ code, ev = .emcy code) w.out
      (coCall A w c).out := by
  have hnone : ∀ {S : Set Part} {nmt : NmtState} {e : Effect}, By nmt S e →
      (∀ p ∈ S, p ≠ .emcy ∧ ∀ i, p ≠ .rpdo i) →
      ∀ ev, e.act.rpdoEvent? = some ev → ∃ code, ev = .emcy code := by
    intro S nmt e he hS ev hev
    rw [he.rpdoEvent_none hS] at hev
    exact absurd hev (by simp)
  cases c with
  | rx f nowMs => exact absurd rfl (hc f nowMs)
  | tick nowMs =>
    have hbeat : GrowsBy (atTime w nowMs).node.nmt {.heartbeat} w
        (heartbeatTick A (atTime w nowMs)) := heartbeatTick_growsBy (w := atTime w nowMs)
    refine ((hbeat.mono ?_).trans (sdoTimeout_grows ?_ ?_)).trans (tpdoTick_only.grows.mono ?_)
    · exact fun e he => hnone he (by rintro _ rfl; exact ⟨by simp, by simp⟩)
    · exact fun n _ => by simp [Act.rpdoEvent?]
    · exact fun _ f ok => by simp [Act.rpdoEvent?]
    · exact fun e he => hnone he (by rintro _ ⟨i, rfl⟩; exact ⟨by simp, by simp⟩)
  | emcy code errBits mfr =>
    refine coEmcy_growsBy.mono ?_
    rintro ⟨nmt, act⟩ ⟨-, p, hp, hact⟩ ev hev
    obtain rfl : p = .emcy := hp
    cases act with
    | send kind f ok =>
      obtain rfl : kind = .emcy := hact
      exact ⟨_, (Option.some.inj hev).symm⟩
    | read | write | apply => exact absurd hact (by simp [Part.allows])
    | copy => exact absurd hev (by simp [Act.rpdoEvent?])
  | owner c =>
    exact (ownerCall_spec c).2.mono
      (fun e he => hnone he (by rintro _ rfl; exact ⟨by simp, by simp⟩))
  | world g => exact Grows.refl _ _

/-- The slices of a long enough frame have the mapped lengths. -/
theorem slices_lengths {data : List UInt8} {es : List UInt32} (h : mapLength es ≤ data.length) :
    (slices data es).map (fun c => c.bytes.length) = es.map entryLen := by
  induction es generalizing data with
  | nil => rfl
  | cons e es ih =>
    have hcons : entryLen e + mapLength es ≤ data.length := by simpa [mapLength] using h
    have hrest : mapLength es ≤ (data.drop (entryLen e)).length := by
      rw [List.length_drop]
      omega
    rw [slices, List.map_cons, List.map_cons, List.length_take, min_eq_left (by omega), ih hrest]

end Fountainer.Canopen
