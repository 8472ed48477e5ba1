import Fountainer.Canopen.Types

/-!
# The object dictionary

Parts 1 to 3 of `co_core.c`: sending a frame, the communication-profile objects that the
core serves itself, and the dispatch to the application. Of the writable objects only
the mapping counts call back, because `map_validate` reads every object it maps.
-/

namespace Fountainer.Canopen

open Bytes (Mem CString leU16 leU32)

/-- `co_get_u16`. -/
def coGetU16 (p : List UInt8) : UInt16 := Bytes.rdU16 (fun i => p.getD i 0) 0

/-- `co_get_u32`. -/
def coGetU32 (p : List UInt8) : UInt32 := Bytes.rdU32 (fun i => p.getD i 0) 0

/-- A data frame with at most eight of the given bytes, padded with zeros. -/
def CoFrame.ofBytes (id : UInt16) (bytes : List UInt8) : CoFrame where
  id := id &&& 0x7FF
  dlc := ⟨min bytes.length 8, by omega⟩
  rtr := false
  data := Vector.ofFn (fun i => bytes.getD i 0)

section Answers

variable (cap : ℕ)

/-- An answer of `od_read` that is an abort code. -/
def OdRead.abort (code : UInt32) : OdRead := { code, bytes := [] }

/-- A value as the answer of `od_read`, when the buffer has room for it. -/
def OdRead.value (bytes : List UInt8) : OdRead :=
  if cap < bytes.length then .abort abortOutOfMemory else { code := 0, bytes }

/-- `rd_u8`. -/
def rdU8 (v : UInt8) : OdRead := .value cap [v]

/-- `rd_u16`. -/
def rdU16 (v : UInt16) : OdRead := .value cap (leU16 v)

/-- `rd_u32`. -/
def rdU32 (v : UInt32) : OdRead := .value cap (leU32 v)

/-- `rd_str`. -/
def rdStr (s : Option CString) : OdRead :=
  .value cap ((s.map (fun s => s.bytes.take (coStrMax - 1))).getD [])

end Answers

/-- `is_internal_index`. -/
def isInternalIndex (index : UInt16) : Bool := 0x1000 ≤ index && index < 0x2000

/-- The PDO that an index names, where the records of this kind start at `base`. -/
def pdoOf (base count : ℕ) (index : UInt16) : Option (Fin count) :=
  if h : base ≤ index.toNat ∧ index.toNat < base + count then some ⟨index.toNat - base, by omega⟩
  else none

/-- A mapping entry that a sub-index names. -/
def mapSub (sub : UInt8) : Option (Fin coPdoMapMax) :=
  if h : 1 ≤ sub.toNat ∧ sub.toNat ≤ coPdoMapMax then some ⟨sub.toNat - 1, by omega⟩ else none

/-- Sub-index 0 of an object without others. -/
def OdRead.single (sub : UInt8) (r : OdRead) : OdRead :=
  if sub ≠ 0 then .abort abortNoSubindex else r

/-- A mapping record. -/
def readMap (cap : ℕ) (sub : UInt8) (count : UInt8) (map : Fin coPdoMapMax → UInt32) : OdRead :=
  if sub = 0 then rdU8 cap count
  else
    match mapSub sub with
    | some k => rdU32 cap (map k)
    | none => .abort abortNoSubindex

/-- `od_internal_read`. -/
def odInternalRead (node : CoNode) (index : UInt16) (sub : UInt8) (cap : ℕ) : OdRead :=
  let c := node.cfg
  if index = 0x1000 then .single sub (rdU32 cap c.deviceType)
  else if index = 0x1001 then .single sub (rdU8 cap node.errorRegister)
  else if index = 0x1005 then .single sub (rdU32 cap 0x080)
  else if index = 0x1008 then .single sub (rdStr cap c.deviceName)
  else if index = 0x1009 then .single sub (rdStr cap c.hwVersion)
  else if index = 0x100A then .single sub (rdStr cap c.swVersion)
  else if index = 0x1014 then .single sub (rdU32 cap (0x080 + c.nodeId.toUInt32))
  else if index = 0x1017 then .single sub (rdU16 cap c.heartbeatMs)
  else if index = 0x1018 then
    if sub = 0 then rdU8 cap 4
    else if sub = 1 then rdU32 cap c.vendorId
    else if sub = 2 then rdU32 cap c.productCode
    else if sub = 3 then rdU32 cap c.revision
    else if sub = 4 then rdU32 cap c.serial
    else .abort abortNoSubindex
  else if index = 0x1200 then
    if sub = 0 then rdU8 cap 2
    else if sub = 1 then rdU32 cap (0x600 + c.nodeId.toUInt32)
    else if sub = 2 then rdU32 cap (0x580 + c.nodeId.toUInt32)
    else .abort abortNoSubindex
  else
    match pdoOf 0x1400 coRpdoCount index, pdoOf 0x1600 coRpdoCount index,
      pdoOf 0x1800 coTpdoCount index, pdoOf 0x1A00 coTpdoCount index with
    | some i, _, _, _ =>
      let p := node.rpdo i
      if sub = 0 then rdU8 cap 2
      else if sub = 1 then rdU32 cap p.cobId
      else if sub = 2 then rdU8 cap p.transType
      else .abort abortNoSubindex
    | none, some i, _, _ => readMap cap sub (node.rpdo i).mapCount (node.rpdo i).map
    | none, none, some i, _ =>
      let p := node.tpdo i
      if sub = 0 then rdU8 cap 5
      else if sub = 1 then rdU32 cap p.cobId
      else if sub = 2 then rdU8 cap p.transType
      else if sub = 3 then rdU16 cap p.inhibit100us
      else if sub = 4 then rdU8 cap 0
      else if sub = 5 then rdU16 cap p.eventMs
      else .abort abortNoSubindex
    | none, none, none, some i => readMap cap sub (node.tpdo i).mapCount (node.tpdo i).map
    | none, none, none, none => .abort abortNoObject

/-- The object that a mapping entry names. -/
def entryIndex (e : UInt32) : UInt16 := (e >>> 16).toUInt16

/-- The sub-index that a mapping entry names. -/
def entrySub (e : UInt32) : UInt8 := (e >>> 8).toUInt8

/-- The bit length of a mapping entry. -/
def entryBits (e : UInt32) : ℕ := e.toUInt8.toNat

/-- The byte length of a mapping entry. -/
def entryLen (e : UInt32) : ℕ := entryBits e / 8

/-- The first `count` entries of a mapping. -/
def mapEntries (map : Fin coPdoMapMax → UInt32) (count : UInt8) : List UInt32 :=
  (List.ofFn map).take count.toNat

/-- The active entries of a TPDO. -/
def TpdoParams.entries (p : TpdoParams) : List UInt32 := mapEntries p.map p.mapCount

/-- The active entries of an RPDO. -/
def RpdoParams.entries (p : RpdoParams) : List UInt32 := mapEntries p.map p.mapCount

/-- The node with the TPDO `i` replaced. -/
def CoNode.setTpdo (n : CoNode) (i : Fin coTpdoCount) (p : CoTpdo) : CoNode :=
  { n with tpdo := Function.update n.tpdo i p }

@[simp] theorem CoNode.setTpdo_self (n : CoNode) (i : Fin coTpdoCount) (p : CoTpdo) :
    (n.setTpdo i p).tpdo i = p :=
  Function.update_self _ _ _

@[simp] theorem CoNode.setTpdo_of_ne (n : CoNode) {i j : Fin coTpdoCount} (h : j ≠ i) (p : CoTpdo) :
    (n.setTpdo i p).tpdo j = n.tpdo j :=
  Function.update_of_ne h _ _

/-- The node with the RPDO `i` replaced. -/
def CoNode.setRpdo (n : CoNode) (i : Fin coRpdoCount) (p : CoRpdo) : CoNode :=
  { n with rpdo := Function.update n.rpdo i p }

@[simp] theorem CoNode.setRpdo_self (n : CoNode) (i : Fin coRpdoCount) (p : CoRpdo) :
    (n.setRpdo i p).rpdo i = p :=
  Function.update_self _ _ _

@[simp] theorem CoNode.setRpdo_of_ne (n : CoNode) {i j : Fin coRpdoCount} (h : j ≠ i) (p : CoRpdo) :
    (n.setRpdo i p).rpdo j = n.rpdo j :=
  Function.update_of_ne h _ _

/-- The check of a new COB-ID: it may change only while the PDO is invalid. -/
def cobIdCheck (old v : UInt32) : UInt32 :=
  if old &&& cobIdInvalid = 0 ∧ v &&& cobIdInvalid = 0 ∧ (v ^^^ old) &&& 0x7FF ≠ 0 then
    abortParamIncompat
  else if v &&& 0x7FF = 0 then abortValueRange
  else 0

/-- The indices that may be read only. -/
def readOnlyIndices : List UInt16 :=
  [0x1000, 0x1001, 0x1005, 0x1008, 0x1009, 0x100A, 0x1014, 0x1018, 0x1200]

section

variable {σ : Type*} (A : App σ)

/-- `tx`: the frame handed to the driver. -/
def tx (w : World σ) (kind : TxKind) (id : UInt16) (data : List UInt8) : Bool × World σ :=
  let f := CoFrame.ofBytes id data
  let w := w.emit (.copy .frame 0 f.dlc)
  let r := A.send w.app f
  (r.1, { w with app := r.2 }.emit (.send kind f r.1))

/-- `nmt_set`. -/
def nmtSet (w : World σ) (new : NmtState) : World σ :=
  let old := w.node.nmt
  if old = new then w
  else { w with node := { w.node with nmt := new }, app := A.onNmtChanged w.app old new }

/-- `od_read`. -/
def odRead (w : World σ) (index : UInt16) (sub : UInt8) (cap : ℕ) : OdRead × World σ :=
  let w := w.emit (.read index sub)
  if isInternalIndex index then (odInternalRead w.node index sub cap, w)
  else
    let r := A.odRead w.app index sub cap
    (r.1, { w with app := r.2 })

/-- The loop of `map_validate` over the entries, with the bits summed so far. -/
def mapValidateFrom (forTx : Bool) : World σ → ℕ → List UInt32 → UInt32 × World σ
  | w, _, [] => (0, w)
  | w, total, e :: es =>
    if entryBits e ∉ [8, 16, 32, 64] then (abortPdoMap, w)
    else if 64 < total + entryBits e then (abortPdoLength, w)
    else
      let r := odRead A w (entryIndex e) (entrySub e) coSdoBufSize
      if r.1.code ≠ 0 then (abortPdoMap, r.2)
      else if forTx ∧ r.1.bytes.length ≠ entryLen e then (abortPdoMap, r.2)
      else if ¬ forTx ∧ entryIndex e < 0x2000 then (abortPdoMap, r.2)
      else mapValidateFrom forTx r.2 (total + entryBits e) es

/-- `map_validate`. -/
def mapValidate (w : World σ) (map : List UInt32) (forTx : Bool) : UInt32 × World σ :=
  mapValidateFrom A forTx w 0 map

/-- The write of an RPDO communication record. -/
def writeRpdoComm (w : World σ) (i : Fin coRpdoCount) (sub : UInt8) (buf : List UInt8) :
    UInt32 × World σ :=
  let p := w.node.rpdo i
  if sub = 0 then (abortReadOnly, w)
  else if sub = 1 then
    if buf.length ≠ 4 then (abortTypeMismatch, w)
    else
      let v := coGetU32 buf
      if cobIdCheck p.cobId v ≠ 0 then (cobIdCheck p.cobId v, w)
      else
        let p' := { p with cobId := v &&& (cobIdInvalid ||| 0x7FF), pending := false }
        (0, { w with node := w.node.setRpdo i p' })
  else if sub = 2 then
    if buf.length ≠ 1 then (abortTypeMismatch, w)
    else
      let v := buf.headD 0
      if 240 < v ∧ v < 254 then (abortValueRange, w)
      else (0, { w with node := w.node.setRpdo i { p with transType := v, pending := false } })
  else (abortNoSubindex, w)

/-- The write of an RPDO mapping record. -/
def writeRpdoMap (w : World σ) (i : Fin coRpdoCount) (sub : UInt8) (buf : List UInt8) :
    UInt32 × World σ :=
  let p := w.node.rpdo i
  if sub = 0 then
    if buf.length ≠ 1 then (abortTypeMismatch, w)
    else
      let v := buf.headD 0
      if coPdoMapMax < v.toNat then (abortValueRange, w)
      else
        let r := mapValidate A w (mapEntries p.map v) false
        if r.1 ≠ 0 then r
        else (0, { r.2 with node := r.2.node.setRpdo i { p with mapCount := v } })
  else
    match mapSub sub with
    | none => (abortNoSubindex, w)
    | some k =>
      if buf.length ≠ 4 then (abortTypeMismatch, w)
      else if p.mapCount ≠ 0 then (abortUnsupported, w)
      else
        let p' := { p with map := Function.update p.map k (coGetU32 buf) }
        (0, { w with node := w.node.setRpdo i p' })

/-- The write of a TPDO communication record. -/
def writeTpdoComm (w : World σ) (i : Fin coTpdoCount) (sub : UInt8) (buf : List UInt8) :
    UInt32 × World σ :=
  let p := w.node.tpdo i
  if sub = 0 then (abortReadOnly, w)
  else if sub = 1 then
    if buf.length ≠ 4 then (abortTypeMismatch, w)
    else
      let v := coGetU32 buf
      if cobIdCheck p.cobId v ≠ 0 then (cobIdCheck p.cobId v, w)
      else
        let p' := { p with cobId := v &&& (cobIdInvalid ||| 0x7FF), haveLast := false }
        (0, { w with node := w.node.setTpdo i p' })
  else if sub = 2 then
    if buf.length ≠ 1 then (abortTypeMismatch, w)
    else
      let v := buf.headD 0
      if 240 < v ∧ v < 252 then (abortValueRange, w)
      else (0, { w with node := w.node.setTpdo i { p with transType := v, syncCount := 0 } })
  else if sub = 3 then
    if buf.length ≠ 2 then (abortTypeMismatch, w)
    else (0, { w with node := w.node.setTpdo i { p with inhibit100us := coGetU16 buf } })
  else if sub = 4 then (abortReadOnly, w)
  else if sub = 5 then
    if buf.length ≠ 2 then (abortTypeMismatch, w)
    else (0, { w with node := w.node.setTpdo i { p with eventMs := coGetU16 buf } })
  else (abortNoSubindex, w)

/-- The write of a TPDO mapping record. -/
def writeTpdoMap (w : World σ) (i : Fin coTpdoCount) (sub : UInt8) (buf : List UInt8) :
    UInt32 × World σ :=
  let p := w.node.tpdo i
  if sub = 0 then
    if buf.length ≠ 1 then (abortTypeMismatch, w)
    else
      let v := buf.headD 0
      if coPdoMapMax < v.toNat then (abortValueRange, w)
      else
        let r := mapValidate A w (mapEntries p.map v) true
        if r.1 ≠ 0 then r
        else
          (0, { r.2 with node := r.2.node.setTpdo i { p with mapCount := v, haveLast := false } })
  else
    match mapSub sub with
    | none => (abortNoSubindex, w)
    | some k =>
      if buf.length ≠ 4 then (abortTypeMismatch, w)
      else if p.mapCount ≠ 0 then (abortUnsupported, w)
      else
        let p' := { p with map := Function.update p.map k (coGetU32 buf) }
        (0, { w with node := w.node.setTpdo i p' })

/-- `od_internal_write`. -/
def odInternalWrite (w : World σ) (index : UInt16) (sub : UInt8) (buf : List UInt8) :
    UInt32 × World σ :=
  if index = 0x1017 then
    if sub ≠ 0 then (abortNoSubindex, w)
    else if buf.length ≠ 2 then (abortTypeMismatch, w)
    else
      let cfg := { w.node.cfg with heartbeatMs := coGetU16 buf }
      (0, { w with node := { w.node with cfg, hbLastMs := w.node.nowMs } })
  else if index ∈ readOnlyIndices then (abortReadOnly, w)
  else
    match pdoOf 0x1400 coRpdoCount index, pdoOf 0x1600 coRpdoCount index,
      pdoOf 0x1800 coTpdoCount index, pdoOf 0x1A00 coTpdoCount index with
    | some i, _, _, _ => writeRpdoComm w i sub buf
    | none, some i, _, _ => writeRpdoMap A w i sub buf
    | none, none, some i, _ => writeTpdoComm w i sub buf
    | none, none, none, some i => writeTpdoMap A w i sub buf
    | none, none, none, none => (abortNoObject, w)

/-- `od_write`. -/
def odWrite (w : World σ) (via : Writer) (index : UInt16) (sub : UInt8) (buf : List UInt8) :
    UInt32 × World σ :=
  let w := w.emit (.write via index sub buf)
  if isInternalIndex index then odInternalWrite A w index sub buf
  else
    let r := A.odWrite w.app index sub buf
    (r.1, { w with app := r.2 })

end

end Fountainer.Canopen
