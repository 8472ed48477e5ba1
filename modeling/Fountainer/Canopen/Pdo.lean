import Fountainer.Canopen.ObjectDict

/-!
# The PDO engine

Part 4 of `co_core.c`: building and sending TPDOs, buffering and applying RPDOs, the
SYNC consumer, and the emergency message that a short RPDO raises.
-/

namespace Fountainer.Canopen

open Bytes (leU16)

variable {σ : Type*} (A : App σ)

/-- The loop of `tpdo_build` over the entries, with the bytes placed so far. -/
def tpdoBuildFrom : World σ → List UInt8 → List UInt32 → Option (List UInt8) × World σ
  | w, data, [] => (some data, w)
  | w, data, e :: es =>
    let r := odRead A w (entryIndex e) (entrySub e) coSdoBufSize
    if r.1.code ≠ 0 ∨ r.1.bytes.length ≠ entryLen e ∨ 8 < data.length + entryLen e then (none, r.2)
    else tpdoBuildFrom (r.2.emit (.copy .frame data.length (entryLen e))) (data ++ r.1.bytes) es

/-- `tpdo_build`: the data of the PDO, or `none` if a mapped object cannot be read. -/
def tpdoBuild (w : World σ) (p : TpdoParams) : Option (List UInt8) × World σ :=
  tpdoBuildFrom A w [] p.entries

/-- `tpdo_send`. -/
def tpdoSend (w : World σ) (i : Fin coTpdoCount) : World σ :=
  let p := w.node.tpdo i
  let r := tpdoBuild A w p.toTpdoParams
  match r.1 with
  | none => r.2
  | some data =>
    let s := tx A r.2 (.tpdo i) (p.cobId &&& 0x7FF).toUInt16 data
    if s.1 then
      let p' := { p with
        lastTxMs := s.2.node.nowMs, haveLast := true, lastData := data, syncCount := 0 }
      { s.2 with node := s.2.node.setTpdo i p' }
    else s.2

/-- `tpdo_enabled`. -/
def TpdoParams.enabled (p : TpdoParams) : Bool := p.cobId &&& cobIdInvalid == 0 && 0 < p.mapCount

/-- `tpdo_changed`. -/
def tpdoChanged (w : World σ) (i : Fin coTpdoCount) : Bool × World σ :=
  let p := w.node.tpdo i
  let r := tpdoBuild A w p.toTpdoParams
  match r.1 with
  | none => (false, r.2)
  | some data => (!p.haveLast || p.lastData != data, r.2)

/-- One turn of `tpdo_tick`: inhibit time, event timer, change. -/
def tpdoTickOne (w : World σ) (i : Fin coTpdoCount) : World σ :=
  let p := w.node.tpdo i
  if ¬ p.enabled ∨ p.transType < 254 then w
  else
    let since := w.node.nowMs - p.lastTxMs
    let inhibitMs := (p.inhibit100us.toUInt32 + 9) / 10
    if p.haveLast ∧ since < inhibitMs then w
    else if p.eventMs ≠ 0 ∧ (¬ p.haveLast ∨ p.eventMs.toUInt32 ≤ since) then tpdoSend A w i
    else
      let r := tpdoChanged A w i
      if r.1 then tpdoSend A r.2 i else r.2

/-- `tpdo_tick`. -/
def tpdoTick (w : World σ) : World σ :=
  if w.node.nmt ≠ .operational then w
  else (List.finRange coTpdoCount).foldl (tpdoTickOne A) w

/-- `co_emcy`. -/
def coEmcy (w : World σ) (code : UInt16) (errBits : UInt8) (mfr : Option (Vector UInt8 5)) :
    World σ :=
  let reg :=
    if code = 0 then w.node.errorRegister &&& ~~~errBits else w.node.errorRegister ||| errBits
  let w := { w with node := { w.node with errorRegister := reg } }
  if w.node.nmt = .stopped ∨ w.node.nmt = .initialising then w
  else
    let d := leU16 code ++ [reg] ++ (mfr.map Vector.toList).getD (List.replicate 5 0)
    (tx A w .emcy (0x080 + w.node.cfg.nodeId.toUInt16) d).2

/-- The bytes that a mapping needs. -/
def mapLength (entries : List UInt32) : ℕ := (entries.map entryLen).sum

/-- The write loop of `rpdo_apply`, over the positions that are left. It reads the
    mapping of the RPDO at every turn. -/
def rpdoWriteFrom (i : Fin coRpdoCount) (data : List UInt8) :
    World σ → ℕ → List (Fin coPdoMapMax) → World σ
  | w, _, [] => w
  | w, pos, k :: ks =>
    if k.val < (w.node.rpdo i).mapCount.toNat then
      let e := (w.node.rpdo i).map k
      let w := w.emit (.copy .frame pos (entryLen e))
      let r := odWrite A w (.rpdo i) (entryIndex e) (entrySub e) ((data.drop pos).take (entryLen e))
      rpdoWriteFrom i data r.2 (pos + entryLen e) ks
    else w

/-- `rpdo_apply`: a PDO shorter than its mapping is reported and not processed. -/
def rpdoApply (w : World σ) (i : Fin coRpdoCount) (data : Vector UInt8 8) (len : Fin 9) : World σ :=
  let w := w.emit (.apply i data len)
  if len < mapLength (w.node.rpdo i).entries then coEmcy A w 0x8210 0x01
    (some (Vector.replicate 5 0))
  else rpdoWriteFrom A i data.toList w 0 (List.finRange coPdoMapMax)

/-- The turn of `sync_rx` for a TPDO. -/
def syncTpdo (w : World σ) (i : Fin coTpdoCount) : World σ :=
  let p := w.node.tpdo i
  if ¬ p.enabled ∨ 240 < p.transType then w
  else if p.transType = 0 then
    let r := tpdoChanged A w i
    if r.1 then tpdoSend A r.2 i else r.2
  else
    let p' := { p with syncCount := p.syncCount + 1 }
    let w := { w with node := w.node.setTpdo i p' }
    if p.transType ≤ p'.syncCount then tpdoSend A w i else w

/-- The turn of `sync_rx` for an RPDO. -/
def syncRpdo (w : World σ) (i : Fin coRpdoCount) : World σ :=
  let p := w.node.rpdo i
  if p.pending then
    rpdoApply A { w with node := w.node.setRpdo i { p with pending := false } } i p.data p.len
  else w

/-- `sync_rx`. -/
def syncRx (w : World σ) : World σ :=
  if w.node.nmt ≠ .operational then w
  else
    (List.finRange coRpdoCount).foldl (syncRpdo A)
      ((List.finRange coTpdoCount).foldl (syncTpdo A) w)

/-- The RPDO is valid, mapped and listens to this identifier. -/
def RpdoParams.listens (p : RpdoParams) (id : UInt16) : Bool :=
  p.cobId &&& cobIdInvalid == 0 && p.mapCount != 0 && (p.cobId &&& 0x7FF) == id.toUInt32

/-- The TPDO is enabled and sent under this identifier. -/
def TpdoParams.answers (p : TpdoParams) (id : UInt16) : Bool :=
  p.enabled && (p.cobId &&& 0x7FF) == id.toUInt32

/-- `pdo_rx`: whether the frame was for a PDO of this node. -/
def pdoRx (w : World σ) (f : CoFrame) : Bool × World σ :=
  if f.rtr then
    match (List.finRange coTpdoCount).find? (fun i => (w.node.tpdo i).answers f.id) with
    | some i => (true, if w.node.nmt = .operational then tpdoSend A w i else w)
    | none => (false, w)
  else
    match (List.finRange coRpdoCount).find? (fun i => (w.node.rpdo i).listens f.id) with
    | some i =>
      let p := w.node.rpdo i
      if w.node.nmt ≠ .operational then (true, w)
      else if p.transType ≤ 240 then
        let p' := { p with pending := true, len := f.dlc, data := f.data }
        (true, { w with node := w.node.setRpdo i p' })
      else (true, rpdoApply A w i f.data f.dlc)
    | none => (false, w)

end Fountainer.Canopen
