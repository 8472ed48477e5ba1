import Fountainer.Lib.Bytes
import Mathlib.Data.Fintype.Pi

/-!
# Data of the CANopen core

The types of `co_core.h`. The node is a flat record as in the source, with the PDO
parameters kept apart from the runtime fields behind them. The application and the CAN
driver are callbacks; `App` lists them over a state `σ` of their own, so that they may
answer anything and change from call to call. `World` is a node in its surroundings,
and `out` records what the current call did: the frames it sent, its accesses to the
object dictionary and its copies between buffers, each with the NMT state at that time.
-/

namespace Fountainer.Canopen

open Bytes

/-- `co_nmt_state_t`. -/
inductive NmtState where
  | initialising
  | stopped
  | operational
  | preoperational
  deriving DecidableEq, Repr

/-- The state as the heartbeat encodes it. -/
def NmtState.code : NmtState → UInt8
  | .initialising => 0
  | .stopped => 4
  | .operational => 5
  | .preoperational => 127

/-- The states of the SDO server. -/
inductive SdoState where
  | idle
  | uploadSeg
  | downloadSeg
  deriving DecidableEq, Repr

-- The limits and the SDO timeout of `co_core.h`.
abbrev coTpdoCount : ℕ := 4
abbrev coRpdoCount : ℕ := 2
abbrev coPdoMapMax : ℕ := 8
abbrev coSdoBufSize : ℕ := 128
abbrev coStrMax : ℕ := 32
def coSdoTimeoutMs : UInt32 := 1000

/-- `COB_ID_INVALID`: a PDO with this bit is disabled. -/
def cobIdInvalid : UInt32 := 0x80000000

-- The abort codes `CO_ABORT_*` that the core itself raises; 0 is success.
def abortToggle : UInt32 := 0x05030000
def abortTimeout : UInt32 := 0x05040000
def abortCmd : UInt32 := 0x05040001
def abortOutOfMemory : UInt32 := 0x05040005
def abortUnsupported : UInt32 := 0x06010000
def abortReadOnly : UInt32 := 0x06010002
def abortNoObject : UInt32 := 0x06020000
def abortPdoMap : UInt32 := 0x06040041
def abortPdoLength : UInt32 := 0x06040042
def abortParamIncompat : UInt32 := 0x06040043
def abortTypeMismatch : UInt32 := 0x06070010
def abortNoSubindex : UInt32 := 0x06090011
def abortValueRange : UInt32 := 0x06090030

/-- Literals of a data length. -/
instance dataLength_neZero : NeZero 9 := ⟨by decide⟩

/-- `co_frame_t`: a classic frame with at most eight data bytes. -/
structure CoFrame where
  id : UInt16
  dlc : Fin 9
  rtr : Bool
  data : Vector UInt8 8
  deriving DecidableEq

/-- The command byte of the frame. -/
abbrev CoFrame.cmd (f : CoFrame) : UInt8 := f.data[0]

/-- `co_config_t` without the function pointers. `onReset` says whether the reset
    callback is installed. -/
structure CoConfig where
  nodeId : UInt8
  heartbeatMs : UInt16
  deviceType : UInt32
  vendorId : UInt32
  productCode : UInt32
  revision : UInt32
  serial : UInt32
  deviceName : Option CString
  hwVersion : Option CString
  swVersion : Option CString
  onReset : Bool

/-- The parameters of a TPDO that the object dictionary shows. -/
structure TpdoParams where
  cobId : UInt32
  transType : UInt8
  inhibit100us : UInt16
  eventMs : UInt16
  mapCount : UInt8
  map : Fin coPdoMapMax → UInt32

/-- `co_tpdo_t`. The list `lastData` stands for `last_data` up to `last_len`. -/
structure CoTpdo extends TpdoParams where
  lastTxMs : UInt32
  haveLast : Bool
  lastData : List UInt8
  syncCount : UInt8

/-- The parameters of an RPDO that the object dictionary shows. -/
structure RpdoParams where
  cobId : UInt32
  transType : UInt8
  mapCount : UInt8
  map : Fin coPdoMapMax → UInt32
  deriving DecidableEq

/-- `co_rpdo_t`: the parameters and the frame buffered for the next SYNC. -/
structure CoRpdo extends RpdoParams where
  pending : Bool
  len : Fin 9
  data : Vector UInt8 8

/-- The SDO server. The length 0 of a download stands for an unknown length. -/
structure CoSdo where
  state : SdoState
  index : UInt16
  sub : UInt8
  toggle : UInt8
  len : ℕ
  pos : ℕ
  buf : Mem
  lastMs : UInt32

/-- `co_node_t`, less the statistics and the last EMCY code, which the core never reads. -/
structure CoNode where
  cfg : CoConfig
  nmt : NmtState
  errorRegister : UInt8
  nowMs : UInt32
  hbLastMs : UInt32
  bootupPending : Bool
  sdo : CoSdo
  tpdo : Fin coTpdoCount → CoTpdo
  rpdo : Fin coRpdoCount → CoRpdo
  masterSeen : Bool
  lastMasterMs : UInt32

/-- What a frame is sent for. -/
inductive TxKind where
  | bootup
  | heartbeat
  | emcy
  | sdo
  | tpdo (i : Fin coTpdoCount)
  deriving DecidableEq, Repr

/-- Who writes to the object dictionary. -/
inductive Writer where
  | sdo
  | rpdo (i : Fin coRpdoCount)
  deriving DecidableEq, Repr

/-- The buffers of fixed size that bytes are copied into or out of: the SDO buffer and
    the eight bytes of a frame, a reply or a PDO. -/
inductive Buffer where
  | sdo
  | frame
  deriving DecidableEq, Repr

/-- The size of a buffer. -/
def Buffer.size : Buffer → ℕ
  | .sdo => coSdoBufSize
  | .frame => 8

/-- An action of the core on its surroundings or on one of its buffers. -/
inductive Act where
  /-- A frame handed to the driver, and whether the driver took it. -/
  | send (kind : TxKind) (f : CoFrame) (ok : Bool)
  /-- A call of `od_read`. -/
  | read (index : UInt16) (sub : UInt8)
  /-- A call of `od_write` with these bytes. -/
  | write (via : Writer) (index : UInt16) (sub : UInt8) (bytes : List UInt8)
  /-- A call of `rpdo_apply` with the data of a received frame. -/
  | apply (i : Fin coRpdoCount) (data : Vector UInt8 8) (len : Fin 9)
  /-- `n` bytes copied into or out of a buffer, from `off` on. -/
  | copy (b : Buffer) (off n : ℕ)
  deriving DecidableEq

/-- An action and the NMT state in which it happened. -/
structure Effect where
  nmt : NmtState
  act : Act
  deriving DecidableEq

/-- The frame that an action puts on the bus. -/
def Act.sent? : Act → Option CoFrame
  | .send _ f true => some f
  | _ => none

/-- The frames that the driver took, in order. -/
def sentFrames (es : List Effect) : List CoFrame := es.filterMap (fun e => e.act.sent?)

/-- The answer of `od_read`: the abort code, 0 for success, and the bytes it stored. -/
structure OdRead where
  code : UInt32
  bytes : List UInt8

/-- What the owner of the node may call between frames and from the reset callback. -/
inductive OwnerCall where
  | tpdoConfigure (n : UInt8) (cobId : UInt16) (transType : UInt8) (inhibitMs eventMs : UInt16)
      (map : List UInt32)
  | rpdoConfigure (n : UInt8) (cobId : UInt16) (transType : UInt8) (map : List UInt32)
  | tpdoRequest (n : UInt8)
  | heartbeatSet (ms : UInt16)
  /-- The owner sets bits of the error register in the node itself. -/
  | errorRegisterSet (bits : UInt8)

/-- The callbacks of `co_config_t` over a state `σ` of the application and the driver.
    `onReset` lists the calls that the reset callback makes. -/
structure App (σ : Type*) where
  send : σ → CoFrame → Bool × σ
  odRead : σ → UInt16 → UInt8 → ℕ → OdRead × σ
  odWrite : σ → UInt16 → UInt8 → List UInt8 → UInt32 × σ
  onReset : σ → Bool → List OwnerCall × σ
  onNmtChanged : σ → NmtState → NmtState → σ

/-- A node, the state of its surroundings, and the effects of the current call. -/
structure World (σ : Type*) where
  node : CoNode
  app : σ
  out : List Effect

/-- The action `a` recorded. -/
def World.emit {σ : Type*} (w : World σ) (a : Act) : World σ :=
  { w with out := w.out ++ [⟨w.node.nmt, a⟩] }

section Emit

variable {σ : Type*} (w : World σ) (a : Act)

@[simp] theorem World.emit_node : (w.emit a).node = w.node := rfl

@[simp] theorem World.emit_app : (w.emit a).app = w.app := rfl

@[simp] theorem World.emit_out : (w.emit a).out = w.out ++ [⟨w.node.nmt, a⟩] := rfl

end Emit

end Fountainer.Canopen
