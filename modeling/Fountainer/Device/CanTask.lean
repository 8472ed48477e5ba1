import Fountainer.Canopen.Core
import Fountainer.Device.CanWrite
import Fountainer.Protocol.Session
import Mathlib.Data.List.TakeWhile

/-!
# The CANopen task

`canopen_task.c`: the object dictionary over the datapoints, the callbacks of the core, the start
of the core with its default process data, and the runs of the task. The driver, the flash and
whatever else a callback meets are surroundings of a state of their own. The log is left out, and
so are the points of the task itself, which the store gets like those of any other task.
-/

namespace Fountainer.Device

open Bytes
open Canopen Datapoints

def abortWriteOnly : UInt32 := 0x06010001

/-- The value of a `dp_type_t`. -/
def typeCode : DpType → UInt8
  | .bool => 0
  | .u8 => 1
  | .u16 => 2
  | .u32 => 3
  | .u64 => 4
  | .i8 => 5
  | .i16 => 6
  | .i32 => 7
  | .f32 => 8
  | .enum => 9
  | .str => 10

/-- The value of a `dp_access_t`. -/
def accessCode : DpAccess → UInt8
  | .ro => 0
  | .rw => 1
  | .wo => 2

/-- `dp_is_secret`. -/
def dpIsSecret (d : DpPoint) : Bool := d.name == "Network_Password" || d.name == "Backup_Password"

/-- `od_read_dp`. -/
def odReadDp (img : Mem) (d : DpDesc) (cap : ℕ) : OdRead :=
  if d.access = .wo ∨ dpIsSecret d.toDpPoint then .abort abortWriteOnly
  else if dpStrMax < d.size then .abort abortGeneral
  else
    let raw := read img d.off d.size
    .value cap (if d.type = .str then raw.takeWhile (· ≠ 0) else raw)

/-- The descriptor object of a point. -/
def odReadDesc (d : DpPoint) (sub : UInt8) (cap : ℕ) : OdRead :=
  if sub = 0 then .value cap [3]
  else if sub = 1 then .value cap (Protocol.text d.name)
  else if sub = 2 then .value cap [typeCode d.type]
  else if sub = 3 then .value cap [if dpIsSecret d then accessCode .wo else accessCode d.access]
  else .abort abortNoSubindex

/-- The point of an index, where the objects of this kind start at `base`. -/
def pointAt (base : ℕ) (index : UInt16) : Option DpDesc :=
  if base ≤ index.toNat then (gDp dpList)[index.toNat - base]? else none

/-- `od_read_cb`. -/
def odReadCb (img : Mem) (index : UInt16) (sub : UInt8) (cap : ℕ) : OdRead :=
  if index.toNat = coIdxDpCount then
    .single sub (.value cap (leU16 (UInt16.ofNat dpList.length)))
  else
    match pointAt coIdxDpBase index, pointAt coIdxDescBase index with
    | some d, _ => .single sub (odReadDp img d cap)
    | none, some d => odReadDesc d.toDpPoint sub cap
    | none, none => .abort abortNoObject

/-- `MAP_DP`. -/
def mapDp (name : String) (bits : ℕ) : UInt32 :=
  UInt32.ofNat ((coIdxDpBase + dpList.findIdx (·.name == name)) * 2 ^ 16 + bits)

/-- `pdo_defaults`. -/
def pdoDefaults : List OwnerCall :=
  [ .tpdoConfigure 0 0 255 200 1000 [mapDp "Fon_Current_Pressure" 32, mapDp "Fon_Current_State" 8,
      mapDp "Fon_Relay_Output" 8, mapDp "Fon_Fault_Code" 8],
    .tpdoConfigure 1 0 255 500 2000 [mapDp "Fon_Pressure_Filtered" 32,
      mapDp "Fon_Pressure_Slope" 32],
    .tpdoConfigure 2 0 255 1000 5000 [mapDp "System_Uptime" 32, mapDp "Fon_Run_Time" 32],
    .tpdoConfigure 3 0 255 1000 5000 [mapDp "System_Temperature" 32, mapDp "Net_Link_Score" 8,
      mapDp "Fon_Demand_State" 8, mapDp "Fon_Starts_Per_Hour" 8, mapDp "System_Power_Mode" 8],
    .rpdoConfigure 0 0 255 [mapDp "Fon_Fault_Ack" 8, mapDp "Fon_Event_Label" 8] ]

/-- The calls of `cb_reset`, and of `core_start` behind `co_init`: the default process data, and
    the bits `CO_ERR_GENERIC` and `CO_ERR_DEVICE_SPECIFIC` while there is a fault. -/
def resetCalls (img : Mem) : List OwnerCall :=
  pdoDefaults ++ if img (imgOff "Fon_Fault_Code") = 0 then [] else [.errorRegisterSet 0x81]

/-- The string in a field of the image. -/
def imgString (img : Mem) (name : String) : CString where
  bytes := (read img (imgOff name) dpStrMax).takeWhile (· ≠ 0)
  nonzero b hb := by simpa using List.mem_takeWhile_imp hb

/-- `%u` of `sscanf`: the number and the rest, with the greatest number for one out of range. -/
def scanUnsigned (s : List UInt8) : Option (UInt32 × List UInt8) :=
  let t := s.dropWhile isSpace
  let neg := t.head? == some 45
  let t := if t.head? == some 45 || t.head? == some 43 then t.tail else t
  let (n, rest) := readDigits 10 0 t
  if rest.length = t.length then none
  else if 2 ^ 32 ≤ n then some (0xFFFFFFFF, rest)
  else if neg then some (0 - UInt32.ofNat n, rest)
  else some (UInt32.ofNat n, rest)

/-- A dot and a number behind it. -/
def scanDot : List UInt8 → Option (UInt32 × List UInt8)
  | 46 :: s => scanUnsigned s
  | _ => none

/-- `sw_revision_u32`. -/
def swRevisionU32 (ver : CString) : UInt32 :=
  let a := scanUnsigned ver.bytes
  let b := a.bind fun r => scanDot r.2
  let c := b.bind fun r => scanDot r.2
  let field (r : Option (UInt32 × List UInt8)) : UInt32 := (r.map (·.1)).getD 0 &&& 0xFF
  field a <<< 16 ||| field b <<< 8 ||| field c

/-- The configuration of `core_start`, with the node id and the heartbeat of `config_snapshot`. -/
def coreConfig (hwRev : CString) (img : Mem) : CoConfig where
  nodeId := img (imgOff "Can_Node_Id")
  heartbeatMs := imgU16 img "Can_Heartbeat_Ms"
  deviceType := 0
  vendorId := 0
  productCode := 0x464E5400
  revision := swRevisionU32 (imgString img "Device_SW_Version")
  serial := rdU32 img (imgOff "Device_Serial_Number")
  deviceName := some (Protocol.literal "Fountainer")
  hwVersion := some hwRev
  swVersion := some (imgString img "Device_SW_Version")
  onReset := true

/-- The surroundings of the callbacks: whether the driver takes a frame, what a write meets on its
    way (the flash, the events, the answer of `system_reboot_deferred`), and the log. -/
structure CanEnv (ε : Type*) where
  transmit : ε → CoFrame → Bool × ε
  written : ε → UInt16 → UInt8 → List UInt8 → Bool × ε
  nmtChanged : ε → NmtState → NmtState → ε

/-- The datapoint store and the state of the surroundings. -/
structure CanState (ε : Type*) where
  img : Mem
  env : ε

variable {ε : Type*} (E : CanEnv ε) (hwRev : CString)

/-- The callbacks of `canopen_task.c`. -/
def canApp : App (CanState ε) where
  send a f := ((E.transmit a.env f).1, { a with env := (E.transmit a.env f).2 })
  odRead a index sub cap := (odReadCb a.img index sub cap, a)
  odWrite a index sub buf :=
    let e := E.written a.env index sub buf
    let r := odWriteCb e.1 a.img index sub buf
    (r.1, { img := r.2, env := e.2 })
  onReset a _ := (resetCalls a.img, a)
  onNmtChanged a old new := { a with env := E.nmtChanged a.env old new }

/-- `core_start`. -/
def coreStart (w : World (CanState ε)) (nowMs : UInt32) : World (CanState ε) :=
  (resetCalls w.app.img).foldl (ownerCall (canApp E))
    (coInit (canApp E) (coreConfig hwRev w.app.img) nowMs w.app)

/-- A step of the task: the core is started, or called. -/
inductive CanOp (ε : Type*) where
  | start (nowMs : UInt32)
  | call (c : CoCall (CanState ε))

def canStep (w : World (CanState ε)) : CanOp ε → World (CanState ε)
  | .start nowMs => coreStart E hwRev w nowMs
  | .call c => coStep (canApp E) w c

/-- The frames transmitted along a run. -/
def transmitted : World (CanState ε) → List (CanOp ε) → List CoFrame
  | _, [] => []
  | w, op :: ops => sentFrames (canStep E hwRev w op).out ++ transmitted (canStep E hwRev w op) ops

end Fountainer.Device
