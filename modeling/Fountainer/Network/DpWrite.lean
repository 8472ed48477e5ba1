import Fountainer.Datapoints.Batch
import Fountainer.Protocol.Auth

/-!
# Writes from the network

`task_com_apply_dp_write` of `task_com.c`, through which the cloud, the local server and
the CAN bus write points, and the `Network_Save` actions of `network_config.c` behind it.
The model has the image and the answer; the flash, the log, the events and the readback in
the answer are left out.
-/

namespace Fountainer.Network

open Bytes
open Datapoints
open Protocol (Json.get?)

/-- `cJSON_DeleteItemFromObjectCaseSensitive`. -/
def deleteItemCaseSensitive (m : Json) (key : String) : Json :=
  match m with
  | .object fields => .object (fields.eraseP (fun f => f.1 == key))
  | m => m

-- ════════════════════════════════════════════════════════════════════════
-- Network_Save
-- ════════════════════════════════════════════════════════════════════════

/-- An assignment between two fields of `n` bytes. -/
def copyField (n : ℕ) (img : Mem) (dst src : String) : Mem :=
  write img (imgOff dst) (read img (imgOff src) n)

/-- `DP_STR_SET` from another field. -/
def dpStrSet (img : Mem) (dst src : String) : Mem :=
  let s := (read img (imgOff src) (dpStrMax - 1)).takeWhile (· ≠ 0)
  write img (imgOff dst) (s ++ List.replicate (dpStrMax - s.length) 0)

/-- `restore_from_backup`. -/
def restoreFromBackup (img : Mem) : Mem :=
  let img := copyField 1 img "Network_DHCP" "Backup_DHCP"
  let img := copyField 2 img "Network_Server_Port" "Backup_Server_Port"
  let img := dpStrSet img "Network_IP_Address" "Backup_IP_Address"
  let img := dpStrSet img "Network_Subnetmask" "Backup_Subnetmask"
  let img := dpStrSet img "Network_Gateway" "Backup_Gateway"
  let img := dpStrSet img "Network_Server" "Backup_Server"
  let img := dpStrSet img "Network_SSID" "Backup_SSID"
  dpStrSet img "Network_Password" "Backup_Password"

/-- `network_config_save_handle`: its answer and the image. `reboots` is the answer of
    `system_reboot_deferred`. -/
def networkConfigSaveHandle (reboots : Bool) (img : Mem) (action : UInt8) : Bool × Mem :=
  match action with
  | 1 => (true, img)
  | 2 => (reboots, img)
  | 3 => (true, restoreFromBackup img)
  | 4 => if img (imgOff "Backup_SSID") = 0 then (false, img) else (reboots, img)
  | _ => (false, img)

-- ════════════════════════════════════════════════════════════════════════
-- A write
-- ════════════════════════════════════════════════════════════════════════

/-- The action that a write asks for. -/
def networkSave (dp : Json) : UInt8 :=
  match Json.get? dp "Network_Save" with
  | some (.number x) => x.toUInt8
  | _ => 0

/-- The batch of a write, without the command points. -/
def batchOf (dp : Json) : Json :=
  deleteItemCaseSensitive (deleteItemCaseSensitive dp "Network_Save") "Log_Command"

/-- The answer to a write: `status`, `error` and `errors`. -/
structure DpAnswer where
  applied : Bool
  error : Option String
  errors : List (String × DpError)

/-- `task_com_apply_dp_write`. -/
def taskComApplyDpWrite (reboots : Bool) (img : Mem) (dp : Json) : DpAnswer × Mem :=
  let r := dpWriteBatch img (batchOf dp)
  if !r.ok then ({ applied := false, error := none, errors := r.errors }, r.img)
  else if networkSave dp = 0 then ({ applied := true, error := none, errors := [] }, r.img)
  else
    let s := networkConfigSaveHandle reboots r.img (networkSave dp)
    if s.1 then ({ applied := true, error := none, errors := [] }, s.2)
    else ({ applied := false, error := some "invalid_network_save", errors := [] }, s.2)

end Fountainer.Network
