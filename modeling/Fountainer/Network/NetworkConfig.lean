import Fountainer.Lib.Outage
import Fountainer.Logging.Runtime
import Fountainer.Network.Settings
import Fountainer.Protocol.Session
import Mathlib.Data.Nat.Digits.Lemmas

/-!
# The network configuration

`network_config.c` and the parts of the boot in `main.c` that choose the network: the defaults
of `network.json`, the known-good backup, the actions of `Network_Save` and the trial of
`Network_Save` 4. The functions are programs over a board; each NVS transaction can be done, fail,
or be cut by a power loss. Events are left out, and a message is given as far as a record can
hold it.
-/

namespace Fountainer.Network

open Bytes
open Datapoints Logging
open Protocol (Json.get? literal emptyString)

/-- What becomes of an NVS transaction: it is done, a write of it fails, or the power goes out;
    the latter two after the first `n` writes. -/
inductive Fate where
  | done
  | failed (n : ℕ)
  | lost (n : ℕ)
  deriving DecidableEq, Repr

/-- Why a program stops. -/
inductive Stop where
  | powerLost
  | nullPointer
  deriving DecidableEq, Repr

/-- The store, the two NVS namespaces, the trial window, the time since the boot, the logs, and
    what becomes of the next NVS transactions; after those they are done. -/
structure Board where
  img : Mem
  nvs : Nvs
  trial : Option UInt8
  trialActive : Bool
  trialDeadlineS : UInt32
  timeUs : UInt64
  log : RuntimeLog
  prevBoot : PrevBoot
  fates : List Fate

/-- A board with the default values, an empty NVS, and a record of the previous boot. -/
def exampleBoard : Board where
  img := dpSetDefaults dpList (fun _ => 0)
  nvs _ := none
  trial := none
  trialActive := false
  trialDeadlineS := 0
  timeUs := 0
  log := RuntimeLog.loggingInitEarly (fun _ => 0)
  prevBoot :=
    { available := true, bootId := 7, partition := true, acked := some 1, writable := true }
  fates := []

/-- A program over the board. -/
abbrev Prog := EStateM Stop Board

/-- `up_s`. -/
def Board.upS (b : Board) : UInt32 := (b.timeUs / 1000000).toUInt32

/-- What becomes of the NVS transaction `i` from now. -/
def Board.fate (b : Board) (i : ℕ) : Fate := b.fates.getD i .done

/-- The board with another image. -/
@[simps -fullyApplied]
def Board.setImg (b : Board) (img : Mem) : Board := { b with img }

/-- The board with another log. -/
@[simps -fullyApplied]
def Board.setLog (b : Board) (log : RuntimeLog) : Board := { b with log }

/-- The board with the trial flag `v`; a flag 0 is no key. -/
@[simps -fullyApplied]
def Board.setTrial (b : Board) (v : UInt8) : Board :=
  { b with trial := if v = 0 then none else some v }

/-- The image saved up to the key `n`. -/
@[simps -fullyApplied]
def Board.saveFirst (b : Board) (n : ℕ) : Board :=
  { b with nvs := dpConfigSaveFirst dpList n b.img b.nvs }

/-- The board when an NVS transaction has started. -/
@[simps -fullyApplied]
def Board.popFate (b : Board) : Board := { b with fates := b.fates.tail }

/-- The board before a step with these NVS transactions. -/
@[simps -fullyApplied]
def Board.setFates (b : Board) (fates : List Fate) : Board := { b with fates }

/-- The board with the trial window set. -/
@[simps -fullyApplied]
def Board.setWindow (b : Board) (active : Bool) (deadlineS : UInt32) : Board :=
  { b with trialActive := active, trialDeadlineS := deadlineS }

/-- `logging`. -/
def logging (level : DebugLevel) (tag msg : CString) : Prog Unit :=
  modify fun b => b.setLog (b.log.logging (b.timeUs / 1000).toUInt32 level tag msg)

/-- `TAG` of `network_config.c`. -/
def netCfg : CString := literal "net_cfg"

/-- The string in a field. -/
def fieldString (img : Mem) (name : String) : CString where
  bytes := (read img (imgOff name) (dpStrMax - 1)).takeWhile (· ≠ 0)
  nonzero b hb := by simpa using List.mem_takeWhile_imp hb

/-- `%u`. -/
def decimal (n : ℕ) : CString where
  bytes := if n = 0 then [48] else (Nat.digits 10 n).reverse.map fun d => UInt8.ofNat (48 + d)
  nonzero b hb := by
    split_ifs at hb with hn
    · simp at hb
      simp [hb]
    · obtain ⟨d, hd, rfl⟩ := List.mem_map.mp hb
      have hlt : d < 10 := Nat.digits_lt_base (by decide) (List.mem_reverse.mp hd)
      intro h
      have := congrArg UInt8.toNat h
      simp at this
      omega

-- ════════════════════════════════════════════════════════════════════════
-- NVS
-- ════════════════════════════════════════════════════════════════════════

/-- What becomes of the transaction that starts now. -/
def nextFate : Prog Fate :=
  modifyGet fun b => (b.fate 0, b.popFate)

/-- `dp_config_save`: whether it is `ESP_OK`. -/
def dpConfigSave : Prog Bool := do
  match ← nextFate with
  | .done =>
    modify fun b => { b with nvs := Datapoints.dpConfigSave dpList b.img b.nvs }
    return true
  | .failed n =>
    modify (·.saveFirst n)
    return false
  | .lost n =>
    modify (·.saveFirst n)
    throw .powerLost

/-- `trial_nvs_get`. -/
def trialNvsGet : Prog UInt8 := do return (← get).trial.getD 0

/-- `trial_nvs_set`. -/
def trialNvsSet (v : UInt8) : Prog Unit := do
  match ← nextFate with
  | .done => modify (·.setTrial v)
  | .failed _ => return ()
  | .lost _ => throw .powerLost

-- ════════════════════════════════════════════════════════════════════════
-- Defaults from network.json
-- ════════════════════════════════════════════════════════════════════════

/-- `json_str`. -/
def jsonStr (root : Json) (key : String) : Option CString :=
  match Json.get? root key with
  | some (.string s) => some s
  | _ => none

/-- A string of the object copied into its field, where it has one. -/
def jsonField (root : Json) (img : Mem) (key : String) : Mem :=
  ((jsonStr root key).map fun s => write img (imgOff key) (strField s)).getD img

/-- The assignments of `network_config_defaults_apply`. -/
def jsonDefaults (root : Json) (img : Mem) : Mem :=
  let img := ["Network_SSID", "Network_Password", "Network_Server", "Network_IP_Address",
    "Network_Subnetmask", "Network_Gateway"].foldl (jsonField root) img
  let img :=
    match Json.get? root "Network_DHCP" with
    | some (.bool on) => write img (imgOff "Network_DHCP") [if on then 1 else 0]
    | _ => img
  match Json.get? root "Network_Server_Port" with
  | some (.number x) => write img (imgOff "Network_Server_Port") (leU16 x.toUInt16)
  | _ => img

/-- `network_config_defaults_apply`, with what `cJSON_Parse` makes of `network.json`. -/
def networkConfigDefaultsApply (json : Option Json) : Prog Unit := do
  let b ← get
  if b.img (imgOff "Network_SSID") ≠ 0 then return ()
  else
    match json with
    | none => logging .low netCfg (literal "embedded network.json unparsable")
    | some root =>
      modify fun b => b.setImg (jsonDefaults root b.img)
      let _ ← dpConfigSave
      logging .low netCfg (literal "defaults applied from network.json (")

-- ════════════════════════════════════════════════════════════════════════
-- Known-good backup
-- ════════════════════════════════════════════════════════════════════════

/-- The comparisons of `network_config_backup`. -/
def backupMatches (img : Mem) : Bool :=
  NetField.all.all fun f => config .backup img f == config .network img f

/-- `network_config_backup`. -/
def networkConfigBackup : Prog Unit := do
  let b ← get
  if backupMatches b.img then logging .medium netCfg (literal "backup unchanged")
  else
    modify fun b => b.setImg (copyToBackup b.img)
    if ← dpConfigSave then
      logging .low netCfg (literal "network config backed up (known-good after WLAN + server ok)")
    else logging .low netCfg (literal "backup NVS save failed")

-- ════════════════════════════════════════════════════════════════════════
-- Network_Save
-- ════════════════════════════════════════════════════════════════════════

/-- `system_reboot_deferred`, which can fail to create its task. -/
def systemRebootDeferred (reboots : Bool) (ms : ℕ) : Prog Bool := do
  logging .low (literal "system") (literal "deferred reboot in " ++ decimal ms ++ literal " ms")
  return reboots

/-- `network_config_save_handle`. -/
def Board.networkConfigSaveHandle (reboots : Bool) (action : UInt8) : Prog Bool := do
  match action with
  | 1 =>
    logging .low netCfg (literal "Network_Save=1: persist")
    let _ ← dpConfigSave
    return true
  | 2 =>
    logging .low netCfg (literal "Network_Save=2: persist + reboot")
    let _ ← dpConfigSave
    systemRebootDeferred reboots 800
  | 3 =>
    logging .low netCfg (literal "Network_Save=3: restore backup")
    modify fun b => b.setImg (restoreFromBackup b.img)
    let _ ← dpConfigSave
    return true
  | 4 =>
    let b ← get
    if b.img (imgOff "Backup_SSID") = 0 then
      logging .low netCfg (literal "Network_Save=4: REFUSED — no known-good backup yet")
      return false
    else
      logging .low netCfg (literal "Network_Save=4: trial reboot (ssid='")
      let _ ← dpConfigSave
      trialNvsSet 1
      systemRebootDeferred reboots 800
  | action =>
    logging .low netCfg
      (literal "Network_Save=" ++ decimal action.toNat ++ literal ": unknown action")
    return false

-- ════════════════════════════════════════════════════════════════════════
-- Trial
-- ════════════════════════════════════════════════════════════════════════

/-- `NETWORK_TRIAL_TIMEOUT_S`. -/
def networkTrialTimeoutS : UInt32 := 120

/-- The point `Network_Trial_State` set. -/
def setTrialState (v : UInt8) : Prog Unit :=
  modify fun b => b.setImg (write b.img (imgOff "Network_Trial_State") [v])

/-- `trial_rollback`. -/
def trialRollback (why : CString) : Prog Unit := do
  logging .low netCfg (literal "TRIAL FAILED (" ++ why ++ literal ") — restoring known-good config")
  modify fun b => b.setImg (restoreFromBackup b.img)
  let _ ← dpConfigSave
  trialNvsSet 3

/-- `network_config_trial_boot_check`. -/
def networkConfigTrialBootCheck : Prog Unit := do
  match ← trialNvsGet with
  | 1 =>
    trialNvsSet 2
    modify fun b => b.setWindow true (b.upS + networkTrialTimeoutS)
    setTrialState 1
    let b ← get
    logging .low netCfg (literal "TRIAL boot: testing ssid='" ++ fieldString b.img "Network_SSID" ++
      literal "' (120 s to confirm")
  | 2 =>
    trialRollback (literal "power loss during trial window")
    setTrialState 3
    trialNvsSet 0
  | 3 =>
    setTrialState 3
    trialNvsSet 0
    logging .low netCfg (literal "running on ROLLED-BACK config (last trial failed)")
  | _ => return ()

/-- `network_config_trial_tick`. -/
def networkConfigTrialTick (reboots : Bool) : Prog Unit := do
  let b ← get
  if !b.trialActive || b.upS < b.trialDeadlineS then return ()
  else
    modify fun b => b.setWindow false b.trialDeadlineS
    trialRollback (literal "no server session within the window")
    let _ ← systemRebootDeferred reboots 1000

/-- `network_config_trial_confirm`. -/
def networkConfigTrialConfirm : Prog Unit := do
  let b ← get
  if !b.trialActive then return ()
  else
    modify fun b => b.setWindow false b.trialDeadlineS
    trialNvsSet 0
    setTrialState 2
    logging .low netCfg (literal "TRIAL CONFIRMED: server session up — new WLAN config is now")

/-- `glue_session_backup`, the subscriber of `EVT_SESSION_READY`. -/
def glueSessionBackup : Prog Unit := do
  networkConfigTrialConfirm
  networkConfigBackup

-- ════════════════════════════════════════════════════════════════════════
-- Boot
-- ════════════════════════════════════════════════════════════════════════

/-- What a boot finds besides the NVS content: the identity, the credentials that the WLAN
    driver has saved, the time of its check, the fresh log and the previous boot's records. -/
structure Start where
  id : Option DpIdentity
  saved : Option (CString × CString)
  timeUs : UInt64
  log : RuntimeLog
  prevBoot : PrevBoot

/-- The board after `dp_init`. -/
@[simps -fullyApplied]
def Start.fresh (start : Start) (b : Board) : Board where
  img := (dpInit start.id b.nvs).1
  nvs := (dpInit start.id b.nvs).2
  trial := b.trial
  trialActive := false
  trialDeadlineS := 0
  timeUs := start.timeUs
  log := start.log
  prevBoot := start.prevBoot
  fates := b.fates

section

variable (json : Option Json) (fallback : CString × CString)

/-- `wlan_credentials_resolve`: the credentials for the connection. -/
def wlanCredentialsResolve (saved : Option (CString × CString)) : Prog (CString × CString) := do
  let b ← get
  if b.img (imgOff "Network_SSID") ≠ 0 then
    return (fieldString b.img "Network_SSID", fieldString b.img "Network_Password")
  else
    match saved with
    | none => return fallback
    | some (ssid, password) =>
      modify fun b => b.setImg (write (write b.img (imgOff "Network_SSID") (strField ssid))
        (imgOff "Network_Password") (strField password))
      let _ ← dpConfigSave
      logging .low (literal "main") (literal "WLAN credentials migrated from ESP WLAN NVS")
      let b ← get
      return (fieldString b.img "Network_SSID", fieldString b.img "Network_Password")

/-- The configuration of the connection that `wlan_com_connect` starts; none without an SSID. -/
def wlanComConnect (credentials : CString × CString) : Prog (Option NetConfig) := do
  let b ← get
  if credentials.1.bytes = [] then return none
  else
    return some (Function.update (Function.update (config .network b.img) .ssid credentials.1.bytes)
      .password credentials.2.bytes)

/-- The boot, as far as it concerns the network: `dp_init`, the defaults, the trial check, and
    the connection. -/
def boot (start : Start) : Prog (Option NetConfig) := do
  modify (start.fresh ·)
  networkConfigDefaultsApply json
  networkConfigTrialBootCheck
  let credentials ← wlanCredentialsResolve fallback start.saved
  wlanComConnect credentials

end

/-- An IPv4 address. -/
structure Ip4 where
  a : UInt8
  b : UInt8
  c : UInt8
  d : UInt8
  deriving DecidableEq, Repr

/-- `IPSTR`. -/
def ipStr (ip : Ip4) : CString :=
  decimal ip.a.toNat ++ literal "." ++ decimal ip.b.toNat ++ literal "." ++ decimal ip.c.toNat ++
    literal "." ++ decimal ip.d.toNat

/-- The address of a lease printed into a field. -/
def mirrorAddress (img : Mem) (name : String) (ip : Ip4) : Mem :=
  write img (imgOff name) ((ipStr ip).bytes ++ [0])

/-- The case `IP_EVENT_STA_GOT_IP` of the WLAN's `event_handler`: the effective addressing is
    mirrored into the settings. -/
def gotIp (ip mask gateway : Ip4) : Prog Unit :=
  modify fun b =>
    b.setImg (mirrorAddress (mirrorAddress (mirrorAddress b.img "Network_IP_Address" ip)
      "Network_Subnetmask" mask) "Network_Gateway" gateway)

-- ════════════════════════════════════════════════════════════════════════
-- What the assignments do
-- ════════════════════════════════════════════════════════════════════════

/-- The defaults of `network.json` leave the backup. -/
theorem config_backup_jsonDefaults (root : Json) (img : Mem) :
    config .backup (jsonDefaults root img) = config .backup img := by
  have hother (img : Mem) (f : NetField) (bs : List UInt8) (hlen : bs.length ≤ f.type.size) :
      config .backup (write img (imgOff (f.name .network)) bs) = config .backup img :=
    config_write_other (by decide) f hlen img
  have hfield (img : Mem) (f : NetField) (hstr : f.type = .str) :
      config .backup (jsonField root img (f.name .network)) = config .backup img := by
    rw [jsonField]
    cases jsonStr root (f.name .network) with
    | none => rfl
    | some s => exact hother img f _ (by rw [length_strField, hstr]; decide)
  have hstrings : config .backup (["Network_SSID", "Network_Password", "Network_Server",
      "Network_IP_Address", "Network_Subnetmask", "Network_Gateway"].foldl (jsonField root) img) =
      config .backup img := by
    simp only [List.foldl_cons, List.foldl_nil]
    exact (hfield _ .gateway rfl).trans <| (hfield _ .subnetmask rfl).trans <|
      (hfield _ .ipAddress rfl).trans <| (hfield _ .server rfl).trans <|
      (hfield _ .password rfl).trans (hfield _ .ssid rfl)
  rw [jsonDefaults, ← hstrings]
  split <;> split
  · exact (hother _ .serverPort _ (by simp [leU16, NetField.type, DpType.size])).trans
      (hother _ .dhcp _ (by simp [NetField.type, DpType.size]))
  · exact hother _ .serverPort _ (by simp [leU16, NetField.type, DpType.size])
  · exact hother _ .dhcp _ (by simp [NetField.type, DpType.size])
  · rfl

/-- The migration of the driver's credentials leaves the backup. -/
theorem config_backup_credentials (ssid password : CString) (img : Mem) :
    config .backup (write (write img (imgOff "Network_SSID") (strField ssid))
      (imgOff "Network_Password") (strField password)) = config .backup img := by
  have hother (img : Mem) (f : NetField) (hstr : f.type = .str) (s : CString) :
      config .backup (write img (imgOff (f.name .network)) (strField s)) = config .backup img :=
    config_write_other (by decide) f (by rw [length_strField, hstr]; decide) img
  exact (hother _ .password rfl password).trans (hother img .ssid rfl ssid)

/-- `Network_Trial_State` is none of the values. -/
theorem config_trialState (k : Side) (v : UInt8) (img : Mem) :
    config k (write img (imgOff "Network_Trial_State") [v]) = config k img := by
  have hname (f : NetField) : f.name k ≠ "Network_Trial_State" := by
    cases k <;> cases f <;> decide
  have hsize : (dpFind dpList "Network_Trial_State").map DpDesc.size = some [v].length :=
    show _ = some 1 by decide +kernel
  funext f
  rw [config, config, slot_write_field (f.find_point k) (hname f) hsize]

/-- A string in the image. -/
theorem fieldString_bytes (k : Side) {f : NetField} (hstr : f.type = .str) (img : Mem) :
    (fieldString img (f.name k)).bytes = config k img f := by
  have hsize : (f.point k).size = 64 := by
    rw [size_point, hstr]
    rfl
  rw [config, DpDesc.slot, hsize, ← imgOff_name, NetField.value, if_pos hstr, take_read]
  rfl

-- ════════════════════════════════════════════════════════════════════════
-- What the NVS transactions do
-- ════════════════════════════════════════════════════════════════════════

section

open Outage

variable {b : Board}

/-- The number of keys that a save writes. -/
def Fate.writes : Fate → ℕ
  | .done => (savedPoints dpList).length
  | .failed n => n
  | .lost n => n

@[simp] theorem fate_popFate (i : ℕ) : b.popFate.fate i = b.fate (i + 1) := by
  simp [Board.fate]

@[simp] theorem fate_setImg (img : Mem) (i : ℕ) : (b.setImg img).fate i = b.fate i := rfl

@[simp] theorem fate_setLog (log : RuntimeLog) (i : ℕ) : (b.setLog log).fate i = b.fate i := rfl

@[simp] theorem fate_setTrial (v : UInt8) (i : ℕ) : (b.setTrial v).fate i = b.fate i := rfl

@[simp] theorem fate_saveFirst (n i : ℕ) : (b.saveFirst n).fate i = b.fate i := rfl

@[simp] theorem fate_setWindow (active : Bool) (deadlineS : UInt32) (i : ℕ) :
    (b.setWindow active deadlineS).fate i = b.fate i := rfl

@[simp] theorem wp_logging (level : DebugLevel) (tag msg : CString) {Q : Unit → Board → Prop}
    {E : Stop → Board → Prop} :
    Wp (logging level tag msg) Q E b ↔
      Q () (b.setLog (b.log.logging (b.timeUs / 1000).toUInt32 level tag msg)) := Iff.rfl

/-- A save brings the keys up to date that it gets to. -/
@[simp] theorem wp_dpConfigSave {Q : Bool → Board → Prop} {E : Stop → Board → Prop} :
    Wp dpConfigSave Q E b ↔
      match b.fate 0 with
      | .done => Q true (b.popFate.saveFirst Fate.done.writes)
      | .failed n => Q false (b.popFate.saveFirst n)
      | .lost n => E .powerLost (b.popFate.saveFirst n) := by
  rw [dpConfigSave, wp_bind]
  change Wp _ Q E b.popFate ↔ _
  cases b.fate 0 with
  | done =>
    change Q true { b.popFate with nvs := _ } ↔ Q true { b.popFate with nvs := _ }
    rw [dpConfigSave_eq_first]
    rfl
  | failed n => rfl
  | lost n => rfl

@[simp] theorem wp_trialNvsGet {Q : UInt8 → Board → Prop} {E : Stop → Board → Prop} :
    Wp trialNvsGet Q E b ↔ Q (b.trial.getD 0) b := Iff.rfl

@[simp] theorem wp_trialNvsSet (v : UInt8) {Q : Unit → Board → Prop} {E : Stop → Board → Prop} :
    Wp (trialNvsSet v) Q E b ↔
      match b.fate 0 with
      | .done => Q () (b.popFate.setTrial v)
      | .failed _ => Q () b.popFate
      | .lost _ => E .powerLost b.popFate := by
  rw [trialNvsSet, wp_bind]
  change Wp _ Q E b.popFate ↔ _
  cases b.fate 0 <;> rfl

@[simp] theorem wp_setTrialState (v : UInt8) {Q : Unit → Board → Prop} {E : Stop → Board → Prop} :
    Wp (setTrialState v) Q E b ↔
      Q () (b.setImg (write b.img (imgOff "Network_Trial_State") [v])) := Iff.rfl

@[simp] theorem wp_systemRebootDeferred (reboots : Bool) (ms : ℕ) {Q : Bool → Board → Prop}
    {E : Stop → Board → Prop} :
    Wp (systemRebootDeferred reboots ms) Q E b ↔
      Q reboots (b.setLog (b.log.logging (b.timeUs / 1000).toUInt32 .low (literal "system")
        (literal "deferred reboot in " ++ decimal ms ++ literal " ms"))) := Iff.rfl

end

end Fountainer.Network
