import Fountainer.Lib.Runs
import Fountainer.Network.TaskCom

/-!
# The trial of a network configuration

The device between the events of a trial: writes, boots, ticks of the trial window, sessions that
become ready, and power losses, which can fall between any two NVS writes. A monitor follows the
configuration that a request `Network_Save` 4 has left in the NVS, from the request to the session
that confirms it or to the write that saves another one.
-/

namespace Fountainer.Network

open Bytes Outage
open Datapoints Logging
open Protocol (Json.get? literal)

-- ════════════════════════════════════════════════════════════════════════
-- What the programs leave alone
-- ════════════════════════════════════════════════════════════════════════

/-- A property of boards that survives a save, a record, and a change of the image that leaves
    the `Backup_*` values. -/
structure Frame (I : Board → Prop) : Prop where
  log {b : Board} (l : RuntimeLog) : I b → I (b.setLog l)
  prevBoot {b : Board} (p : PrevBoot) : I b → I { b with prevBoot := p }
  img {b : Board} (img : Mem) : config .backup img = config .backup b.img → I b → I (b.setImg img)
  popFate {b : Board} : I b → I b.popFate
  save {b : Board} : I b → I (b.popFate.saveFirst (b.fate 0).writes)

namespace Frame

variable {I : Board → Prop} {b : Board} {reboots : Bool}

theorem dpConfigSave (hI : Frame I) (h : I b) : Wp dpConfigSave (fun _ => I) (fun _ => I) b := by
  have hsave := hI.save h
  rw [wp_dpConfigSave]
  cases hfate : b.fate 0 <;> (rw [hfate] at hsave; exact hsave)

theorem trialNvsSet (hI : Frame I) {v : UInt8} (hflag : ∀ b, I b → I (b.setTrial v)) (h : I b) :
    Wp (trialNvsSet v) (fun _ => I) (fun _ => I) b := by
  rw [wp_trialNvsSet]
  cases b.fate 0 with
  | done => exact hflag _ (hI.popFate h)
  | failed _ => exact hI.popFate h
  | lost _ => exact hI.popFate h

theorem applyBatch (hI : Frame I) (dpIn : Json) (h : I b) :
    Wp (applyBatch dpIn) (fun _ => I) (fun _ => I) b := by
  rw [Network.applyBatch, Board.dpWriteBatch]
  simp only [wp_bind, wp_get, wp_ite, wp_pure, wp_modify]
  split_ifs
  · simpa using h
  · refine (hI.dpConfigSave (hI.img _ (config_backup_batch _ _) h)).mono (fun saved b' h => ?_)
      (fun _ _ h => h)
    cases saved with
    | true => simpa using h
    | false => simpa using hI.log _ (hI.log _ h)

theorem afterLogCommand (hI : Frame I) (dp : Json) (h : I b) : I (afterLogCommand dp b) := by
  rw [Network.afterLogCommand]
  cases logCommand dp with
  | none => exact h
  | some cmd =>
    dsimp only
    unfold logCommandHandle
    split
    · exact hI.log _ h
    · exact hI.prevBoot _ h
    · exact h

theorem networkConfigSaveHandle (hI : Frame I) {action : UInt8}
    (hflag : action = 4 → ∀ b, I b → I (b.setTrial 1)) (h : I b) :
    Wp (Board.networkConfigSaveHandle reboots action) (fun _ => I) (fun _ => I) b := by
  unfold Board.networkConfigSaveHandle
  split
  · rw [wp_bind, wp_logging, wp_bind]
    exact (hI.dpConfigSave (hI.log _ h)).mono (fun _ _ h => h) (fun _ _ h => h)
  · rw [wp_bind, wp_logging, wp_bind]
    exact (hI.dpConfigSave (hI.log _ h)).mono (fun _ _ h => hI.log _ h) (fun _ _ h => h)
  · simp only [wp_bind, wp_logging, wp_modify]
    refine (hI.dpConfigSave (hI.img _ ?_ (hI.log _ h))).mono (fun _ _ h => h) (fun _ _ h => h)
    exact (config_restoreFromBackup b.img).2
  · rw [wp_bind, wp_get, wp_ite]
    split_ifs
    · exact hI.log _ h
    · rw [wp_bind, wp_logging, wp_bind]
      refine (hI.dpConfigSave (hI.log _ h)).mono (fun _ b' h => ?_) (fun _ _ h => h)
      rw [wp_bind]
      exact (hI.trialNvsSet (hflag rfl) h).mono (fun _ _ h => hI.log _ h) (fun _ _ h => h)
  · exact hI.log _ h

/-- A write keeps what survives its saves and, where it asks for action 4, the flag. -/
theorem taskComApplyDpWrite (hI : Frame I) {dp : Option Json}
    (hflag : networkSave (dp.getD .null) = 4 → ∀ b, I b → I (b.setTrial 1)) (h : I b) :
    Wp (Board.taskComApplyDpWrite reboots dp) (fun _ => I) (fun _ => I) b := by
  have hanswer (b : Board) (h : I b) (warning : List (String × Json)) :
      Wp (do
        let answer ← appliedAnswer dp (networkSave (dp.getD .null))
        return warning ++ answer) (fun _ => I) (fun _ => I) b := by
    rw [wp_bind]
    cases dp with
    | none => exact h
    | some dp => exact h
  rw [Board.taskComApplyDpWrite]
  simp only [wp_bind, wp_modify]
  refine (hI.applyBatch _ (hI.afterLogCommand _ h)).mono (fun r b₂ h => ?_) (fun _ _ h => h)
  split_ifs
  · exact h
  · rw [wp_bind, runNetworkSave]
    split_ifs
    · exact hanswer b₂ h _
    · refine (hI.networkConfigSaveHandle hflag h).mono (fun saved b₃ h => ?_) (fun _ _ h => h)
      cases saved with
      | false => exact h
      | true => exact hanswer b₃ h _

theorem networkConfigDefaultsApply (hI : Frame I) (json : Option Json) (h : I b) :
    Wp (networkConfigDefaultsApply json) (fun _ => I) (fun _ => I) b := by
  unfold Network.networkConfigDefaultsApply
  rw [wp_bind, wp_get, wp_ite]
  split_ifs
  · exact h
  · cases json with
    | none => exact hI.log _ h
    | some root =>
      simp only [wp_bind, wp_modify]
      exact (hI.dpConfigSave (hI.img _ (config_backup_jsonDefaults _ _) h)).mono
        (fun _ _ h => hI.log _ h) (fun _ _ h => h)

theorem wlanCredentialsResolve (hI : Frame I) (fallback : CString × CString)
    (saved : Option (CString × CString)) (h : I b) :
    Wp (wlanCredentialsResolve fallback saved) (fun _ => I) (fun _ => I) b := by
  unfold Network.wlanCredentialsResolve
  rw [wp_bind, wp_get, wp_ite]
  split_ifs
  · exact h
  · cases saved with
    | none => exact h
    | some credentials =>
      simp only [wp_bind, wp_modify]
      exact (hI.dpConfigSave (hI.img _ (config_backup_credentials _ _ _) h)).mono
        (fun _ _ h => hI.log _ h) (fun _ _ h => h)

end Frame

/-- A frame whose property also survives a change of the flag and of the trial window. -/
structure WideFrame (I : Board → Prop) : Prop extends Frame I where
  flag {b : Board} (v : UInt8) : I b → I (b.setTrial v)
  window {b : Board} (active : Bool) (deadlineS : UInt32) : I b → I (b.setWindow active deadlineS)

namespace WideFrame

variable {I : Board → Prop} {b : Board}

theorem trialNvsSet (hI : WideFrame I) (v : UInt8) (h : I b) :
    Wp (trialNvsSet v) (fun _ => I) (fun _ => I) b :=
  hI.toFrame.trialNvsSet (fun _ => hI.flag v) h

theorem trialState (hI : WideFrame I) (v : UInt8) (h : I b) :
    I (b.setImg (write b.img (imgOff "Network_Trial_State") [v])) := by
  have himg := config_trialState .backup v b.img
  exact hI.img _ himg h

theorem trialRollback (hI : WideFrame I) (why : CString) (h : I b) :
    Wp (trialRollback why) (fun _ => I) (fun _ => I) b := by
  rw [Network.trialRollback]
  simp only [wp_bind, wp_logging, wp_modify]
  refine (hI.dpConfigSave (hI.img _ ?_ (hI.log _ h))).mono
    (fun _ _ h => hI.trialNvsSet 3 h) (fun _ _ h => h)
  exact (config_restoreFromBackup b.img).2

theorem networkConfigTrialBootCheck (hI : WideFrame I) (h : I b) :
    Wp networkConfigTrialBootCheck (fun _ => I) (fun _ => I) b := by
  unfold Network.networkConfigTrialBootCheck
  rw [wp_bind, wp_trialNvsGet]
  split
  · rw [wp_bind]
    refine (hI.trialNvsSet 2 h).mono (fun _ b' h => ?_) (fun _ _ h => h)
    simp only [wp_bind, wp_modify, wp_setTrialState, wp_get, wp_logging]
    exact hI.log _ (hI.trialState 1 (hI.window _ _ h))
  · rw [wp_bind]
    refine (hI.trialRollback _ h).mono (fun _ b' h => ?_) (fun _ _ h => h)
    rw [wp_bind, wp_setTrialState]
    exact hI.trialNvsSet 0 (hI.trialState 3 h)
  · rw [wp_bind, wp_setTrialState, wp_bind]
    exact (hI.trialNvsSet 0 (hI.trialState 3 h)).mono (fun _ _ h => hI.log _ h) (fun _ _ h => h)
  · exact h

theorem networkConfigTrialTick (hI : WideFrame I) (reboots : Bool) (h : I b) :
    Wp (networkConfigTrialTick reboots) (fun _ => I) (fun _ => I) b := by
  rw [Network.networkConfigTrialTick, wp_bind, wp_get, wp_ite]
  split_ifs
  · exact h
  · rw [wp_bind, wp_modify, wp_bind]
    exact (hI.trialRollback _ (hI.window _ _ h)).mono (fun _ _ h => hI.log _ h) (fun _ _ h => h)

theorem networkConfigTrialConfirm (hI : WideFrame I) (h : I b) :
    Wp networkConfigTrialConfirm (fun _ => I) (fun _ => I) b := by
  rw [Network.networkConfigTrialConfirm, wp_bind, wp_get, wp_ite]
  split_ifs
  · exact h
  · rw [wp_bind, wp_modify, wp_bind]
    refine (hI.trialNvsSet 0 (hI.window _ _ h)).mono (fun _ b' h => ?_) (fun _ _ h => h)
    rw [wp_bind, wp_setTrialState]
    exact hI.log _ (hI.trialState 2 h)

/-- A boot keeps what holds after `dp_init`. -/
theorem boot (hI : WideFrame I) (json : Option Json) (fallback : CString × CString) (start : Start)
    (h : I (start.fresh b)) : Wp (boot json fallback start) (fun _ => I) (fun _ => I) b := by
  rw [Network.boot, wp_bind, wp_modify, wp_bind]
  refine (hI.networkConfigDefaultsApply json h).mono (fun _ b₁ h => ?_) (fun _ _ h => h)
  rw [wp_bind]
  refine (hI.networkConfigTrialBootCheck h).mono (fun _ b₂ h => ?_) (fun _ _ h => h)
  rw [wp_bind]
  refine (hI.wlanCredentialsResolve fallback start.saved h).mono (fun _ b₃ h => ?_) (fun _ _ h => h)
  rw [wlanComConnect, wp_bind, wp_get, wp_ite]
  split_ifs <;> exact h

end WideFrame

/-- The NVS has no legacy blob. -/
def NoLegacy (b : Board) : Prop := legacyCompatible dpList b.nvs = false

theorem frame_noLegacy : WideFrame NoLegacy where
  log _ h := h
  prevBoot _ h := h
  img _ _ h := h
  popFate h := h
  save h := (legacyCompatible_saveFirst _ _ _).trans h
  flag _ h := h
  window _ _ h := h

/-- Nothing is asked of the board. -/
theorem frame_any : WideFrame fun _ => True where
  log _ _ := trivial
  prevBoot _ _ := trivial
  img _ _ _ := trivial
  popFate _ := trivial
  save _ := trivial
  flag _ _ := trivial
  window _ _ _ := trivial

theorem noLegacy_sessionReady {b : Board} (h : NoLegacy b) :
    Wp glueSessionBackup (fun _ => NoLegacy) (fun _ => NoLegacy) b := by
  rw [glueSessionBackup, wp_bind]
  refine (frame_noLegacy.networkConfigTrialConfirm h).mono (fun _ b₁ h => ?_) (fun _ _ h => h)
  rw [networkConfigBackup, wp_bind, wp_get, wp_ite]
  split_ifs
  · exact h
  · simp only [wp_bind, wp_modify]
    have himage (img : Mem) : NoLegacy (b₁.setImg img) := h
    refine (frame_noLegacy.dpConfigSave (himage _)).mono (fun saved b₂ h => ?_) (fun _ _ h => h)
    cases saved <;> exact h

/-- With an SSID in the image the defaults are not applied. -/
theorem networkConfigDefaultsApply_ssid {b : Board} (h : config .network b.img .ssid ≠ [])
    (json : Option Json) :
    Wp (networkConfigDefaultsApply json) (fun _ b' => b' = b) (fun _ _ => False) b := by
  have hssid : b.img (imgOff "Network_SSID") ≠ 0 := (network_ssid_ne_nil b.img).mp h
  unfold networkConfigDefaultsApply
  rw [wp_bind, wp_get, wp_ite, if_pos hssid]
  rfl

/-- The credentials in the image connect with its settings. -/
theorem wlanComConnect_fields (b : Board) :
    Wp (wlanComConnect (fieldString b.img "Network_SSID", fieldString b.img "Network_Password"))
      (fun c b' => b' = b ∧ (config .network b.img .ssid ≠ [] → c = some (config .network b.img)))
      (fun _ _ => False) b := by
  have hssid : (fieldString b.img "Network_SSID").bytes = config .network b.img .ssid := by
    simpa only [NetField.name] using fieldString_bytes .network (f := .ssid) rfl b.img
  have hpassword : (fieldString b.img "Network_Password").bytes =
    config .network b.img .password := by
    simpa only [NetField.name] using fieldString_bytes .network (f := .password) rfl b.img
  rw [wlanComConnect, wp_bind, wp_get, wp_ite]
  split_ifs with hempty
  · exact ⟨rfl, fun h => absurd (hssid.symm.trans hempty) h⟩
  · refine ⟨rfl, fun _ => ?_⟩
    rw [hssid, hpassword, Function.update_eq_self, Function.update_eq_self]

/-- With an SSID in the image the connection is made with its settings. -/
theorem connect_ssid {b : Board} (h : config .network b.img .ssid ≠ [])
    (fallback : CString × CString) (saved : Option (CString × CString)) :
    Wp (wlanCredentialsResolve fallback saved >>= wlanComConnect)
      (fun c b' => b' = b ∧ c = some (config .network b.img)) (fun _ _ => False) b := by
  have hfirst : b.img (imgOff "Network_SSID") ≠ 0 := (network_ssid_ne_nil b.img).mp h
  unfold wlanCredentialsResolve
  rw [wp_bind, wp_bind, wp_get, wp_ite, if_pos hfirst, wp_pure]
  exact (wlanComConnect_fields b).mono (fun _ _ hc => ⟨hc.1, hc.2 h⟩) (fun _ _ h => h)

-- ════════════════════════════════════════════════════════════════════════
-- Events
-- ════════════════════════════════════════════════════════════════════════

/-- The device: its board, and whether it runs. While it does not, the NVS content and the trial
    flag are all that the board means. -/
structure Station where
  board : Board
  on : Bool

/-- An event, with what becomes of its NVS transactions. A boot follows a power loss or a reboot. -/
inductive Event where
  | boot (start : Start) (fates : List Fate)
  | write (dp : Option Json) (reboots : Bool) (fates : List Fate)
  | tick (timeUs : UInt64) (reboots : Bool) (fates : List Fate)
  | sessionReady (fates : List Fate)
  | powerLoss

namespace Event

def isBoot : Event → Bool
  | .boot _ _ => true
  | _ => false

def fates : Event → List Fate
  | .boot _ fates => fates
  | .write _ _ fates => fates
  | .tick _ _ fates => fates
  | .sessionReady fates => fates
  | .powerLoss => []

end Event

/-- A configuration that a request has left in the NVS: the backup at that time, and whether a
    boot has connected since. -/
structure Pending where
  backup : NetConfig
  used : Bool

/-- What is pending after a boot. -/
def Pending.after (p : Pending) (connection : Option NetConfig) : Pending :=
  { p with used := p.used || connection.isSome }

/-- The device and the configuration that is pending. -/
structure Watched extends Station where
  pending : Option Pending

section

variable (json : Option Json) (fallback : CString × CString)

/-- What the device does at an event: the configuration that it connects with, if it does. -/
def Event.program : Event → Prog (Option NetConfig)
  | .boot start fates => do
    modify (·.setFates fates)
    Network.boot json fallback start
  | .write dp reboots fates => do
    modify (·.setFates fates)
    let _ ← Board.taskComApplyDpWrite reboots dp
    return none
  | .tick timeUs reboots fates => do
    modify fun b => { b with timeUs, fates }
    networkConfigTrialTick reboots
    return none
  | .sessionReady fates => do
    modify (·.setFates fates)
    glueSessionBackup
    return none
  | .powerLoss => throw .powerLost

/-- An event. A stop, by a power loss or a fault, leaves the device off. -/
def Station.step (s : Station) (e : Event) : Station × Option NetConfig :=
  if s.on || e.isBoot then
    match e.program json fallback s.board with
    | .ok connection b => (⟨b, true⟩, connection)
    | .error _ b => (⟨b, false⟩, none)
  else (s, none)

/-- The write is a request that arms a trial. -/
def Arms (dp : Json) (b : Board) : Prop :=
  networkSave dp = 4 ∧ (Datapoints.dpWriteBatch b.img (batchOf dp)).ok = true ∧
    b.img (imgOff "Backup_SSID") ≠ 0

instance (dp : Json) (b : Board) : Decidable (Arms dp b) := inferInstanceAs (Decidable (_ ∧ _))

/-- What the monitor knows after an event of a running device or a boot. A request leaves its
    configuration when it is completed, or when it is cut and the stored values have changed;
    another write that changes the values saves another one; a session in the window of the
    trial confirms. -/
def monitor (b : Board) (pending : Option Pending) (e : Event) (s' : Station)
    (connection : Option NetConfig) : Option Pending :=
  match e with
  | .boot _ _ => pending.map (·.after connection)
  | .write dp _ _ =>
    let dp := dp.getD .null
    let changed := storedConfig .network s'.board.nvs ≠ storedConfig .network b.nvs
    if networkSave dp = 4 then
      if (Arms dp b ∧ s'.on = true) ∨ changed then some ⟨config .backup b.img, false⟩ else pending
    else if changed ∨ config .network s'.board.img ≠ config .network b.img then none
    else pending
  | .sessionReady _ => pending.filter fun p => !(b.trialActive && p.used)
  | _ => pending

/-- A step of the watched device. -/
def Watched.step (w : Watched) (e : Event) : Watched :=
  let r := w.toStation.step json fallback e
  if w.on || e.isBoot then ⟨r.1, monitor w.board w.pending e r.1 r.2⟩ else w

/-- A boot that runs to its end while a configuration is pending: what was pending, and the
    connection that it makes, if any. -/
def Watched.connection (w : Watched) (e : Event) (_ : Watched) :
    Option (Pending × Option NetConfig) :=
  let r := w.toStation.step json fallback e
  match w.pending, e.isBoot, r.1.on with
  | some p, true, true => some (p, r.2)
  | _, _, _ => none

end

-- ════════════════════════════════════════════════════════════════════════
-- What holds while a configuration is pending
-- ════════════════════════════════════════════════════════════════════════

/-- The NVS transactions to come do not fail; the power can go out in them. -/
def Board.Sound (b : Board) : Prop := ∀ n, Fate.failed n ∉ b.fates

/-- The backup is these values, in the image and in the NVS. -/
structure Held (backup : NetConfig) (b : Board) : Prop where
  sound : b.Sound
  noLegacy : NoLegacy b
  stored : storedConfig .backup b.nvs = backup
  live : config .backup b.img = backup

theorem Board.Sound.fate {b : Board} (h : b.Sound) (i n : ℕ) : b.fate i ≠ .failed n := by
  intro hfate
  rw [Board.fate, List.getD_eq_getElem?_getD] at hfate
  cases hget : b.fates[i]? with
  | none => simp [hget] at hfate
  | some f =>
    rw [hget, Option.getD_some] at hfate
    exact h n (hfate ▸ List.mem_of_getElem? hget)

/-- The stored backup after the first `n` writes of a save. -/
theorem storedConfig_backup_saveFirst (n : ℕ) (img : Mem) (nvs : Nvs) (f : NetField) :
    storedConfig .backup (dpConfigSaveFirst dpList n img nvs) f =
      if f.point .backup ∈ (savedPoints dpList).take n then config .backup img f
      else storedConfig .backup nvs f :=
  storedConfig_saveFirst (loads_of_ne (by simp) _) n nvs

theorem frame_held (backup : NetConfig) : WideFrame (Held backup) where
  log _ h := ⟨h.sound, h.noLegacy, h.stored, h.live⟩
  prevBoot _ h := ⟨h.sound, h.noLegacy, h.stored, h.live⟩
  img _ himg h := ⟨h.sound, h.noLegacy, h.stored, himg.trans h.live⟩
  popFate h := ⟨fun n hn => h.sound n (List.mem_of_mem_tail hn), h.noLegacy, h.stored, h.live⟩
  save {b} h := by
    refine ⟨fun n hn => h.sound n (List.mem_of_mem_tail hn), frame_noLegacy.save h.noLegacy, ?_,
      h.live⟩
    funext f
    refine (storedConfig_backup_saveFirst _ b.img b.nvs f).trans ?_
    rw [h.live, h.stored, ite_self]
  flag _ h := ⟨h.sound, h.noLegacy, h.stored, h.live⟩
  window _ _ h := ⟨h.sound, h.noLegacy, h.stored, h.live⟩

namespace Pending

/-- The known-good values are a configuration that can be restored: there is an SSID, and the
    load accepts the port. -/
structure Valid (p : Pending) : Prop where
  ssid : p.backup .ssid ≠ []
  port : Loads .network .serverPort (p.backup .serverPort)

/-- The next boot tests the configuration for the first time, or restores the backup. -/
def Flagged (p : Pending) (b : Board) : Prop :=
  b.trial = some 2 ∨ p.used = false ∧ b.trial = some 1

/-- What the NVS holds: the known-good values in the backup, and the flag up or these values in
    the settings too. -/
structure Safe (p : Pending) (b : Board) : Prop where
  valid : p.Valid
  noLegacy : NoLegacy b
  backup : storedConfig .backup b.nvs = p.backup
  settings : p.Flagged b ∨ storedConfig .network b.nvs = p.backup

/-- The settings are the known-good values, in the image and in the NVS. -/
structure Home (p : Pending) (b : Board) : Prop where
  held : Held p.backup b
  stored : storedConfig .network b.nvs = p.backup
  live : config .network b.img = p.backup

/-- What holds while the device runs: outside the window of a trial, a boot to come tests the
    configuration or the settings are the known-good values. -/
structure Live (p : Pending) (b : Board) : Prop where
  safe : p.Safe b
  backup : config .backup b.img = p.backup
  settings : b.trialActive = false → b.trial = some 1 ∨ config .network b.img = p.backup

variable {p : Pending} {b : Board}

theorem Home.safe (h : p.Home b) (hvalid : p.Valid) : p.Safe b :=
  ⟨hvalid, h.held.noLegacy, h.held.stored, .inr h.stored⟩

theorem Home.lives (h : p.Home b) (hvalid : p.Valid) : p.Live b :=
  ⟨h.safe hvalid, h.held.live, fun _ => .inr h.live⟩

theorem Home.log (h : p.Home b) (l : RuntimeLog) : p.Home (b.setLog l) :=
  ⟨(frame_held _).log l h.held, h.stored, h.live⟩

theorem Home.popFate (h : p.Home b) : p.Home b.popFate :=
  ⟨(frame_held _).popFate h.held, h.stored, h.live⟩

theorem Home.setTrial (h : p.Home b) (v : UInt8) : p.Home (b.setTrial v) :=
  ⟨(frame_held _).flag v h.held, h.stored, h.live⟩

theorem Home.setWindow (h : p.Home b) (active : Bool) (deadlineS : UInt32) :
    p.Home (b.setWindow active deadlineS) :=
  ⟨(frame_held _).window active deadlineS h.held, h.stored, h.live⟩

/-- A change of the image that leaves both sides. -/
theorem Home.setImg (h : p.Home b) {img : Mem} (himg : ∀ k, config k img = config k b.img) :
    p.Home (b.setImg img) :=
  ⟨(frame_held _).img img (himg .backup) h.held, h.stored, (himg .network).trans h.live⟩

theorem Safe.log (h : p.Safe b) (l : RuntimeLog) : p.Safe (b.setLog l) :=
  ⟨h.valid, h.noLegacy, h.backup, h.settings⟩

/-- The port of the settings loads when it is that of a valid backup. -/
theorem Valid.loads (hvalid : p.Valid) {img : Mem} (himg : config .network img = p.backup)
    (f : NetField) : Loads .network f ((f.point .network).slot img) := by
  by_cases hf : f = .serverPort
  · subst hf
    have hport := hvalid.port
    rwa [← himg] at hport
  · exact loads_of_ne (by simpa using hf) _

/-- A save of the known-good values stores them where it gets to. -/
theorem Valid.saveFirst (hvalid : p.Valid) {img : Mem} (himg : config .network img = p.backup)
    (n : ℕ) (nvs : Nvs) (f : NetField) :
    storedConfig .network (dpConfigSaveFirst dpList n img nvs) f =
      if f.point .network ∈ (savedPoints dpList).take n then p.backup f
      else storedConfig .network nvs f := by
  rw [storedConfig_saveFirst (hvalid.loads himg f), himg]

/-- A save of known-good settings keeps them. -/
theorem Home.dpConfigSave (h : p.Home b) (hvalid : p.Valid) :
    Wp dpConfigSave (fun _ => p.Home) (fun _ => p.Home) b := by
  have hsaved (n : ℕ) : storedConfig .network (dpConfigSaveFirst dpList n b.img b.nvs) =
    p.backup := by
    funext f
    rw [hvalid.saveFirst h.live, h.stored, ite_self]
  have hheld := (frame_held p.backup).save h.held
  rw [wp_dpConfigSave]
  cases hfate : b.fate 0 <;>
    (rw [hfate] at hheld; exact ⟨hheld, hsaved _, h.live⟩)

theorem Home.trialNvsSet (h : p.Home b) (v : UInt8) :
    Wp (trialNvsSet v) (fun _ => p.Home) (fun _ => p.Home) b := by
  rw [wp_trialNvsSet]
  cases b.fate 0 with
  | done => exact h.popFate.setTrial v
  | failed _ => exact h.popFate
  | lost _ => exact h.popFate

/-- **A rollback.** It ends with the known-good settings; where the power goes out, the flag is
    still up or they are stored already. -/
theorem Safe.trialRollback (hsafe : p.Safe b) (hheld : Held p.backup b) (why : CString) :
    Wp (trialRollback why) (fun _ => p.Home) (fun _ => p.Safe) b := by
  rw [Network.trialRollback, wp_bind, wp_logging]
  generalize hlogged : b.setLog _ = b₁
  obtain ⟨hsafe, hheld⟩ : p.Safe b₁ ∧ Held p.backup b₁ :=
    hlogged ▸ ⟨hsafe.log _, (frame_held _).log _ hheld⟩
  obtain ⟨hnetwork, hbackup⟩ := config_restoreFromBackup b₁.img
  simp only [wp_bind, wp_modify]
  generalize restoreFromBackup b₁.img = img at hnetwork hbackup
  have hlive : config .network img = p.backup := hnetwork.trans hheld.live
  have hsaved := (frame_held _).save ((frame_held _).img img hbackup hheld)
  rw [wp_dpConfigSave]
  rw [fate_setImg] at hsaved ⊢
  cases hfate : b₁.fate 0 with
  | done =>
    rw [hfate] at hsaved
    refine (Home.trialNvsSet ⟨hsaved, ?_, hlive⟩ 3).mono (fun _ _ h => h)
      (fun _ _ h => h.safe hsafe.valid)
    funext f
    refine (hsafe.valid.saveFirst hlive _ b₁.nvs f).trans (if_pos ?_)
    rw [Fate.writes, List.take_length]
    exact f.point_saved .network
  | failed n => exact (hheld.sound.fate 0 n hfate).elim
  | lost n =>
    rw [hfate] at hsaved
    refine ⟨hsafe.valid, hsaved.noLegacy, hsaved.stored,
      hsafe.settings.imp (fun h => h) fun h => ?_⟩
    funext f
    refine (hsafe.valid.saveFirst hlive n b₁.nvs f).trans ?_
    rw [h, ite_self]

/-- The rest of a rollback at a boot. -/
theorem Home.surface (h : p.Home b) (hvalid : p.Valid) :
    Wp (do setTrialState 3; Network.trialNvsSet 0) (fun _ => p.Home) (fun _ => p.Safe) b := by
  rw [wp_bind, wp_setTrialState]
  exact ((h.setImg fun k => config_trialState k 3 b.img).trialNvsSet 0).mono (fun _ _ h => h)
    (fun _ _ h => h.safe hvalid)

/-- The window of a trial: the flag makes the next boot restore the backup. -/
structure Testing (p : Pending) (b : Board) : Prop where
  held : Held p.backup b
  flag : b.trial = some 2
  window : b.trialActive = true
  unused : p.used = false

/-- The flag as the boot reads it. -/
theorem Flagged.getD (h : p.Flagged b) :
    b.trial.getD 0 = 2 ∨ p.used = false ∧ b.trial.getD 0 = 1 := by
  rcases h with h | ⟨hunused, h⟩
  · exact .inl (by rw [h, Option.getD_some])
  · exact .inr ⟨hunused, by rw [h, Option.getD_some]⟩

/-- **The trial check of a boot.** From known-good settings it keeps them; with the flag up it
    restores them, or it starts the first test. -/
theorem Safe.bootCheck (hsafe : p.Safe b) (hheld : Held p.backup b)
    (hsettings : p.Flagged b ∨ p.Home b) :
    Wp networkConfigTrialBootCheck (fun _ b' => p.Home b' ∨ p.Testing b') (fun _ => p.Safe) b := by
  have hvalid := hsafe.valid
  unfold networkConfigTrialBootCheck
  rw [wp_bind, wp_trialNvsGet]
  split
  · next hone =>
    rw [wp_bind, wp_trialNvsSet]
    cases hfate : b.fate 0 with
    | done =>
      simp only [wp_bind, wp_modify, wp_setTrialState, wp_get, wp_logging]
      rcases hsettings with hflag | hhome
      · have hunused : p.used = false := by
          rcases hflag.getD with h | h
          · exact absurd (hone.symm.trans h) (by decide)
          · exact h.1
        have hwindow := (frame_held _).window true (b.upS + networkTrialTimeoutS)
          ((frame_held _).flag 2 ((frame_held _).popFate hheld))
        have hbackup := config_trialState .backup 1 b.img
        exact .inr ⟨(frame_held _).log _ ((frame_held _).img _ hbackup hwindow), rfl, rfl, hunused⟩
      · exact .inl (Home.log (((hhome.popFate.setTrial 2).setWindow _ _).setImg
          fun k => config_trialState k 1 _) _)
    | failed n => exact (hheld.sound.fate 0 n hfate).elim
    | lost n => exact ⟨hvalid, hsafe.noLegacy, hsafe.backup, hsafe.settings⟩
  · rw [wp_bind]
    exact (hsafe.trialRollback hheld _).mono
      (fun _ _ h => (h.surface hvalid).mono (fun _ _ h => .inl h) (fun _ _ h => h))
      (fun _ _ h => h)
  · next hthree =>
    rcases hsettings with hflag | hhome
    · rcases hflag.getD with h | h
      · exact absurd (hthree.symm.trans h) (by decide)
      · exact absurd (hthree.symm.trans h.2) (by decide)
    · rw [wp_bind, wp_setTrialState, wp_bind]
      exact ((hhome.setImg fun k => config_trialState k 3 b.img).trialNvsSet 0).mono
        (fun _ _ h => .inl (h.log _)) (fun _ _ h => h.safe hvalid)
  · next hone htwo hthree =>
    rcases hsettings with hflag | hhome
    · rcases hflag.getD with h | h
      · exact (htwo h).elim
      · exact (hone h.2).elim
    · exact .inl hhome

/-- The board after `dp_init` has the stored values. -/
theorem Safe.fresh (hsafe : p.Safe b) (hsound : b.Sound) (start : Start) :
    Held p.backup (start.fresh b) ∧ (p.Flagged (start.fresh b) ∨ p.Home (start.fresh b)) := by
  have hheld : Held p.backup (start.fresh b) :=
    ⟨hsound, legacyCompatible_dpInit start.id b.nvs,
      (storedConfig_boot hsafe.noLegacy start.id .backup).trans hsafe.backup,
      (config_boot hsafe.noLegacy start.id .backup).trans hsafe.backup⟩
  refine ⟨hheld, hsafe.settings.imp (fun h => h) fun h => ⟨hheld, ?_, ?_⟩⟩
  · exact (storedConfig_boot hsafe.noLegacy start.id .network).trans h
  · exact (config_boot hsafe.noLegacy start.id .network).trans h

theorem frame_flagged (p : Pending) : Frame fun b => Held p.backup b ∧ p.Flagged b where
  log l h := ⟨(frame_held _).log l h.1, h.2⟩
  prevBoot q h := ⟨(frame_held _).prevBoot q h.1, h.2⟩
  img img himg h := ⟨(frame_held _).img img himg h.1, h.2⟩
  popFate h := ⟨(frame_held _).popFate h.1, h.2⟩
  save h := ⟨(frame_held _).save h.1, h.2⟩

theorem frame_testing (p : Pending) : Frame p.Testing where
  log l h := ⟨(frame_held _).log l h.held, h.flag, h.window, h.unused⟩
  prevBoot q h := ⟨(frame_held _).prevBoot q h.held, h.flag, h.window, h.unused⟩
  img img himg h := ⟨(frame_held _).img img himg h.held, h.flag, h.window, h.unused⟩
  popFate h := ⟨(frame_held _).popFate h.held, h.flag, h.window, h.unused⟩
  save h := ⟨(frame_held _).save h.held, h.flag, h.window, h.unused⟩

theorem Testing.safe (h : p.Testing b) (hvalid : p.Valid) : p.Safe b :=
  ⟨hvalid, h.held.noLegacy, h.held.stored, .inl (.inl h.flag)⟩

/-- **A boot.** After a boot has used the configuration, one that runs to its end connects with the
    known-good values. -/
theorem Safe.boot (hsafe : p.Safe b) (hsound : b.Sound) (json : Option Json)
    (fallback : CString × CString) (start : Start) :
    Wp (boot json fallback start)
      (fun c b' => (p.used = true → c = some p.backup) ∧ (p.after c).Live b')
      (fun _ => p.Safe) b := by
  have hvalid := hsafe.valid
  rw [Network.boot, wp_bind, wp_modify, wp_bind]
  obtain ⟨hheld, hsettings⟩ := hsafe.fresh hsound start
  have hdefaults : Wp (networkConfigDefaultsApply json)
      (fun _ b' => Held p.backup b' ∧ (p.Flagged b' ∨ p.Home b')) (fun _ => p.Safe)
      (start.fresh b) := by
    rcases hsettings with hflag | hhome
    · exact ((frame_flagged p).networkConfigDefaultsApply json ⟨hheld, hflag⟩).mono
        (fun _ _ h => ⟨h.1, .inl h.2⟩)
        (fun _ _ h => ⟨hvalid, h.1.noLegacy, h.1.stored, .inl h.2⟩)
    · have hssid : config .network (start.fresh b).img .ssid ≠ [] := by
        rw [hhome.live]
        exact hvalid.ssid
      refine (networkConfigDefaultsApply_ssid hssid json).mono (fun _ b' h => ?_)
        (fun _ _ h => h.elim)
      rw [h]
      exact ⟨hheld, .inr hhome⟩
  refine hdefaults.mono (fun _ b₁ h => ?_) (fun _ _ h => h)
  obtain ⟨hheld, hsettings⟩ := h
  have hsafe : p.Safe b₁ :=
    ⟨hvalid, hheld.noLegacy, hheld.stored, hsettings.imp (fun h => h) fun h => h.stored⟩
  rw [wp_bind]
  refine (hsafe.bootCheck hheld hsettings).mono (fun _ b₂ h => ?_) (fun _ _ h => h)
  rcases h with hhome | htesting
  · have hssid : config .network b₂.img .ssid ≠ [] := by
      rw [hhome.live]
      exact hvalid.ssid
    refine (connect_ssid hssid fallback start.saved).mono (fun c b₃ h => ?_) (fun _ _ h => h.elim)
    obtain ⟨rfl, rfl⟩ := h
    refine ⟨fun _ => by rw [hhome.live], ?_⟩
    · have hafter : (p.after (some (config .network b₃.img))).Home b₃ :=
        ⟨hhome.held, hhome.stored, hhome.live⟩
      exact hafter.lives ⟨hvalid.ssid, hvalid.port⟩
  · rw [wp_bind]
    refine ((frame_testing p).wlanCredentialsResolve fallback start.saved htesting).mono
      (fun credentials b₃ h => ?_) (fun _ _ h => h.safe hvalid)
    have hlive (c : Option NetConfig) : (p.after c).Live b₃ :=
      ⟨⟨⟨hvalid.ssid, hvalid.port⟩, h.held.noLegacy, h.held.stored,
        .inl (.inl h.flag)⟩, h.held.live,
        fun hclosed => absurd (h.window.symm.trans hclosed) (by decide)⟩
    have hunused : ¬ p.used = true := by rw [h.unused]; decide
    rw [wlanComConnect, wp_bind, wp_get, wp_ite]
    split_ifs
    · exact ⟨fun hused => (hunused hused).elim, hlive _⟩
    · exact ⟨fun hused => (hunused hused).elim, hlive _⟩

theorem Live.held (h : p.Live b) (hsound : b.Sound) : Held p.backup b :=
  ⟨hsound, h.safe.noLegacy, h.safe.backup, h.backup⟩

theorem Live.ssid (h : p.Live b) : b.img (imgOff "Backup_SSID") ≠ 0 := by
  rw [← backup_ssid_ne_nil, h.backup]
  exact h.safe.valid.ssid

theorem Live.log (h : p.Live b) (l : RuntimeLog) : p.Live (b.setLog l) :=
  ⟨h.safe.log l, h.backup, h.settings⟩

/-- **A tick of the window.** At the deadline the known-good settings are restored. -/
theorem Live.tick (h : p.Live b) (hsound : b.Sound) (reboots : Bool) :
    Wp (networkConfigTrialTick reboots) (fun _ => p.Live) (fun _ => p.Safe) b := by
  rw [networkConfigTrialTick, wp_bind, wp_get, wp_ite]
  split_ifs
  · exact h
  · rw [wp_bind, wp_modify, wp_bind]
    have hclosed : p.Safe (b.setWindow false b.trialDeadlineS) :=
      ⟨h.safe.valid, h.safe.noLegacy, h.safe.backup, h.safe.settings⟩
    exact (hclosed.trialRollback ((frame_held _).window _ _ (h.held hsound)) _).mono
      (fun _ _ hhome => (hhome.lives h.safe.valid).log _) (fun _ _ h => h)

/-- The comparisons of `network_config_backup` compare the two sides. -/
theorem backupMatches_iff (img : Mem) :
    backupMatches img = true ↔ config .backup img = config .network img := by
  rw [backupMatches, List.all_eq_true]
  constructor
  · exact fun h => funext fun f => by simpa using h f f.mem_all
  · exact fun h f _ => by simp [h]

/-- A session outside the window of a trial. -/
theorem Live.sessionReady (h : p.Live b) (hclosed : b.trialActive = false)
    (hsettings : b.trial = some 1 → config .network b.img = config .backup b.img) :
    Wp glueSessionBackup (fun _ => p.Live) (fun _ => p.Safe) b := by
  have hsame : backupMatches b.img = true := by
    rw [backupMatches_iff, h.backup]
    rcases h.settings hclosed with hone | hlive
    · rw [hsettings hone, h.backup]
    · rw [hlive]
  rw [glueSessionBackup, wp_bind, networkConfigTrialConfirm, wp_bind, wp_get, wp_ite,
    if_pos (by rw [hclosed]; rfl), wp_pure, networkConfigBackup, wp_bind, wp_get, wp_ite,
    if_pos hsame]
  exact h.log _

/-- A write that is no request, while it leaves the settings. -/
theorem Live.write (h : p.Live b) (hsound : b.Sound) {dp : Option Json}
    (haction : networkSave (dp.getD .null) ≠ 4) (reboots : Bool) :
    Wp (Board.taskComApplyDpWrite reboots dp)
      (fun _ b' => storedConfig .network b'.nvs = storedConfig .network b.nvs →
        config .network b'.img = config .network b.img → p.Live b')
      (fun _ b' => storedConfig .network b'.nvs = storedConfig .network b.nvs → p.Safe b') b := by
  have hframe : Frame fun b' => Held p.backup b' ∧ b'.trial = b.trial ∧
      b'.trialActive = b.trialActive := by
    refine ⟨fun l h => ⟨(frame_held _).log l h.1, h.2⟩,
      fun q h => ⟨(frame_held _).prevBoot q h.1, h.2⟩,
      fun img himg h => ⟨(frame_held _).img img himg h.1, h.2⟩,
      fun h => ⟨(frame_held _).popFate h.1, h.2⟩, fun h => ⟨(frame_held _).save h.1, h.2⟩⟩
  have hsafe (b' : Board) (hheld : Held p.backup b') (htrial : b'.trial = b.trial)
      (hstored : storedConfig .network b'.nvs = storedConfig .network b.nvs) : p.Safe b' := by
    refine ⟨h.safe.valid, hheld.noLegacy, hheld.stored, ?_⟩
    rw [Flagged, htrial, hstored]
    exact h.safe.settings
  refine (hframe.taskComApplyDpWrite (fun h => (haction h).elim) ⟨h.held hsound, rfl, rfl⟩).mono
    (fun _ b' hb hstored hlive => ?_) (fun _ b' hb hstored => hsafe b' hb.1 hb.2.1 hstored)
  refine ⟨hsafe b' hb.1 hb.2.1 hstored, hb.1.live, ?_⟩
  rw [hb.2.1, hb.2.2, hlive]
  exact h.settings

end Pending

-- ════════════════════════════════════════════════════════════════════════
-- Requests
-- ════════════════════════════════════════════════════════════════════════

section

variable {b : Board} {reboots : Bool}

/-- The three NVS transactions of a request are done: the save of the batch, the save of the
    action, and the flag. -/
def Finishes (b : Board) : Prop := b.fate 0 = .done ∧ b.fate 1 = .done ∧ b.fate 2 = .done

instance (b : Board) : Decidable (Finishes b) := inferInstanceAs (Decidable (_ ∧ _))

/-- A save that gets beyond the last key is a whole save. -/
theorem dpConfigSaveFirst_all (img : Mem) (nvs : Nvs) {n : ℕ} (hn : Fate.done.writes ≤ n) :
    dpConfigSaveFirst dpList n img nvs = dpConfigSaveFirst dpList Fate.done.writes img nvs := by
  rw [dpConfigSaveFirst, dpConfigSaveFirst, List.take_of_length_le hn, Fate.writes,
    List.take_length]

/-- `Network_Save` 4, where no transaction fails. -/
theorem networkConfigSaveHandle_trial (hsound : ∀ i n, b.fate i ≠ .failed n) :
    Wp (Board.networkConfigSaveHandle reboots 4)
      (fun _ b' => b'.img = b.img ∧
        if b.img (imgOff "Backup_SSID") = 0 then b'.nvs = b.nvs ∧ b'.trial = b.trial
        else (b.fate 0 = .done ∧ b.fate 1 = .done) ∧
          b'.nvs = dpConfigSaveFirst dpList Fate.done.writes b.img b.nvs ∧ b'.trial = some 1)
      (fun _ b' => ¬ (b.fate 0 = .done ∧ b.fate 1 = .done) ∧ b'.trial = b.trial ∧
        ∃ n, b'.nvs = dpConfigSaveFirst dpList n b.img b.nvs) b := by
  unfold Board.networkConfigSaveHandle
  simp only [wp_bind, wp_get, wp_ite]
  split_ifs with hssid
  · exact ⟨rfl, rfl, rfl⟩
  · simp only [wp_bind, wp_logging, wp_dpConfigSave, wp_trialNvsSet, wp_systemRebootDeferred]
    cases hfate : b.fate 0 with
    | failed n => exact (hsound 0 n hfate).elim
    | lost n =>
      simp only [fate_setLog, hfate]
      exact ⟨by simp, rfl, n, rfl⟩
    | done =>
      cases hflag : b.fate 1 with
      | failed n => exact (hsound 1 n hflag).elim
      | lost n =>
        simp only [fate_setLog, fate_saveFirst, fate_popFate, hfate, hflag]
        exact ⟨by simp, rfl, _, rfl⟩
      | done =>
        simp only [fate_setLog, fate_saveFirst, fate_popFate, hfate, hflag]
        exact ⟨rfl, ⟨trivial, trivial⟩, rfl, rfl⟩

/-- **A request.** When it returns it is refused, or all its transactions are done and the flag
    is up; when it stops they are not, and the flag is as before. The NVS has the keys that the
    save of the batch gets to. -/
theorem request_spec (hsound : b.Sound) (dp : Option Json)
    (hrequest : networkSave (dp.getD .null) = 4)
    (hbatch : (Datapoints.dpWriteBatch b.img (batchOf (dp.getD .null))).ok = true) :
    Wp (Board.taskComApplyDpWrite reboots dp)
      (fun _ b' => b'.nvs = dpConfigSaveFirst dpList (b.fate 0).writes
          (Datapoints.dpWriteBatch b.img (batchOf (dp.getD .null))).img b.nvs ∧
        if b.img (imgOff "Backup_SSID") = 0 then b'.trial = b.trial
        else Finishes b ∧ b'.trial = some 1)
      (fun _ b' => ¬ Finishes b ∧ b'.trial = b.trial ∧
        b'.nvs = dpConfigSaveFirst dpList (b.fate 0).writes
          (Datapoints.dpWriteBatch b.img (batchOf (dp.getD .null))).img b.nvs) b := by
  have hlog := logOnly_afterLogCommand (dp.getD .null) b
  cases dp with
  | none => exact absurd hrequest (by decide)
  | some dp =>
    rw [Option.getD_some] at hrequest hbatch hlog ⊢
    rw [Board.taskComApplyDpWrite]
    simp only [wp_bind, wp_modify, Option.getD_some]
    refine (applyBatch_committed _).mono (fun r b₂ h => ?_) (fun _ b' h => ?_)
    · obtain ⟨hr, -, ⟨hok, -⟩ | ⟨hok, hcommit⟩⟩ := h
      · rw [hr, hlog.img, hbatch] at hok
        cases hok
      have himg := hcommit.img
      have hnvs := hcommit.nvs
      rw [hlog.img] at himg
      rw [himg, hlog.fates, hlog.nvs] at hnvs
      have hfates (i : ℕ) : b₂.fate i = b.fate (i + 1) := by rw [hcommit.fates, hlog.fates]
      have htrial : b₂.trial = b.trial := hcommit.trial.trans hlog.trial
      -- The batch leaves the backup, so it decides for the action as before.
      have hssid : b₂.img (imgOff "Backup_SSID") = 0 ↔ b.img (imgOff "Backup_SSID") = 0 := by
        rw [himg, ← not_iff_not, ← ne_eq, ← ne_eq, ← backup_ssid_ne_nil, ← backup_ssid_ne_nil,
          config_backup_batch]
      have hsaved : b.fate 0 = .done := by
        cases hfate : b.fate 0 with
        | done => rfl
        | failed n => exact (hsound.fate 0 n hfate).elim
        | lost n => exact (hcommit.powered n (by rw [hlog.fates, hfate])).elim
      rw [hok, runNetworkSave, hrequest, if_neg (by decide)]
      rw [wp_bind]
      refine (networkConfigSaveHandle_trial fun i n => ?_).mono (fun saved b₃ h₃ => ?_)
        (fun _ b₃ h₃ => ?_)
      · rw [hfates]
        exact hsound.fate _ _
      · have hpost : b₃.nvs = dpConfigSaveFirst dpList (b.fate 0).writes
              (Datapoints.dpWriteBatch b.img (batchOf dp)).img b.nvs ∧
            if b.img (imgOff "Backup_SSID") = 0 then b₃.trial = b.trial
            else Finishes b ∧ b₃.trial = some 1 := by
          have h₃ := h₃.2
          by_cases hzero : b.img (imgOff "Backup_SSID") = 0
          · rw [if_pos (hssid.mpr hzero), hnvs, htrial] at h₃
            rw [if_pos hzero]
            exact h₃
          · rw [if_neg (fun h => hzero (hssid.mp h)), hfates, hfates, himg, hnvs,
              dpConfigSaveFirst_twice, hsaved, max_self] at h₃
            rw [if_neg hzero, hsaved]
            exact ⟨h₃.2.1, ⟨hsaved, h₃.1⟩, h₃.2.2⟩
        cases saved with
        | false => exact hpost
        | true => exact hpost
      · obtain ⟨hcut, htrial₃, n, hnvs₃⟩ := h₃
        rw [hfates, hfates] at hcut
        refine ⟨fun h => hcut h.2, htrial₃.trans htrial, ?_⟩
        rw [hnvs₃, himg, hnvs, dpConfigSaveFirst_twice, hsaved]
        exact dpConfigSaveFirst_all _ _ (le_max_left _ _)
    · obtain ⟨-, n, hlost, rfl⟩ := h
      rw [hlog.fates] at hlost
      refine ⟨fun h => ?_, hlog.trial, ?_⟩
      · rw [h.1] at hlost
        cases hlost
      · rw [hlost, ← hlog.img, ← hlog.nvs]
        rfl

end

-- ════════════════════════════════════════════════════════════════════════
-- Runs
-- ════════════════════════════════════════════════════════════════════════

/-- No NVS transaction fails, and the known-good values stay out of danger. A request that the
    power cuts, or that is refused, has not brought new values of the settings into the NVS; one
    that is completed has a backup whose port can be loaded. While a configuration is pending, no
    session becomes ready between the request and its boot, unless the settings are the backup,
    and none in the window of a trial after another request. -/
def TrialGuard (w : Watched) (e : Event) : Prop :=
  (∀ n, Fate.failed n ∉ e.fates) ∧
  match e with
  | .write dp _ fates =>
    let b := w.board.setFates fates
    let batch := Datapoints.dpWriteBatch b.img (batchOf (dp.getD .null))
    w.on = true → networkSave (dp.getD .null) = 4 → batch.ok = true →
      if b.img (imgOff "Backup_SSID") ≠ 0 ∧ Finishes b then
        Loads .network .serverPort (config .backup b.img .serverPort)
      else storedConfig .network (dpConfigSaveFirst dpList (b.fate 0).writes batch.img b.nvs) =
        storedConfig .network b.nvs
  | .sessionReady _ =>
    w.on = true → ∀ p, w.pending = some p →
      if w.board.trialActive = true then p.used = true
      else w.board.trial = some 1 → config .network w.board.img = config .backup w.board.img
  | _ => True

/-- What every event preserves. -/
structure Watched.Inv (w : Watched) : Prop where
  noLegacy : w.on = true → NoLegacy w.board
  safe : ∀ p, w.pending = some p → p.Safe w.board
  live : w.on = true → ∀ p, w.pending = some p → p.Live w.board

section

variable (json : Option Json) (fallback : CString × CString)

/-- What a program guarantees of an event of a running device, or of a boot. -/
theorem Station.step_of_wp {s : Station} {e : Event} (hrun : (s.on || e.isBoot) = true)
    {Q : Option NetConfig → Board → Prop} {E : Stop → Board → Prop}
    (h : Wp (e.program json fallback) Q E s.board) :
    (∃ c b, s.step json fallback e = (⟨b, true⟩, c) ∧ Q c b) ∨
      ∃ stop b, s.step json fallback e = (⟨b, false⟩, none) ∧ E stop b := by
  rw [Station.step, if_pos hrun]
  cases hprog : e.program json fallback s.board with
  | ok c b => exact .inl ⟨c, b, rfl, h.of_ok hprog⟩
  | error stop b => exact .inr ⟨stop, b, rfl, h.of_error hprog⟩

variable {json fallback} {w : Watched}

/-- A watched device without a pending configuration. -/
theorem Watched.Inv.of_none {w : Watched} (hnoLegacy : w.on = true → NoLegacy w.board)
    (hnone : w.pending = none) : w.Inv :=
  ⟨hnoLegacy, fun p hp => by simp [hnone] at hp, fun _ p hp => by simp [hnone] at hp⟩

/-- A running device with a pending configuration. -/
theorem Watched.Inv.of_live {w : Watched} {p : Pending} (hpending : w.pending = some p)
    (hlive : p.Live w.board) : w.Inv := by
  refine ⟨fun _ => hlive.safe.noLegacy, fun q hq => ?_, fun _ q hq => ?_⟩
  · cases hpending.symm.trans hq
    exact hlive.safe
  · cases hpending.symm.trans hq
    exact hlive

/-- A stopped device with a pending configuration. -/
theorem Watched.Inv.of_safe {w : Watched} {p : Pending} (hoff : w.on = false)
    (hpending : w.pending = some p) (hsafe : p.Safe w.board) : w.Inv := by
  refine ⟨fun hon => absurd (hoff.symm.trans hon) (by decide), fun q hq => ?_,
    fun hon => absurd (hoff.symm.trans hon) (by decide)⟩
  cases hpending.symm.trans hq
  exact hsafe

/-- The event of a running device, or a boot. -/
theorem Watched.step_running {w : Watched} {e : Event} (hrun : (w.on || e.isBoot) = true) :
    w.step json fallback e =
      ⟨(w.toStation.step json fallback e).1, monitor w.board w.pending e
        (w.toStation.step json fallback e).1 (w.toStation.step json fallback e).2⟩ := by
  rw [Watched.step, if_pos hrun]

/-- A boot. -/
theorem Watched.Inv.boot {w : Watched} (h : w.Inv) (start : Start) {fates : List Fate}
    (hsound : ∀ n, Fate.failed n ∉ fates) :
    (w.step json fallback (.boot start fates)).Inv ∧
      ∀ p c, w.connection json fallback (.boot start fates) w = some (p, c) → p.used = true →
        c = some p.backup := by
  have hrun : (w.on || (Event.boot start fates).isBoot) = true := Bool.or_true _
  rw [Watched.step_running hrun]
  cases hp : w.pending with
  | none =>
    refine ⟨.of_none (fun _ => ?_) rfl, fun p c hc => by simp [Watched.connection, hp] at hc⟩
    have hwp : Wp ((Event.boot start fates).program json fallback) (fun _ => NoLegacy)
        (fun _ => NoLegacy) w.board := by
      rw [Event.program, wp_bind, wp_modify]
      exact frame_noLegacy.boot json fallback start (legacyCompatible_dpInit start.id w.board.nvs)
    rcases Station.step_of_wp json fallback hrun hwp with ⟨c, b, hstep, hb⟩ | ⟨stop, b, hstep, hb⟩
    · rw [hstep]
      exact hb
    · rw [hstep]
      exact hb
  | some p =>
    have hsafe : p.Safe (w.board.setFates fates) :=
      ⟨(h.safe p hp).valid, (h.safe p hp).noLegacy, (h.safe p hp).backup, (h.safe p hp).settings⟩
    have hwp : Wp ((Event.boot start fates).program json fallback)
        (fun c b' => (p.used = true → c = some p.backup) ∧ (p.after c).Live b')
        (fun _ => p.Safe) w.board := by
      rw [Event.program, wp_bind, wp_modify]
      exact hsafe.boot hsound json fallback start
    rcases Station.step_of_wp json fallback hrun hwp with ⟨c, b, hstep, hb⟩ | ⟨stop, b, hstep, hb⟩
    · refine ⟨?_, fun q v hc hused => ?_⟩
      · rw [hstep]
        exact .of_live rfl hb.2
      · rw [Watched.connection, hp, hstep] at hc
        obtain ⟨rfl, rfl⟩ : p = q ∧ c = v := by simpa [Event.isBoot] using hc
        exact hb.1 hused
    · refine ⟨?_, fun q v hc => ?_⟩
      · rw [hstep]
        have hafter : p.after none = p := by simp [Pending.after]
        exact .of_safe rfl (congrArg some hafter) hb
      · rw [Watched.connection, hp, hstep] at hc
        simp [Event.isBoot] at hc

/-- What a program guarantees, for the invariant after an event that is no boot. -/
theorem Watched.inv_of_wp {w : Watched} {e : Event} (h : w.Inv) (hboot : e.isBoot = false)
    (hwp : w.on = true → Wp (e.program json fallback)
      (fun c b => Watched.Inv ⟨⟨b, true⟩, monitor w.board w.pending e ⟨b, true⟩ c⟩)
      (fun _ b => Watched.Inv ⟨⟨b, false⟩, monitor w.board w.pending e ⟨b, false⟩ none⟩) w.board) :
    (w.step json fallback e).Inv := by
  by_cases hon : w.on = true
  · have hrun : (w.on || e.isBoot) = true := by simp [hon]
    rw [Watched.step_running hrun]
    rcases Station.step_of_wp json fallback hrun (hwp hon) with
      ⟨c, b, hstep, hb⟩ | ⟨stop, b, hstep, hb⟩
    · rw [hstep]
      exact hb
    · rw [hstep]
      exact hb
  · rw [Watched.step, if_neg (by simp [hon, hboot])]
    exact h

theorem Watched.Inv.of_noLegacy {b : Board} {on : Bool} (h : NoLegacy b) :
    Watched.Inv ⟨⟨b, on⟩, none⟩ :=
  .of_none (fun _ => h) rfl

/-- A live configuration does not depend on the time and the transactions to come. -/
theorem Pending.Live.prepare {p : Pending} {b : Board} (h : p.Live b) (timeUs : UInt64)
    (fates : List Fate) : p.Live { b with timeUs, fates } :=
  ⟨⟨h.safe.valid, h.safe.noLegacy, h.safe.backup, h.safe.settings⟩, h.backup, h.settings⟩

/-- A command for the log leaves a live configuration. -/
theorem Pending.Live.logOnly {p : Pending} {b b' : Board} (h : p.Live b) (hlog : LogOnly b b') :
    p.Live b' := by
  refine ⟨⟨h.safe.valid, ?_, ?_, ?_⟩, ?_, ?_⟩
  · rw [NoLegacy, hlog.nvs]
    exact h.safe.noLegacy
  · rw [hlog.nvs]
    exact h.safe.backup
  · rw [Flagged, hlog.trial, hlog.nvs]
    exact h.safe.settings
  · rw [hlog.img]
    exact h.backup
  · rw [hlog.window.1, hlog.trial, hlog.img]
    exact h.settings

theorem frame_backup (c : NetConfig) : WideFrame fun b => config .backup b.img = c where
  log _ h := h
  prevBoot _ h := h
  img _ himg h := himg.trans h
  popFate h := h
  save h := h
  flag _ h := h
  window _ _ h := h

/-- **A request.** It is completed and its configuration is pending under the flag, or it has not
    touched the stored settings. -/
theorem inv_request {w : Watched} (h : w.Inv) (hon : w.on = true) {dp : Option Json}
    {reboots : Bool} {fates : List Fate} (hguard : TrialGuard w (.write dp reboots fates))
    (hrequest : networkSave (dp.getD .null) = 4)
    (hbatch : (Datapoints.dpWriteBatch w.board.img (batchOf (dp.getD .null))).ok = true) :
    Wp (Board.taskComApplyDpWrite reboots dp)
      (fun _ b => Watched.Inv
        ⟨⟨b, true⟩, monitor w.board w.pending (.write dp reboots fates) ⟨b, true⟩ none⟩)
      (fun _ b => Watched.Inv
        ⟨⟨b, false⟩, monitor w.board w.pending (.write dp reboots fates) ⟨b, false⟩ none⟩)
      (w.board.setFates fates) := by
  have hsound : (w.board.setFates fates).Sound := hguard.1
  have hnoLegacy : NoLegacy (w.board.setFates fates) := h.noLegacy hon
  have hready := hguard.2 hon hrequest hbatch
  have hlegacy : Wp (Board.taskComApplyDpWrite reboots dp) (fun _ => NoLegacy) (fun _ => NoLegacy)
      (w.board.setFates fates) :=
    frame_noLegacy.toFrame.taskComApplyDpWrite (fun _ _ => frame_noLegacy.flag 1) hnoLegacy
  have hbackup : Wp (Board.taskComApplyDpWrite reboots dp)
      (fun _ b => config .backup b.img = config .backup w.board.img) (fun _ _ => True)
      (w.board.setFates fates) :=
    ((frame_backup _).toFrame.taskComApplyDpWrite (fun _ _ => (frame_backup _).flag 1) rfl).mono
      (fun _ _ h => h) (fun _ _ _ => trivial)
  refine ((request_spec hsound dp hrequest hbatch).and (hlegacy.and hbackup)).mono
    (fun _ b hb => ?_) (fun _ b hb => ?_)
  · obtain ⟨⟨hnvs, hflag⟩, hlegacy, hbackup⟩ := hb
    by_cases hssid : w.board.img (imgOff "Backup_SSID") = 0
    · -- It is refused.
      rw [if_neg (fun h => h.1 hssid), ← hnvs] at hready
      have hstays : monitor w.board w.pending (.write dp reboots fates) ⟨b, true⟩ none =
        w.pending := by
        have hstored : storedConfig .network b.nvs = storedConfig .network w.board.nvs := hready
        simp [monitor, hrequest, Arms, hssid, hstored]
      rw [hstays]
      cases hp : w.pending with
      | none => exact .of_noLegacy hlegacy
      | some p => exact ((h.live hon p hp).ssid hssid).elim
    · obtain ⟨hfinishes, htrial⟩ : Finishes (w.board.setFates fates) ∧ b.trial = some 1 := by
        rwa [if_neg (show ¬ (w.board.setFates fates).img (imgOff "Backup_SSID") = 0 from hssid)]
          at hflag
      rw [if_pos ⟨hssid, hfinishes⟩] at hready
      have harmed : monitor w.board w.pending (.write dp reboots fates) ⟨b, true⟩ none =
          some ⟨config .backup w.board.img, false⟩ := by
        simp [monitor, hrequest, Arms, hbatch, hssid]
      rw [harmed]
      have hstored : storedConfig .backup b.nvs = config .backup w.board.img := by
        rw [hnvs, hfinishes.1]
        funext f
        rw [storedConfig_backup_saveFirst, config_backup_batch, Fate.writes, List.take_length,
          if_pos (f.point_saved .backup)]
        rfl
      exact .of_live rfl ⟨⟨⟨(backup_ssid_ne_nil _).mpr hssid, hready⟩, hlegacy, hstored,
        .inl (.inr ⟨rfl, htrial⟩)⟩, hbackup, fun _ => .inl htrial⟩
  · obtain ⟨⟨hcut, htrial, hnvs⟩, hlegacy, -⟩ := hb
    -- The power goes out before the flag: the stored settings are as before.
    rw [if_neg (fun h => hcut h.2), ← hnvs] at hready
    have hstored : storedConfig .network b.nvs = storedConfig .network w.board.nvs := hready
    have hstays : monitor w.board w.pending (.write dp reboots fates) ⟨b, false⟩ none =
      w.pending := by
      simp [monitor, hrequest, hstored]
    rw [hstays]
    cases hp : w.pending with
    | none => exact .of_noLegacy hlegacy
    | some p =>
      have hlive := h.live hon p hp
      refine .of_safe rfl rfl ⟨hlive.safe.valid, hlegacy, ?_, ?_⟩
      · rw [hnvs]
        funext f
        rw [storedConfig_backup_saveFirst, config_backup_batch]
        change (if _ then config .backup w.board.img f else storedConfig .backup w.board.nvs f) = _
        rw [hlive.backup, hlive.safe.backup, ite_self]
      · rw [Pending.Flagged, htrial, hstored]
        exact hlive.safe.settings

/-- A write. -/
theorem Watched.Inv.write {w : Watched} (h : w.Inv) (dp : Option Json) (reboots : Bool)
    {fates : List Fate} (hguard : TrialGuard w (.write dp reboots fates)) :
    (w.step json fallback (.write dp reboots fates)).Inv := by
  refine Watched.inv_of_wp h rfl fun hon => ?_
  have hsound : (w.board.setFates fates).Sound := hguard.1
  have hnoLegacy : NoLegacy (w.board.setFates fates) := h.noLegacy hon
  rw [Event.program, wp_bind, wp_modify, wp_bind]
  have hlegacy : Wp (Board.taskComApplyDpWrite reboots dp) (fun _ => NoLegacy) (fun _ => NoLegacy)
      (w.board.setFates fates) :=
    frame_noLegacy.toFrame.taskComApplyDpWrite (fun _ _ => frame_noLegacy.flag 1) hnoLegacy
  by_cases hrequest : networkSave (dp.getD .null) = 4
  · cases hbatch : (Datapoints.dpWriteBatch w.board.img (batchOf (dp.getD .null))).ok with
    | true => exact inv_request h hon hguard hrequest hbatch
    | false =>
      -- An invalid batch: the command for the log has run.
      have hinvalid := taskComApplyDpWrite_invalid (b := w.board.setFates fates) reboots dp hbatch
      refine hinvalid.mono (fun _ b hb => ?_) (fun _ _ hb => hb.elim)
      obtain ⟨-, rfl⟩ := hb
      have hlog := logOnly_afterLogCommand (dp.getD .null) (w.board.setFates fates)
      have hstays (s' : Station) (hs' : s'.board.nvs = w.board.nvs) :
          monitor w.board w.pending (.write dp reboots fates) s' none = w.pending := by
        simp [monitor, hrequest, Arms, hbatch, hs']
      rw [wp_pure, hstays _ hlog.nvs]
      cases hp : w.pending with
      | none => exact .of_noLegacy (frame_noLegacy.afterLogCommand _ hnoLegacy)
      | some p =>
        exact .of_live rfl (((h.live hon p hp).prepare w.board.timeUs fates).logOnly hlog)
  · -- Another write: it leaves the settings, or it saves another configuration.
    cases hp : w.pending with
    | none =>
      simp only [monitor, if_neg hrequest, ite_self]
      exact hlegacy.mono (fun _ _ hb => .of_noLegacy hb) (fun _ _ hb => .of_noLegacy hb)
    | some p =>
      have hwrite := ((h.live hon p hp).prepare w.board.timeUs fates).write hsound hrequest reboots
      simp only [monitor, if_neg hrequest]
      refine (hlegacy.and hwrite).mono (fun _ b hb => ?_) (fun _ b hb => ?_)
      · rw [wp_pure]
        split_ifs with hchanged
        · exact .of_noLegacy hb.1
        · rw [not_or, ne_eq, ne_eq, not_not, not_not] at hchanged
          exact .of_live rfl (hb.2 hchanged.1 hchanged.2)
      · split_ifs with hchanged
        · exact .of_noLegacy hb.1
        · rw [not_or, ne_eq, ne_eq, not_not, not_not] at hchanged
          exact .of_safe rfl rfl (hb.2 hchanged.1)

/-- A tick. -/
theorem Watched.Inv.tick {w : Watched} (h : w.Inv) (timeUs : UInt64) (reboots : Bool)
    {fates : List Fate} (hsound : ∀ n, Fate.failed n ∉ fates) :
    (w.step json fallback (.tick timeUs reboots fates)).Inv := by
  refine Watched.inv_of_wp h rfl fun hon => ?_
  rw [Event.program, wp_bind, wp_modify, wp_bind]
  cases hp : w.pending with
  | none =>
    have hnoLegacy : NoLegacy { w.board with timeUs, fates } := h.noLegacy hon
    exact (frame_noLegacy.networkConfigTrialTick reboots hnoLegacy).mono
      (fun _ _ hb => .of_noLegacy hb) (fun _ _ hb => .of_noLegacy hb)
  | some p =>
    exact (((h.live hon p hp).prepare timeUs fates).tick hsound reboots).mono
      (fun _ _ hb => .of_live rfl hb) (fun _ _ hb => .of_safe rfl rfl hb)

/-- A session that becomes ready. -/
theorem Watched.Inv.sessionReady {w : Watched} (h : w.Inv) {fates : List Fate}
    (hguard : TrialGuard w (.sessionReady fates)) :
    (w.step json fallback (.sessionReady fates)).Inv := by
  refine Watched.inv_of_wp h rfl fun hon => ?_
  rw [Event.program, wp_bind, wp_modify, wp_bind]
  have hconfirmed (hnone : ∀ s' c, monitor w.board w.pending (.sessionReady fates) s' c = none) :
      Wp glueSessionBackup
        (fun _ b => Watched.Inv
          ⟨⟨b, true⟩, monitor w.board w.pending (.sessionReady fates) ⟨b, true⟩ none⟩)
        (fun _ b => Watched.Inv
          ⟨⟨b, false⟩, monitor w.board w.pending (.sessionReady fates) ⟨b, false⟩ none⟩)
        (w.board.setFates fates) := by
    have hnoLegacy : NoLegacy (w.board.setFates fates) := h.noLegacy hon
    simp only [hnone]
    exact (noLegacy_sessionReady hnoLegacy).mono (fun _ _ hb => .of_noLegacy hb)
      (fun _ _ hb => .of_noLegacy hb)
  cases hp : w.pending with
  | none => exact hp ▸ hconfirmed (fun _ _ => by rw [hp]; rfl)
  | some p =>
    have hready := hguard.2 hon p hp
    cases hwindow : w.board.trialActive with
    | true =>
      -- The session confirms the configuration.
      rw [if_pos hwindow] at hready
      exact hp ▸ hconfirmed (fun _ _ => by simp [monitor, hp, hwindow, hready])
    | false =>
      rw [if_neg (by rw [hwindow]; decide)] at hready
      have hstays (s' : Station) (c : Option NetConfig) :
          monitor w.board (some p) (.sessionReady fates) s' c = some p := by
        simp [monitor, hwindow]
      simp only [hstays]
      exact (((h.live hon p hp).prepare w.board.timeUs fates).sessionReady hwindow hready).mono
        (fun _ _ hb => .of_live rfl hb) (fun _ _ hb => .of_safe rfl rfl hb)

/-- An event keeps the invariant, and a boot that follows the one that has used the configuration
    and runs to its end connects with the known-good values. -/
theorem Watched.Inv.step {w : Watched} (h : w.Inv) {e : Event} (hguard : TrialGuard w e) :
    (w.step json fallback e).Inv ∧
      ∀ p c, w.connection json fallback e (w.step json fallback e) = some (p, c) →
        p.used = true → c = some p.backup := by
  cases e with
  | boot start fates => exact h.boot start hguard.1
  | write dp reboots fates =>
    exact ⟨h.write dp reboots hguard,
      fun p c hc => by simp [Watched.connection, Event.isBoot] at hc⟩
  | tick timeUs reboots fates =>
    exact ⟨h.tick timeUs reboots hguard.1,
      fun p c hc => by simp [Watched.connection, Event.isBoot] at hc⟩
  | sessionReady fates =>
    exact ⟨h.sessionReady hguard, fun p c hc => by simp [Watched.connection, Event.isBoot] at hc⟩
  | powerLoss =>
    refine ⟨Watched.inv_of_wp h rfl fun hon => ?_,
      fun p c hc => by simp [Watched.connection, Event.isBoot] at hc⟩
    rw [Event.program, wp_throw]
    cases hp : w.pending with
    | none => exact .of_noLegacy (h.noLegacy hon)
    | some p => exact .of_safe rfl rfl (h.safe p hp)

/-- **The safety of a trial.** In every run of events inside the guard, from a device that is off
    with any NVS content: a configuration that a request has left, and that no session has
    confirmed, is used by one boot at most. Every later boot that runs to its end connects, with the
    backup of the time of the request, until another configuration is saved. -/
theorem trial_safe (json : Option Json) (fallback : CString × CString) (b : Board)
    (events : List Event)
    (hguard : Machine.Guarded (Watched.step json fallback) TrialGuard ⟨⟨b, false⟩, none⟩ events) :
    ∀ p c, (p, c) ∈ Machine.collect (Watched.step json fallback) (Watched.connection json fallback)
        ⟨⟨b, false⟩, none⟩ events →
      p.used = true → c = some p.backup := by
  have hrun : (Machine.run (Watched.step json fallback) ⟨⟨b, false⟩, none⟩ events).Inv ∧
      ∀ p c, (p, c) ∈ Machine.collect (Watched.step json fallback)
        (Watched.connection json fallback) ⟨⟨b, false⟩, none⟩ events →
          p.used = true → c = some p.backup := by
    refine Machine.Guarded.invariant_collect (Watched.step json fallback)
      (P := fun w (connections : List (Pending × Option NetConfig)) => w.Inv ∧
        ∀ p c, (p, c) ∈ connections → p.used = true → c = some p.backup)
      (fun w connections e hG h => ?_) ?_ events hguard
    · obtain ⟨hinv, hused⟩ := h.1.step hG
      refine ⟨hinv, fun p c hmem => ?_⟩
      rcases List.mem_append.mp hmem with hmem | hmem
      · exact h.2 p c hmem
      · exact hused p c (Option.mem_toList.mp hmem)
    · exact ⟨.of_none (fun h => by cases h) rfl, by simp⟩
  exact hrun.2

end

-- ════════════════════════════════════════════════════════════════════════
-- A request that the power cuts
-- ════════════════════════════════════════════════════════════════════════

section

variable (json : Option Json) (fallback : CString × CString)

/-- A boot without a flag connects with the stored settings, and changes nothing. -/
theorem boot_unflagged {b : Board} {start : Start} (htrial : b.trial = none)
    (hssid : config .network (start.fresh b).img .ssid ≠ []) :
    Wp (boot json fallback start)
      (fun c b' => b' = start.fresh b ∧ c = some (config .network (start.fresh b).img))
      (fun _ _ => False) b := by
  rw [boot, wp_bind, wp_modify, wp_bind]
  refine (networkConfigDefaultsApply_ssid hssid json).mono (fun _ b₁ h => ?_) (fun _ _ h => h)
  subst h
  have hcheck : Wp networkConfigTrialBootCheck (fun _ b' => b' = start.fresh b) (fun _ _ => False)
      (start.fresh b) := by
    unfold networkConfigTrialBootCheck
    rw [wp_bind, wp_trialNvsGet, Start.fresh_trial, htrial]
    exact rfl
  rw [wp_bind]
  refine hcheck.mono (fun _ b₂ h => ?_) (fun _ _ h => h)
  subst h
  exact connect_ssid hssid fallback start.saved

/-- A boot of the watched device without a flag. -/
theorem step_boot_unflagged {w : Watched} (start : Start) (htrial : w.board.trial = none)
    (hssid : config .network (start.fresh (w.board.setFates [])).img .ssid ≠ []) :
    w.step json fallback (.boot start []) =
        ⟨⟨start.fresh (w.board.setFates []), true⟩, w.pending.map (·.after (some
          (config .network (start.fresh (w.board.setFates [])).img)))⟩ ∧
      ∀ w' p, w.pending = some p → w.connection json fallback (.boot start []) w' =
        some (p, some (config .network (start.fresh (w.board.setFates [])).img)) := by
  have hwp : Wp ((Event.boot start []).program json fallback)
      (fun c b' => b' = start.fresh (w.board.setFates []) ∧
        c = some (config .network (start.fresh (w.board.setFates [])).img))
      (fun _ _ => False) w.board := by
    rw [Event.program, wp_bind, wp_modify]
    exact boot_unflagged json fallback htrial hssid
  obtain ⟨c, b, hrun, rfl, rfl⟩ := hwp.exists_ok
  have hrunning : (w.on || (Event.boot start []).isBoot) = true := Bool.or_true _
  have hstep : w.toStation.step json fallback (.boot start []) =
      (⟨start.fresh (w.board.setFates []), true⟩,
        some (config .network (start.fresh (w.board.setFates [])).img)) := by
    simp only [Station.step, hrunning, if_true, hrun]
  refine ⟨?_, fun w' p hp => ?_⟩
  · rw [Watched.step_running hrunning, hstep]
    rfl
  · rw [Watched.connection, hp, hstep]
    rfl

end

/-- A start with an empty log. -/
def exampleStart : Start where
  id := none
  saved := none
  timeUs := 0
  log := RuntimeLog.loggingInitEarly (fun _ => 0)
  prevBoot := exampleBoard.prevBoot

def homeSsid : CString := literal "home"

def awaySsid : CString := literal "away"

/-- A device that is off, with the SSID `home` in its settings and in its backup. -/
def homeBoard : Board :=
  { exampleBoard with
    nvs := Function.update (Function.update (Function.update (fun _ => none)
      (dpNvsKey (NetField.ssid.point .network)) (some (.blob (strField homeSsid))))
      (dpNvsKey (NetField.ssid.point .backup)) (some (.blob (strField homeSsid))))
      (dpNvsKey (NetField.serverPort.point .backup)) (some (.blob [187, 1])) }

/-- A request to try the SSID `away`. -/
def awayRequest : Json :=
  .object [("Network_SSID", .string awaySsid), ("Network_Save", .number 4)]

/-- The board after its first boot. -/
def bootedBoard : Board := exampleStart.fresh (homeBoard.setFates [])

theorem booted_step (json : Option Json) (fallback : CString × CString) :
    Watched.step json fallback ⟨⟨homeBoard, false⟩, none⟩ (.boot exampleStart []) =
      ⟨⟨bootedBoard, true⟩, none⟩ := by
  have hssid : config .network bootedBoard.img .ssid ≠ [] := by decide +kernel
  have hboot := step_boot_unflagged json fallback (w := ⟨⟨homeBoard, false⟩, none⟩) exampleStart rfl
    hssid
  exact hboot.1

theorem booted_unflagged : NoLegacy bootedBoard ∧ bootedBoard.trial = none :=
  ⟨legacyCompatible_dpInit none homeBoard.nvs, rfl⟩

/-- The request on that board. -/
theorem booted_request :
    bootedBoard.img (imgOff "Backup_SSID") ≠ 0 ∧
      (Datapoints.dpWriteBatch bootedBoard.img (batchOf awayRequest)).ok = true ∧
      config .network (Datapoints.dpWriteBatch bootedBoard.img (batchOf awayRequest)).img .ssid =
        Protocol.text "away" ∧
      config .backup bootedBoard.img .ssid = Protocol.text "home" ∧
      storedConfig .network bootedBoard.nvs .ssid = Protocol.text "home" ∧
      Loads .network .serverPort (config .backup bootedBoard.img .serverPort) ∧
      networkSave awayRequest = 4 := by
  decide +kernel

/-- A request that is not cut, on a board with a backup that can be restored. -/
theorem guard_completed {b : Board} (hssid : b.img (imgOff "Backup_SSID") ≠ 0)
    (hport : Loads .network .serverPort (config .backup b.img .serverPort)) (dp : Option Json)
    (pending : Option Pending) : TrialGuard ⟨⟨b, true⟩, pending⟩ (.write dp true []) := by
  refine ⟨by simp [Event.fates], fun _ _ _ => ?_⟩
  have hfinishes : Finishes (b.setFates []) := ⟨rfl, rfl, rfl⟩
  dsimp only
  rw [if_pos ⟨hssid, hfinishes⟩]
  exact hport

/-- A request, the trial boot, a power loss, and a boot. -/
def awayEvents : List Event :=
  [.boot exampleStart [], .write (some awayRequest) true [], .boot exampleStart [], .powerLoss,
    .boot exampleStart []]

theorem trial_safe_away :
    Machine.Guarded (Watched.step none (literal "", literal "")) TrialGuard
        ⟨⟨homeBoard, false⟩, none⟩ awayEvents ∧
      ∀ p c, (p, c) ∈ Machine.collect (Watched.step none (literal "", literal ""))
          (Watched.connection none (literal "", literal "")) ⟨⟨homeBoard, false⟩, none⟩ awayEvents →
        p.used = true → c = some p.backup := by
  have hquiet (w : Watched) : TrialGuard w (.boot exampleStart []) :=
    ⟨by simp [Event.fates], trivial⟩
  have hguard : Machine.Guarded (Watched.step none (literal "", literal "")) TrialGuard
      ⟨⟨homeBoard, false⟩, none⟩ awayEvents := by
    refine ⟨hquiet _, ?_, hquiet _, ⟨by simp [Event.fates], trivial⟩, hquiet _, trivial⟩
    rw [booted_step]
    exact guard_completed booted_request.1 booted_request.2.2.2.2.2.1 _ _
  exact ⟨hguard, trial_safe none (literal "", literal "") homeBoard _ hguard⟩

/-- The power goes out in a request between the saves and the flag: the settings are stored, and
    the flag is not up. -/
theorem step_cut (json : Option Json) (fallback : CString × CString) {b : Board} {dp : Json}
    (hlegacy : NoLegacy b) (htrial : b.trial = none) (hssid : b.img (imgOff "Backup_SSID") ≠ 0)
    (hrequest : networkSave dp = 4)
    (hok : (Datapoints.dpWriteBatch b.img (batchOf dp)).ok = true) :
    ∃ b', b'.trial = none ∧ NoLegacy b' ∧
      storedConfig .network b'.nvs .ssid =
        config .network (Datapoints.dpWriteBatch b.img (batchOf dp)).img .ssid ∧
      Watched.step json fallback ⟨⟨b, true⟩, none⟩ (.write (some dp) true [.done, .done, .lost 0]) =
        ⟨⟨b', false⟩, if storedConfig .network b'.nvs ≠ storedConfig .network b.nvs then
          some ⟨config .backup b.img, false⟩ else none⟩ := by
  have hsound : (b.setFates [.done, .done, .lost 0]).Sound := by simp [Board.Sound]
  have hwp : Wp ((Event.write (some dp) true [.done, .done, .lost 0]).program json fallback)
      (fun _ _ => False)
      (fun _ b' => (b'.trial = none ∧ b'.nvs = dpConfigSaveFirst dpList Fate.done.writes
        (Datapoints.dpWriteBatch b.img (batchOf dp)).img b.nvs) ∧ NoLegacy b') b := by
    rw [Event.program, wp_bind, wp_modify, wp_bind]
    have hkept : Wp (Board.taskComApplyDpWrite true (some dp)) (fun _ => NoLegacy)
        (fun _ => NoLegacy) (b.setFates [.done, .done, .lost 0]) :=
      frame_noLegacy.toFrame.taskComApplyDpWrite (fun _ _ => frame_noLegacy.flag 1) hlegacy
    refine ((request_spec hsound (some dp) hrequest hok).and hkept).mono (fun _ b' h => ?_)
      (fun _ b' h => ?_)
    · -- It cannot return: the third transaction is cut.
      have hflag := h.1.2
      rw [Board.setFates_img, if_neg hssid] at hflag
      cases hflag.1.2.2
    · exact ⟨⟨h.1.2.1.trans htrial, h.1.2.2⟩, h.2⟩
  obtain ⟨stop, b', hrun, ⟨htrial', hnvs⟩, hlegacy'⟩ := hwp.exists_error
  refine ⟨b', htrial', hlegacy', ?_, ?_⟩
  · rw [hnvs, storedConfig_saveFirst (loads_of_ne (by decide) _), Fate.writes, List.take_length,
      if_pos (NetField.point_saved .network .ssid)]
  · have hstep : Station.step json fallback ⟨b, true⟩
        (.write (some dp) true [.done, .done, .lost 0]) = (⟨b', false⟩, none) := by
      simp only [Station.step, Bool.true_or, if_true, hrun]
    rw [Watched.step_running (w := ⟨⟨b, true⟩, none⟩) rfl, hstep]
    simp [monitor, hrequest]

/-- A request that is cut between the saves and the flag, and two boots. -/
def cutEvents : List Event :=
  [.boot exampleStart [], .write (some awayRequest) true [.done, .done, .lost 0],
    .boot exampleStart [], .boot exampleStart []]

/-- The configuration that was cut off is used by the two boots after it: the second of them finds
    it used and connects with it again. -/
theorem trial_cut_used_twice :
    (∀ e ∈ cutEvents, ∀ n, Fate.failed n ∉ e.fates) ∧
    ∃ p c, (p, some c) ∈ Machine.collect (Watched.step none (literal "", literal ""))
        (Watched.connection none (literal "", literal "")) ⟨⟨homeBoard, false⟩, none⟩ cutEvents ∧
      p.used = true ∧ p.backup .ssid = Protocol.text "home" ∧ c .ssid = Protocol.text "away" := by
  obtain ⟨hssid, hok, haway, hhome, hold, -, hrequest⟩ := booted_request
  obtain ⟨b, htrial, hlegacy, hstored, hcut⟩ := step_cut none (literal "", literal "")
    booted_unflagged.1 booted_unflagged.2 hssid hrequest hok
  rw [haway] at hstored
  have hchanged : storedConfig .network b.nvs ≠ storedConfig .network bootedBoard.nvs := by
    intro h
    rw [h, hold] at hstored
    exact absurd hstored (by decide)
  rw [if_pos hchanged] at hcut
  -- Each of the two boots connects with the stored settings.
  have hboots (b : Board) (hlegacy : NoLegacy b)
      (hstored : storedConfig .network b.nvs .ssid = Protocol.text "away") :
      config .network (exampleStart.fresh (b.setFates [])).img .ssid = Protocol.text "away" :=
    (congrFun (config_boot hlegacy none .network) .ssid).trans hstored
  have hfirst := hboots b hlegacy hstored
  have hsecond := hboots (exampleStart.fresh (b.setFates [])) (legacyCompatible_dpInit none b.nvs)
    ((congrFun (storedConfig_boot hlegacy none .network) .ssid).trans hstored)
  have hone := step_boot_unflagged none (literal "", literal "")
    (w := ⟨⟨b, false⟩, some ⟨config .backup bootedBoard.img, false⟩⟩) exampleStart htrial
    (by rw [hfirst]; decide)
  have htwo := step_boot_unflagged none (literal "", literal "")
    (w := ⟨⟨exampleStart.fresh (b.setFates []), true⟩, some ⟨config .backup bootedBoard.img, true⟩⟩)
    exampleStart htrial (by rw [hsecond]; decide)
  have hsound : ∀ e ∈ cutEvents, ∀ n, Fate.failed n ∉ e.fates := by
    rw [cutEvents]
    simp [Event.fates]
  have hstep : Watched.step none (literal "", literal "")
      ⟨⟨b, false⟩, some ⟨config .backup bootedBoard.img, false⟩⟩ (.boot exampleStart []) =
      ⟨⟨exampleStart.fresh (b.setFates []), true⟩, some ⟨config .backup bootedBoard.img, true⟩⟩ :=
    hone.1
  refine ⟨hsound, ⟨config .backup bootedBoard.img, true⟩,
    config .network (exampleStart.fresh ((exampleStart.fresh (b.setFates [])).setFates [])).img,
    ?_, rfl, ?_, hsecond⟩
  · rw [cutEvents, Machine.collect, booted_step, Machine.collect, hcut, Machine.collect, hstep,
      Machine.collect, htwo.2 _ _ rfl]
    simp
  · rw [← hhome]

end Fountainer.Network
