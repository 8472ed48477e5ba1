import Fountainer.Canopen.View
import Fountainer.Datapoints.Rules
import Fountainer.Device.CanTask

/-!
# Secrets and the CAN bus

`Network_Password` and `Backup_Password` do not reach the bus: with their bytes blanked out, the
store answers every callback of the core as before.
-/

namespace Fountainer.Device

open Bytes
open Canopen Datapoints Network

/-- The byte lies in the slot of a secret point. -/
def isSecretByte (i : ℕ) : Bool :=
  (gDp dpList).any fun d => dpIsSecret d.toDpPoint && decide (d.off ≤ i ∧ i < d.off + d.size)

/-- The images agree in all but the secrets. -/
def Agree (a b : Mem) : Prop := ∀ i, isSecretByte i = false → a i = b i

variable {a b a' b' : Mem}

theorem Agree.refl (a : Mem) : Agree a a := fun _ _ => rfl

theorem isSecretByte_of_mem {d : DpDesc} (hd : d ∈ gDp dpList) (hs : dpIsSecret d.toDpPoint = true)
    {i : ℕ} (hle : d.off ≤ i) (hlt : i < d.off + d.size) : isSecretByte i = true := by
  rw [isSecretByte, List.any_eq_true]
  exact ⟨d, hd, by simp [hs, hle, hlt]⟩

/-- A slot of another point has no secret byte. -/
theorem isSecretByte_eq_false {d : DpDesc} (hd : d ∈ gDp dpList)
    (hs : dpIsSecret d.toDpPoint = false) {i : ℕ} (hle : d.off ≤ i) (hlt : i < d.off + d.size) :
    isSecretByte i = false := by
  rw [isSecretByte, List.any_eq_false]
  rintro e he hi
  rw [Bool.and_eq_true, decide_eq_true_eq] at hi
  have hne : d ≠ e := by
    rintro rfl
    rw [hs] at hi
    cases hi.1
  have := gDp_disjoint hd he hne
  omega

theorem Agree.read (h : Agree a b) {d : DpDesc} (hd : d ∈ gDp dpList)
    (hs : dpIsSecret d.toDpPoint = false) : read a d.off d.size = read b d.off d.size := by
  refine List.map_congr_left fun k hk => h _ ?_
  have := List.mem_range.mp hk
  exact isSecretByte_eq_false hd hs (Nat.le_add_right _ _) (by omega)

/-- The same bytes written to both. -/
theorem Agree.write (h : Agree a b) (off : ℕ) (bs : List UInt8) :
    Agree (write a off bs) (write b off bs) := by
  intro i hi
  simp only [Bytes.write]
  split
  · rfl
  · exact h i hi

/-- What is written over a secret does not matter. -/
theorem Agree.write_secret (h : Agree a b) {d : DpDesc} (hd : d ∈ gDp dpList)
    (hs : dpIsSecret d.toDpPoint = true) {bs bs' : List UInt8} (hbs : bs.length = d.size)
    (hbs' : bs'.length = d.size) : Agree (Bytes.write a d.off bs) (Bytes.write b d.off bs') := by
  intro i hi
  have hout : i < d.off ∨ d.off + d.size ≤ i := by
    by_contra hin
    rw [isSecretByte_of_mem hd hs (by omega) (by omega)] at hi
    cases hi
  rw [write_outside (by omega), write_outside (by omega)]
  exact h i hi

/-- A slot copied from images that agree. -/
theorem Agree.write_read (h : Agree a b) (h' : Agree a' b') (off n : ℕ) :
    Agree (Bytes.write a off (Bytes.read a' off n)) (Bytes.write b off (Bytes.read b' off n)) := by
  intro i hi
  by_cases hin : off ≤ i ∧ i < off + n
  · rw [write_read_inside hin.1 hin.2, write_read_inside hin.1 hin.2]
    exact h' i hi
  · rw [write_outside (by rw [length_read]; omega), write_outside (by rw [length_read]; omega)]
    exact h i hi

/-- The points that the code names, with the bytes it reads of them, are not secret. -/
def Public (n : ℕ) (name : String) : Prop :=
  (dpFind dpList name).any (fun d => !dpIsSecret d.toDpPoint && n ≤ d.size) = true

instance (n : ℕ) (name : String) : Decidable (Public n name) :=
  inferInstanceAs (Decidable (_ = true))

theorem Agree.read_public (h : Agree a b) {n : ℕ} {name : String} (hp : Public n name) :
    Bytes.read a (imgOff name) n = Bytes.read b (imgOff name) n := by
  obtain ⟨d, hd, hpub⟩ := (Option.any_eq_true _ _).mp hp
  rw [Bool.and_eq_true, decide_eq_true_eq, Bool.not_eq_true'] at hpub
  have heq := h.read (dpFind_mem hd) hpub.1
  rw [imgOff_eq hd, ← Nat.min_eq_left hpub.2, ← take_read, heq, take_read]

theorem Agree.byte (h : Agree a b) {name : String} (hp : Public 1 name) :
    a (imgOff name) = b (imgOff name) := by
  simpa [Bytes.read] using h.read_public hp

theorem Agree.imgU16 (h : Agree a b) {name : String} (hp : Public 2 name) :
    imgU16 a name = imgU16 b name :=
  rdU16_congr (h.read_public hp)

theorem Agree.imgF32 (h : Agree a b) {name : String} (hp : Public 4 name) :
    imgF32 a name = imgF32 b name :=
  congrArg Float32.ofBits (rdU32_congr (h.read_public hp))

theorem Agree.imgString (h : Agree a b) {name : String} (hp : Public dpStrMax name) :
    imgString a name = imgString b name := by
  simp only [Device.imgString, h.read_public hp]

/-! ### Reads -/

theorem Agree.odReadDp (h : Agree a b) {d : DpDesc} (hd : d ∈ gDp dpList) (cap : ℕ) :
    odReadDp a d cap = odReadDp b d cap := by
  simp only [Device.odReadDp]
  split
  · rfl
  · rename_i hs
    rw [not_or, Bool.not_eq_true] at hs
    rw [h.read hd hs.2]

theorem pointAt_mem {base : ℕ} {index : UInt16} {d : DpDesc} (h : pointAt base index = some d) :
    d ∈ gDp dpList := by
  unfold pointAt at h
  split at h
  · exact List.mem_of_getElem? h
  · cases h

/-- A read answers without the secrets. -/
theorem Agree.odReadCb (h : Agree a b) (index : UInt16) (sub : UInt8) (cap : ℕ) :
    odReadCb a index sub cap = odReadCb b index sub cap := by
  simp only [Device.odReadCb]
  split
  · rfl
  split
  · rename_i d hd
    rw [h.odReadDp (pointAt_mem hd)]
  · rfl
  · rfl

/-! ### Writes -/

/-- An item is applied to both images, or to neither. -/
theorem Agree.applyItem (h : Agree a b) (item : Option String × Json) :
    (∃ err, applyItem dpList a item = .error err ∧ applyItem dpList b item = .error err) ∨
      ∃ ta tb, applyItem dpList a item = .ok ta ∧ applyItem dpList b item = .ok tb ∧
        Agree ta tb := by
  unfold Datapoints.applyItem
  split
  · exact .inl ⟨_, rfl, rfl⟩
  split_ifs
  · exact .inl ⟨_, rfl, rfl⟩
  split
  · exact .inr ⟨_, _, rfl, rfl, h.write _ _⟩
  · exact .inl ⟨_, rfl, rfl⟩

theorem Agree.validate (h : Agree a b) (items : List (Option String × Json)) :
    (validate dpList a items).2 = (validate dpList b items).2 ∧
      Agree (validate dpList a items).1 (validate dpList b items).1 := by
  induction items generalizing a b with
  | nil => exact ⟨rfl, h⟩
  | cons item items ih =>
    simp only [Datapoints.validate]
    rcases h.applyItem item with ⟨err, ha, hb⟩ | ⟨ta, tb, ha, hb, ht⟩
    · rw [ha, hb]
      exact ⟨congrArg ((itemName item, err) :: ·) (ih h).1, (ih h).2⟩
    · rw [ha, hb]
      exact ih ht

theorem Agree.commit (h : Agree a b) (h' : Agree a' b') (items : List (Option String × Json)) :
    Agree (commit dpList a' a items) (commit dpList b' b items) := by
  induction items generalizing a b with
  | nil => exact h
  | cons item items ih =>
    simp only [Datapoints.commit]
    split
    · split_ifs
      · exact ih (h.write_read h' _ _)
      · exact ih h
    · exact ih h

theorem Agree.dpConstraintsOk (h : Agree a b) : dpConstraintsOk a = dpConstraintsOk b := by
  simp only [Datapoints.dpConstraintsOk,
    h.imgF32 (show Public 4 "Fon_Min_Pressure" by decide +kernel),
    h.imgF32 (show Public 4 "Fon_Max_Pressure" by decide +kernel),
    h.imgF32 (show Public 4 "Fon_Alert_High_Pressure" by decide +kernel),
    h.imgF32 (show Public 4 "Fon_Alert_Low_Pressure" by decide +kernel),
    h.imgU16 (show Public 2 "Fon_Max_On_Time" by decide +kernel),
    h.imgU16 (show Public 2 "Fon_Min_On_Time" by decide +kernel),
    h.imgU16 (show Public 2 "Fon_Dry_Run_Detect_Time" by decide +kernel),
    h.imgU16 (show Public 2 "Fon_Report_Interval" by decide +kernel),
    h.imgU16 (show Public 2 "Can_Bitrate" by decide +kernel)]

/-- A batch is answered without the secrets. -/
theorem Agree.dpWriteBatch (h : Agree a b) (dpIn : Json) :
    (dpWriteBatch a dpIn).ok = (dpWriteBatch b dpIn).ok ∧
      (dpWriteBatch a dpIn).errors = (dpWriteBatch b dpIn).errors ∧
      Agree (dpWriteBatch a dpIn).img (dpWriteBatch b dpIn).img := by
  obtain ⟨herr, htmp⟩ := h.validate dpIn.children
  simp only [Datapoints.dpWriteBatch, dpWriteBatchWith, herr, htmp.dpConstraintsOk]
  split
  · exact ⟨rfl, rfl, h⟩
  · split
    · exact ⟨rfl, rfl, h⟩
    · exact ⟨rfl, rfl, h.commit htmp _⟩

theorem Agree.copyField (h : Agree a b) (n : ℕ) (dst : String) {src : String} (hp : Public n src) :
    Agree (copyField n a dst src) (copyField n b dst src) := by
  simp only [Network.copyField, h.read_public hp]
  exact h.write _ _

theorem Agree.dpStrSet (h : Agree a b) (dst : String) {src : String}
    (hp : Public (dpStrMax - 1) src) :
    Agree (dpStrSet a dst src) (dpStrSet b dst src) := by
  simp only [Network.dpStrSet, h.read_public hp]
  exact h.write _ _

/-- A secret may be copied over a secret. -/
theorem Agree.dpStrSet_secret (h : Agree a b) {dst : String} {d : DpDesc}
    (hd : dpFind dpList dst = some d) (hs : dpIsSecret d.toDpPoint = true) (ht : d.type = .str)
    (src : String) : Agree (Network.dpStrSet a dst src) (Network.dpStrSet b dst src) := by
  have hlen : ∀ m : Mem, let s := (Bytes.read m (imgOff src) (dpStrMax - 1)).takeWhile (· ≠ 0)
      (s ++ List.replicate (dpStrMax - s.length) 0).length = d.size := by
    intro m s
    have hle : s.length ≤ dpStrMax - 1 := by
      rw [← length_read m (imgOff src) (dpStrMax - 1)]
      exact (List.takeWhile_sublist _).length_le
    rw [List.length_append, List.length_replicate, DpDesc.size, ht, DpType.size]
    omega
  simp only [Network.dpStrSet, imgOff_eq hd]
  exact h.write_secret (dpFind_mem hd) hs (hlen a) (hlen b)

theorem networkPassword_secret : ∃ d, dpFind dpList "Network_Password" = some d ∧
    dpIsSecret d.toDpPoint = true ∧ d.type = .str := by
  have h : (dpFind dpList "Network_Password").any
      (fun d => dpIsSecret d.toDpPoint && d.type == .str) = true := by decide +kernel
  obtain ⟨d, hd, hs⟩ := (Option.any_eq_true _ _).mp h
  rw [Bool.and_eq_true, beq_iff_eq] at hs
  exact ⟨d, hd, hs⟩

theorem Agree.restoreFromBackup (h : Agree a b) :
    Agree (restoreFromBackup a) (restoreFromBackup b) := by
  have hstr : ∀ src ∈ ["Backup_IP_Address", "Backup_Subnetmask", "Backup_Gateway", "Backup_Server",
      "Backup_SSID"], Public (dpStrMax - 1) src := by decide +kernel
  have hdhcp := h.copyField 1 "Network_DHCP" (show Public 1 "Backup_DHCP" by decide +kernel)
  have hport := hdhcp.copyField 2 "Network_Server_Port"
    (show Public 2 "Backup_Server_Port" by decide +kernel)
  have hip := hport.dpStrSet "Network_IP_Address" (hstr "Backup_IP_Address" (by simp))
  have hmask := hip.dpStrSet "Network_Subnetmask" (hstr "Backup_Subnetmask" (by simp))
  have hgw := hmask.dpStrSet "Network_Gateway" (hstr "Backup_Gateway" (by simp))
  have hserver := hgw.dpStrSet "Network_Server" (hstr "Backup_Server" (by simp))
  have hssid := hserver.dpStrSet "Network_SSID" (hstr "Backup_SSID" (by simp))
  obtain ⟨d, hd, hs⟩ := networkPassword_secret
  exact hssid.dpStrSet_secret hd hs.1 hs.2 _

theorem Agree.networkConfigSaveHandle (h : Agree a b) (reboots : Bool) (action : UInt8) :
    (networkConfigSaveHandle reboots a action).1 = (networkConfigSaveHandle reboots b action).1 ∧
      Agree (networkConfigSaveHandle reboots a action).2
        (networkConfigSaveHandle reboots b action).2 := by
  have hssid := h.byte (show Public 1 "Backup_SSID" by decide +kernel)
  have hrestore := h.restoreFromBackup
  unfold Network.networkConfigSaveHandle
  split
  · exact ⟨rfl, h⟩
  · exact ⟨rfl, h⟩
  · refine ⟨rfl, ?_⟩
    dsimp only
    exact hrestore
  · simp only [hssid]
    split_ifs
    · exact ⟨rfl, h⟩
    · exact ⟨rfl, h⟩
  · exact ⟨rfl, h⟩

theorem Agree.taskComApplyDpWrite (h : Agree a b) (reboots : Bool) (dp : Json) :
    (taskComApplyDpWrite reboots a dp).1 = (taskComApplyDpWrite reboots b dp).1 ∧
      Agree (taskComApplyDpWrite reboots a dp).2 (taskComApplyDpWrite reboots b dp).2 := by
  obtain ⟨hok, herr, himg⟩ := h.dpWriteBatch (batchOf dp)
  obtain ⟨hans, himg'⟩ := himg.networkConfigSaveHandle reboots (networkSave dp)
  simp only [Network.taskComApplyDpWrite, hok, herr, hans]
  split_ifs
  · exact ⟨rfl, himg⟩
  · exact ⟨rfl, himg⟩
  · exact ⟨rfl, himg'⟩
  · exact ⟨rfl, himg'⟩

/-- A write is answered without the secrets, and the images agree behind it. -/
theorem Agree.odWriteCb (h : Agree a b) (reboots : Bool) (index : UInt16) (sub : UInt8)
    (buf : List UInt8) :
    (odWriteCb reboots a index sub buf).1 = (odWriteCb reboots b index sub buf).1 ∧
      Agree (odWriteCb reboots a index sub buf).2 (odWriteCb reboots b index sub buf).2 := by
  unfold Device.odWriteCb
  split
  · exact ⟨rfl, h⟩
  split
  · exact ⟨rfl, h⟩
  rename_i d hd _ v hv
  obtain ⟨hans, himg⟩ := h.taskComApplyDpWrite reboots (.object [(d.name, v)])
  exact ⟨congrArg (abortOf d.name) hans, himg⟩

/-! ### The task over a store without secrets -/

/-- The image with the secrets blanked out. -/
def maskSecrets (img : Mem) : Mem := fun i => if isSecretByte i then 0 else img i

theorem maskSecrets_apply (img : Mem) (i : ℕ) :
    maskSecrets img i = if isSecretByte i then 0 else img i := rfl

attribute [irreducible] maskSecrets

theorem maskSecrets_eq_iff : maskSecrets a = maskSecrets b ↔ Agree a b := by
  constructor
  · intro h i hi
    have := congrFun h i
    rw [maskSecrets_apply, maskSecrets_apply, hi] at this
    exact this
  · intro h
    funext i
    rw [maskSecrets_apply, maskSecrets_apply]
    split_ifs with hi
    · rfl
    · exact h i (Bool.eq_false_of_not_eq_true hi)

theorem agree_maskSecrets (a : Mem) : Agree (maskSecrets a) a := by
  intro i hi
  rw [maskSecrets_apply, hi]
  rfl

variable {ε : Type*}

/-- What is not secret of the state of the task: the rest of the store, and the surroundings. -/
def publicState (s : CanState ε) : CanState ε := { s with img := maskSecrets s.img }

/-- The task over the public states. -/
def maskedApp (E : CanEnv ε) : App (CanState ε) where
  send s f := Prod.map id publicState ((canApp E).send s f)
  odRead s index sub cap := Prod.map id publicState ((canApp E).odRead s index sub cap)
  odWrite s index sub buf := Prod.map id publicState ((canApp E).odWrite s index sub buf)
  onReset s resetNode := Prod.map id publicState ((canApp E).onReset s resetNode)
  onNmtChanged s old new := publicState ((canApp E).onNmtChanged s old new)

theorem publicState_congr {e : ε} (h : Agree a b) :
    publicState { img := a, env := e } = publicState { img := b, env := e } := by
  simp only [publicState, maskSecrets_eq_iff.2 h]

theorem Agree.resetCalls (h : Agree a b) : resetCalls a = resetCalls b := by
  have hfault := h.byte (show Public 1 "Fon_Fault_Code" by decide +kernel)
  rw [Device.resetCalls, Device.resetCalls, hfault]

/-- **The task is the same without the secrets**: every callback answers as before. -/
theorem canApp_view (E : CanEnv ε) : AppView (canApp E) (maskedApp E) publicState := by
  refine ⟨fun s f => ?_, fun s index sub cap => ?_, fun s index sub buf => ?_, fun s r => ?_,
    fun s old new => ?_⟩
  · have h := publicState_congr (e := (E.transmit s.env f).2) (agree_maskSecrets s.img)
    exact congrArg (Prod.mk _) h
  · have h := publicState_congr (e := s.env) (agree_maskSecrets s.img)
    have hr := (agree_maskSecrets s.img).odReadCb index sub cap
    exact congrArg₂ Prod.mk hr h
  · obtain ⟨hcode, himg⟩ :=
      (agree_maskSecrets s.img).odWriteCb (E.written s.env index sub buf).1 index sub buf
    exact congrArg₂ Prod.mk hcode (publicState_congr himg)
  · have h := publicState_congr (e := s.env) (agree_maskSecrets s.img)
    exact congrArg₂ Prod.mk (agree_maskSecrets s.img).resetCalls h
  · exact publicState_congr (agree_maskSecrets s.img)

theorem Agree.coreConfig (h : Agree a b) (hwRev : CString) :
    coreConfig hwRev a = coreConfig hwRev b := by
  have hserial : rdU32 a (imgOff "Device_Serial_Number") =
      rdU32 b (imgOff "Device_Serial_Number") :=
    rdU32_congr (h.read_public (by decide +kernel))
  simp only [Device.coreConfig, hserial,
    h.byte (show Public 1 "Can_Node_Id" by decide +kernel),
    h.imgU16 (show Public 2 "Can_Heartbeat_Ms" by decide +kernel),
    h.imgString (show Public dpStrMax "Device_SW_Version" by decide +kernel)]

/-- The same step of the task in two runs. -/
inductive SameOp : CanOp ε → CanOp ε → Prop where
  | start (nowMs : UInt32) : SameOp (.start nowMs) (.start nowMs)
  | call {c c' : CoCall (CanState ε)} (h : SameCall publicState c c') : SameOp (.call c) (.call c')

theorem canStep_view (E : CanEnv ε) (hwRev : CString) {w w' : World (CanState ε)}
    (hw : w.view publicState = w'.view publicState) {op op' : CanOp ε} (hop : SameOp op op') :
    (canStep E hwRev w op).view publicState = (canStep E hwRev w' op').view publicState := by
  have h := canApp_view E
  cases hop with
  | start nowMs =>
    have happ : publicState w.app = publicState w'.app :=
      congrArg (fun v : World (CanState ε) => v.app) hw
    have himg : Agree w.app.img w'.app.img := maskSecrets_eq_iff.1 (congrArg CanState.img happ)
    simp only [canStep, coreStart, ← World.view_foldl _ h.ownerCall, ← h.coInit, himg.coreConfig,
      himg.resetCalls, happ]
  | call hc => exact h.coStep hw hc

/-- **Secrets do not leak over CAN**: two runs of the task that start with stores that agree in all
    but the secrets, and take the same steps, transmit the same frames. -/
theorem secrets_stay_off_bus (E : CanEnv ε) (hwRev : CString) (n : CoNode) (out : List Effect)
    (e : ε) {a b : Mem} (hab : Agree a b) {ops ops' : List (CanOp ε)}
    (hops : List.Forall₂ SameOp ops ops') :
    transmitted E hwRev ⟨n, ⟨a, e⟩, out⟩ ops = transmitted E hwRev ⟨n, ⟨b, e⟩, out⟩ ops' := by
  have hrun : ∀ w w' : World (CanState ε), w.view publicState = w'.view publicState →
      transmitted E hwRev w ops = transmitted E hwRev w' ops' := by
    induction hops with
    | nil => exact fun _ _ _ => rfl
    | cons hop _ ih =>
      intro w w' hw
      have hstep := canStep_view E hwRev hw hop
      have hout := congrArg (fun v : World (CanState ε) => v.out) hstep
      rw [transmitted, transmitted, ih _ _ hstep]
      exact congrArg (fun o => sentFrames o ++ _) hout
  refine hrun _ _ ?_
  simp only [World.view, publicState_congr hab]

/-- Surroundings in which the driver takes every frame and every write goes through. -/
def quietEnv : CanEnv Unit where
  transmit e _ := (true, e)
  written e _ _ _ := (true, e)
  nmtChanged e _ _ := e

/-- A store with a password. -/
def passwordStore : Mem :=
  Bytes.write (fun _ => 0) (imgOff "Network_Password") (List.replicate dpStrMax 65)

/-- The upload of `Network_Password`, asked for over SDO. -/
def passwordRequest : CoFrame :=
  let index := UInt16.ofNat (coIdxDpBase + dpList.findIdx (·.name == "Network_Password"))
  CoFrame.ofBytes 0x603 ([0x40] ++ leU16 index ++ [0, 0, 0, 0, 0])

theorem passwordStore_agree : Agree passwordStore (fun _ => 0) := by
  obtain ⟨d, hd, hs⟩ := networkPassword_secret
  intro i hi
  rw [passwordStore, imgOff_eq hd]
  refine write_outside ?_
  by_contra hin
  rw [List.length_replicate] at hin
  rw [isSecretByte_of_mem (dpFind_mem hd) hs.1 (by omega)
    (by rw [DpDesc.size, hs.2, DpType.size]; omega)] at hi
  cases hi

/-- A task that has not started its core, over a store. -/
def beforeStart (img : Mem) : World (CanState Unit) where
  node := blankNode (coreConfig Protocol.emptyString fun _ => 0) 0
  app := { img, env := () }
  out := []

theorem passwordRequest_same_answer :
    transmitted quietEnv Protocol.emptyString (beforeStart passwordStore)
        [.start 0, .call (.rx passwordRequest 1), .call (.tick 2)] =
      transmitted quietEnv Protocol.emptyString (beforeStart fun _ => 0)
        [.start 0, .call (.rx passwordRequest 1), .call (.tick 2)] :=
  secrets_stay_off_bus quietEnv Protocol.emptyString _ [] () passwordStore_agree
    (.cons (.start 0) (.cons (.call (.rx _ _)) (.cons (.call (.tick _)) .nil)))

end Fountainer.Device
