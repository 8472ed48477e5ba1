import Fountainer.Datapoints.Reboot
import Fountainer.Lib.Outage

/-!
# The migration of the legacy blob

`dp_config_migrate_blob` call by call: each NVS call of it is done, fails, or does not come back
because the power goes out. What a call writes is in the flash when it returns; a commit adds
nothing to that.
-/

namespace Fountainer.Datapoints.Migration

open Bytes Outage

/-- What becomes of an NVS call. A loss behind the effect of a call is a loss before the next. -/
inductive Fate where
  | done
  | failed
  | lost
deriving DecidableEq

/-- The NVS calls of the migration. -/
inductive Call where
  | open
  | getVer
  | getLength
  | getBlob
  | saveOpen
  | set (i : ℕ)
  | saveCommit
  | eraseOpen
  | eraseCfg
  | eraseVer
  | eraseCommit

/-- The store and the flash. -/
structure Flash where
  img : Mem
  nvs : Nvs

inductive PowerLost where
  | powerLost

abbrev Boot := EStateM PowerLost Flash

/-- The entry erased. -/
def Flash.erase (key : NvsKey) (s : Flash) : Flash :=
  { s with nvs := Function.update s.nvs key none }

/-- The entry stored. -/
def Flash.store (snap : Mem) (d : DpDesc) (s : Flash) : Flash :=
  { s with nvs := saveKey snap s.nvs d }

section

variable (fate : Call → Fate)

/-- An NVS call and what it does to the flash. -/
def nvsCall (c : Call) (effect : Flash → Flash) : Boot Bool :=
  match fate c with
  | .done => do
    modify effect
    return true
  | .failed => return false
  | .lost => throw .powerLost

/-- `nvs_get_u16` of the version. -/
def getVer : Boot (Option UInt16) := do
  let ok ← nvsCall fate .getVer id
  let s ← get
  match s.nvs .ver with
  | some (.u16 ver) => return if ok then some ver else none
  | _ => return none

/-- `nvs_get_blob` without a buffer: the length of the blob. -/
def getLength : Boot (Option ℕ) := do
  let ok ← nvsCall fate .getLength id
  let s ← get
  match s.nvs .cfg with
  | some (.blob bytes) => return if ok then some bytes.length else none
  | _ => return none

/-- The blob read to this place of the image. -/
def Flash.adopt (off : ℕ) (s : Flash) : Flash :=
  match s.nvs .cfg with
  | some (.blob bytes) => { s with img := write s.img off bytes }
  | _ => s

/-- The loop of `dp_config_save`, from the key `i` on. -/
def saveKeys (snap : Mem) : ℕ → List DpDesc → Boot Bool
  | _, [] => return true
  | i, d :: ds => do
    if ← nvsCall fate (.set i) (Flash.store snap d) then saveKeys snap (i + 1) ds
    else return false

/-- `dp_config_save`: whether it is `ESP_OK`. -/
def dpConfigSave : Boot Bool := do
  if ← nvsCall fate .saveOpen id then
    let s ← get
    if ← saveKeys fate s.img 0 (savedPoints dpList) then nvsCall fate .saveCommit id
    else return false
  else return false

/-- The two keys of the blob erased and the commit. -/
def eraseKeys : Boot Unit := do
  let _ ← nvsCall fate .eraseCfg (Flash.erase .cfg)
  let _ ← nvsCall fate .eraseVer (Flash.erase .ver)
  let _ ← nvsCall fate .eraseCommit id

/-- The branch of a compatible blob. -/
def adoptBlob : Boot Unit := do
  let _ ← nvsCall fate .getBlob (Flash.adopt (dpComputeCfgRegion dpList).1)
  let _ ← dpConfigSave fate
  if ← nvsCall fate .eraseOpen id then eraseKeys fate

/-- `dp_config_migrate_blob`. -/
def dpConfigMigrateBlob : Boot Unit := do
  if ← nvsCall fate .open id then
    if let some ver ← getVer fate then
      if let some len ← getLength fate then
        if ver = dpCfgVersion ∧ len = (dpComputeCfgRegion dpList).2 then adoptBlob fate
        else eraseKeys fate

/-- How many of `n` keys are set one after the other, from the key `i` on. -/
def setsDone : ℕ → ℕ → ℕ
  | _, 0 => 0
  | i, n + 1 => if fate (.set i) = .done then setsDone (i + 1) n + 1 else 0

/-- How many keys the save writes. -/
def keysDone : ℕ :=
  if fate .saveOpen = .done then setsDone fate 0 (savedPoints dpList).length else 0

/-- The power goes out in the save. -/
def SaveLost : Prop :=
  fate .saveOpen = .lost ∨
    fate .saveOpen = .done ∧
      if keysDone fate = (savedPoints dpList).length then fate .saveCommit = .lost
      else fate (.set (keysDone fate)) = .lost

/-- The migration comes to erase a key of a compatible blob. -/
def ErasesBlob : Prop :=
  (fate .open = .done ∧ fate .getVer = .done ∧ fate .getLength = .done) ∧
    fate .getBlob ≠ .lost ∧ ¬ SaveLost fate ∧ fate .eraseOpen = .done ∧
      (fate .eraseCfg = .done ∨ fate .eraseCfg = .failed ∧ fate .eraseVer = .done)

section Rules

variable {fate} {c : Call} {effect : Flash → Flash} {s : Flash} {snap : Mem}
  {Q : Bool → Flash → Prop} {E : PowerLost → Flash → Prop}

@[simp] theorem wp_nvsCall : Wp (nvsCall fate c effect) Q E s ↔
    match fate c with
    | .done => Q true (effect s)
    | .failed => Q false s
    | .lost => E .powerLost s := by
  rw [nvsCall]
  cases fate c <;> simp

/-- **Save loop**: the keys that are set one after the other are written, and a key that is
    not set ends the loop. -/
theorem wp_saveKeys (i : ℕ) (ds : List DpDesc) :
    Wp (saveKeys fate snap i ds) Q E s ↔
      let n := setsDone fate i ds.length
      let s' : Flash := { s with nvs := (ds.take n).foldl (saveKey snap) s.nvs }
      if n = ds.length then Q true s'
      else if fate (.set (i + n)) = .lost then E .powerLost s' else Q false s' := by
  induction ds generalizing i s with
  | nil => simp [saveKeys, setsDone]
  | cons d ds ih =>
    rw [saveKeys, wp_bind, wp_nvsCall, List.length_cons, setsDone]
    cases hset : fate (.set i) with
    | done =>
      simp only [if_true, ih, Nat.add_right_cancel_iff, List.take_succ_cons, List.foldl_cons,
        Nat.add_assoc, Nat.add_comm 1]
      rfl
    | failed => simp [hset]
    | lost => simp [hset]

/-- The flash with the first `n` keys saved. -/
def Flash.saved (n : ℕ) (s : Flash) : Flash :=
  { s with nvs := dpConfigSaveFirst dpList n s.img s.nvs }

/-- **Save**: unless the power goes out in it, the migration goes on whatever it returns. -/
theorem wp_dpConfigSave {Q P : Flash → Prop} :
    Wp (dpConfigSave fate) (fun _ => Q) (fun _ => P) s ↔
      (SaveLost fate → P (s.saved (keysDone fate))) ∧
        (¬ SaveLost fate → Q (s.saved (keysDone fate))) := by
  rw [dpConfigSave, wp_bind, wp_nvsCall]
  cases hopen : fate .saveOpen with
  | failed => simp [SaveLost, keysDone, hopen, Flash.saved, dpConfigSaveFirst]
  | lost => simp [SaveLost, keysDone, hopen, Flash.saved, dpConfigSaveFirst]
  | done =>
    have hkeys : keysDone fate = setsDone fate 0 (savedPoints dpList).length := if_pos hopen
    simp only [if_true, wp_bind, wp_get, wp_saveKeys, Nat.zero_add, ← hkeys]
    change (if keysDone fate = _ then _ else if _ then P (s.saved (keysDone fate)) else
      Wp _ _ _ (s.saved (keysDone fate))) ↔ _
    by_cases hall : keysDone fate = (savedPoints dpList).length
    · rw [if_pos hall]
      change Wp _ _ _ (s.saved (keysDone fate)) ↔ _
      rw [wp_nvsCall]
      cases hcommit : fate .saveCommit <;> simp [SaveLost, hopen, hall, hcommit]
    · rw [if_neg hall]
      by_cases hset : fate (.set (keysDone fate)) = .lost <;>
        simp [SaveLost, hopen, hall, hset]

end Rules

-- ════════════════════════════════════════════════════════════════════════
-- The values of the blob
-- ════════════════════════════════════════════════════════════════════════

/-- The value of a point in the blob. -/
def blobSlot (bytes : List UInt8) (d : DpDesc) : List UInt8 :=
  (bytes.drop (d.off - (dpComputeCfgRegion dpList).1)).take d.size

/-- The blob with its version, of this build's version and layout. -/
structure Compatible (bytes : List UInt8) (nvs : Nvs) : Prop where
  blob : legacyBlob nvs = some (dpCfgVersion, bytes)
  length : bytes.length = (dpComputeCfgRegion dpList).2

/-- Every value of the blob is stored under the key of its point. -/
def AllStored (bytes : List UInt8) (nvs : Nvs) : Prop :=
  ∀ d ∈ savedPoints dpList, nvs (dpNvsKey d) = some (.blob (blobSlot bytes d))

/-- Nothing of the blob is lost: it is stored point by point, or it is still there. -/
def NothingLost (bytes : List UInt8) (nvs : Nvs) : Prop :=
  AllStored bytes nvs ∨ legacyBlob nvs = some (dpCfgVersion, bytes)

/-- The save finds every value: what it writes comes from the blob, or is equal to it, and what
    it does not come to has been there before. -/
def FindsAll (bytes : List UInt8) (s : Flash) : Prop :=
  ∀ d ∈ savedPoints dpList,
    if d ∈ (savedPoints dpList).take (keysDone fate) then
      fate .getBlob = .done ∨ d.slot s.img = blobSlot bytes d
    else s.nvs (dpNvsKey d) = some (.blob (blobSlot bytes d))

/-- The saved points lie in the region of the blob. -/
theorem savedPoints_region : ∀ d ∈ savedPoints dpList,
    (dpComputeCfgRegion dpList).1 ≤ d.off ∧
      d.off + d.size ≤ (dpComputeCfgRegion dpList).1 + (dpComputeCfgRegion dpList).2 := by
  decide +kernel

section Blob

variable {fate} {bytes : List UInt8} {nvs : Nvs} {s : Flash}

/-- The slot of a saved point after the blob has been read to its region. -/
theorem slot_adopt {d : DpDesc} (hd : d ∈ savedPoints dpList)
    (hlen : bytes.length = (dpComputeCfgRegion dpList).2) (img : Mem) :
    d.slot (write img (dpComputeCfgRegion dpList).1 bytes) = blobSlot bytes d := by
  obtain ⟨hlo, hhi⟩ := savedPoints_region d hd
  exact read_write_inside hlo (hlen ▸ hhi)

theorem legacyBlob_saved (n : ℕ) (s : Flash) : legacyBlob (s.saved n).nvs = legacyBlob s.nvs := by
  have hother : ∀ key, (∀ id, key ≠ .point id) → (s.saved n).nvs key = s.nvs key :=
    fun key hkey => foldl_saveKey_other (fun e _ h => hkey e.nvsId h.symm) s.img s.nvs
  rw [legacyBlob, legacyBlob, hother .ver (by simp), hother .cfg (by simp)]

theorem legacyBlob_erase {key : NvsKey} (hkey : key = .cfg ∨ key = .ver) (s : Flash) :
    legacyBlob (s.erase key).nvs = none := by
  obtain rfl | rfl := hkey
  · cases hver : s.nvs .ver with
    | none => simp [legacyBlob, Flash.erase, hver]
    | some e => cases e <;> simp [legacyBlob, Flash.erase, hver]
  · simp [legacyBlob, Flash.erase]

theorem allStored_erase {key : NvsKey} (hkey : key = .cfg ∨ key = .ver) (s : Flash) :
    AllStored bytes (s.erase key).nvs ↔ AllStored bytes s.nvs := by
  have hother : ∀ d, (s.erase key).nvs (dpNvsKey d) = s.nvs (dpNvsKey d) := fun d =>
    Function.update_of_ne (by obtain rfl | rfl := hkey <;> exact fun h => nomatch h) _ _
  exact forall₂_congr fun d _ => by rw [hother]

/-- With a key of the blob erased, nothing is lost where all values are stored. -/
theorem nothingLost_erase {key : NvsKey} (hkey : key = .cfg ∨ key = .ver) (s : Flash) :
    NothingLost bytes (s.erase key).nvs ↔ AllStored bytes s.nvs := by
  rw [NothingLost, legacyBlob_erase hkey, allStored_erase hkey]
  simp

/-- **Erasing**: it is for the values to be stored before a key of the blob is erased. -/
theorem wp_eraseKeys (h : legacyBlob s.nvs = some (dpCfgVersion, bytes)) :
    Wp (eraseKeys fate) (fun _ t => NothingLost bytes t.nvs)
    (fun _ t => NothingLost bytes t.nvs) s ↔
      (fate .eraseCfg = .done ∨ fate .eraseCfg = .failed ∧ fate .eraseVer = .done →
        AllStored bytes s.nvs) := by
  have hthere : NothingLost bytes s.nvs := .inr h
  have hcfg : NothingLost bytes (s.erase .cfg).nvs ↔ AllStored bytes s.nvs :=
    nothingLost_erase (.inl rfl) s
  have hver : NothingLost bytes (s.erase .ver).nvs ↔ AllStored bytes s.nvs :=
    nothingLost_erase (.inr rfl) s
  have hboth : NothingLost bytes ((s.erase .cfg).erase .ver).nvs ↔ AllStored bytes s.nvs :=
    (nothingLost_erase (.inr rfl) (s.erase .cfg)).trans (allStored_erase (.inl rfl) s)
  rw [eraseKeys]
  simp only [wp_bind, wp_nvsCall, bind_pure_comp, wp_map]
  cases fate .eraseCfg with
  | lost => simp [hthere]
  | done => cases fate .eraseVer <;> cases fate .eraseCommit <;> simp [hcfg, hboth]
  | failed => cases fate .eraseVer <;> cases fate .eraseCommit <;> simp [hthere, hver]

theorem Compatible.entries (h : Compatible bytes nvs) :
    nvs .ver = some (.u16 dpCfgVersion) ∧ nvs .cfg = some (.blob bytes) := by
  have hblob := h.blob
  rw [legacyBlob] at hblob
  split at hblob
  · next hver hcfg =>
    cases hblob
    exact ⟨hver, hcfg⟩
  · cases hblob

/-- The image that the save takes its values from. -/
def imageToSave (fate : Call → Fate) (bytes : List UInt8) (img : Mem) : Mem :=
  if fate .getBlob = .done then write img (dpComputeCfgRegion dpList).1 bytes else img

/-- The values are all stored after the save exactly when the save finds them all. -/
theorem allStored_saved (hcomp : Compatible bytes s.nvs) :
    AllStored bytes (Flash.saved (keysDone fate)
      { s with img := imageToSave fate bytes s.img }).nvs ↔ FindsAll fate bytes s := by
  refine forall₂_congr fun d hd => ?_
  dsimp only [Flash.saved]
  rw [dpConfigSaveFirst_key hd, imageToSave]
  split_ifs with hmem hread
  · simp [slot_adopt hd hcomp.length, hread]
  · simp [hread]
  · rfl

/-- **A compatible blob**, once it has been found. -/
theorem wp_adoptBlob (hcomp : Compatible bytes s.nvs) :
    Wp (adoptBlob fate) (fun _ t => NothingLost bytes t.nvs)
    (fun _ t => NothingLost bytes t.nvs) s ↔
      (fate .getBlob ≠ .lost ∧ ¬ SaveLost fate ∧ fate .eraseOpen = .done ∧
        (fate .eraseCfg = .done ∨ fate .eraseCfg = .failed ∧ fate .eraseVer = .done) →
          FindsAll fate bytes s) := by
  rw [← allStored_saved hcomp]
  have hadopt : s.adopt (dpComputeCfgRegion dpList).1 =
      { s with img := write s.img (dpComputeCfgRegion dpList).1 bytes } := by
    rw [Flash.adopt, hcomp.entries.2]
  have hblob : ∀ img, legacyBlob (Flash.saved (keysDone fate) { s with img := img }).nvs =
      some (dpCfgVersion, bytes) := fun img => (legacyBlob_saved _ _).trans hcomp.blob
  have hrest : ∀ img, Wp (dpConfigSave fate >>= fun _ => do
      if ← nvsCall fate .eraseOpen id then eraseKeys fate)
      (fun _ t => NothingLost bytes t.nvs) (fun _ t => NothingLost bytes t.nvs)
      { s with img := img } ↔
      (¬ SaveLost fate ∧ fate .eraseOpen = .done ∧
        (fate .eraseCfg = .done ∨ fate .eraseCfg = .failed ∧ fate .eraseVer = .done) →
          AllStored bytes (Flash.saved (keysDone fate) { s with img := img }).nvs) := by
    intro img
    have hthere : NothingLost bytes (Flash.saved (keysDone fate) { s with img := img }).nvs :=
      .inr (hblob img)
    rw [wp_bind, wp_dpConfigSave, wp_bind, wp_nvsCall]
    cases hopen : fate .eraseOpen with
    | lost => simp [hthere]
    | failed => simp [hthere]
    | done =>
      simp only [if_true, id, wp_eraseKeys (hblob img), true_and, and_imp]
      exact and_iff_right fun _ => hthere
  rw [adoptBlob, wp_bind, wp_nvsCall, imageToSave]
  cases hread : fate .getBlob with
  | lost => simp [NothingLost, hcomp.blob]
  | failed => simpa using hrest s.img
  | done =>
    rw [hadopt]
    simpa using hrest (write s.img (dpComputeCfgRegion dpList).1 bytes)

/-- What the reads of the version and of the length return. -/
theorem wp_getVer (hcomp : Compatible bytes s.nvs) {Q : Option UInt16 → Flash → Prop}
    {E : PowerLost → Flash → Prop} : Wp (getVer fate) Q E s ↔
      match fate .getVer with
      | .done => Q (some dpCfgVersion) s
      | .failed => Q none s
      | .lost => E .powerLost s := by
  rw [getVer, wp_bind, wp_nvsCall]
  cases fate .getVer <;> simp [hcomp.entries.1]

theorem wp_getLength (hcomp : Compatible bytes s.nvs) {Q : Option ℕ → Flash → Prop}
    {E : PowerLost → Flash → Prop} : Wp (getLength fate) Q E s ↔
      match fate .getLength with
      | .done => Q (some bytes.length) s
      | .failed => Q none s
      | .lost => E .powerLost s := by
  rw [getLength, wp_bind, wp_nvsCall]
  cases fate .getLength <;> simp [hcomp.entries.2]

/-- The migration comes to the branch of the compatible blob, or leaves everything as it is. -/
theorem wp_dpConfigMigrateBlob (hcomp : Compatible bytes s.nvs) :
    Wp (dpConfigMigrateBlob fate) (fun _ t => NothingLost bytes t.nvs)
        (fun _ t => NothingLost bytes t.nvs) s ↔
      (fate .open = .done ∧ fate .getVer = .done ∧ fate .getLength = .done →
        Wp (adoptBlob fate) (fun _ t => NothingLost bytes t.nvs)
          (fun _ t => NothingLost bytes t.nvs) s) := by
  have hthere : NothingLost bytes s.nvs := .inr hcomp.blob
  rw [dpConfigMigrateBlob, wp_bind, wp_nvsCall]
  cases fate .open with
  | lost => simp [hthere]
  | failed => simp [hthere]
  | done =>
    simp only [if_true, id, wp_bind, wp_getVer hcomp, true_and]
    cases fate .getVer with
    | lost => simp [hthere]
    | failed => simp [hthere]
    | done =>
      simp only [wp_getLength hcomp, true_and]
      cases fate .getLength with
      | lost => simp [hthere]
      | failed => simp [hthere]
      | done => simp [hcomp.length]

end Blob

/-- **Migration of the legacy blob**: nothing of a compatible blob is lost exactly when the
    migration does not come to erase it or its save finds every value. -/
theorem nothingLost_iff {bytes : List UInt8} {s : Flash} (hcomp : Compatible bytes s.nvs)
    (fate : Call → Fate) :
    Wp (dpConfigMigrateBlob fate) (fun _ t => NothingLost bytes t.nvs)
        (fun _ t => NothingLost bytes t.nvs) s ↔
      (ErasesBlob fate → FindsAll fate bytes s) := by
  rw [wp_dpConfigMigrateBlob hcomp, wp_adoptBlob hcomp, ← and_imp]
  rfl

/-- A save of which every call is done writes every key. -/
theorem setsDone_done (i n : ℕ) : setsDone (fun _ => .done) i n = n := by
  induction n generalizing i with
  | zero => rfl
  | succ n ih => rw [setsDone, if_pos rfl, ih]

theorem keysDone_done : keysDone (fun _ => .done) = (savedPoints dpList).length :=
  (if_pos rfl).trans (setsDone_done 0 _)

theorem not_saveLost_done : ¬ SaveLost fun _ => .done := by
  simp [SaveLost]

/-- A legacy blob of zeros. -/
@[irreducible]
def zeroBlob : List UInt8 := List.replicate (dpComputeCfgRegion dpList).2 0

theorem length_zeroBlob : zeroBlob.length = (dpComputeCfgRegion dpList).2 := by
  unfold zeroBlob
  exact List.length_replicate

/-- The flash of a device that still has its legacy blob. -/
def legacyFlash : Flash where
  img _ := 0
  nvs
    | .ver => some (.u16 dpCfgVersion)
    | .cfg => some (.blob zeroBlob)
    | .point _ => none

theorem legacyFlash_compatible : Compatible zeroBlob legacyFlash.nvs :=
  ⟨rfl, length_zeroBlob⟩

theorem nothingLost_iff_done :
    Wp (dpConfigMigrateBlob fun _ => .done) (fun _ t => NothingLost zeroBlob t.nvs)
      (fun _ t => NothingLost zeroBlob t.nvs) legacyFlash := by
  refine (nothingLost_iff legacyFlash_compatible _).mpr fun _ d hd => ?_
  rw [keysDone_done, List.take_length, if_pos hd]
  exact .inl rfl

/-- Every call goes well, apart from the `nvs_open` of the save. -/
def saveOpenFails : Call → Fate
  | .saveOpen => .failed
  | _ => .done

/-- The save does not open the namespace, and the blob is erased. -/
theorem blob_lost : Compatible zeroBlob legacyFlash.nvs ∧
    ¬ Wp (dpConfigMigrateBlob saveOpenFails) (fun _ t => NothingLost zeroBlob t.nvs)
      (fun _ t => NothingLost zeroBlob t.nvs) legacyFlash := by
  refine ⟨legacyFlash_compatible, fun hwp => ?_⟩
  rw [wp_dpConfigMigrateBlob legacyFlash_compatible, wp_adoptBlob legacyFlash_compatible] at hwp
  have hfinds := hwp ⟨rfl, rfl, rfl⟩
    ⟨by simp [saveOpenFails], by simp [SaveLost, saveOpenFails], rfl, .inl rfl⟩
  obtain ⟨d, hd⟩ : ∃ d, d ∈ savedPoints dpList :=
    List.exists_mem_of_ne_nil _ (by decide +kernel)
  have hd' := hfinds d hd
  rw [if_neg (by simp [keysDone, saveOpenFails])] at hd'
  cases hd'

end

section Done

variable {s : Flash} {Q : Flash → Prop}

theorem wp_eraseKeys_done : Wp (eraseKeys fun _ => .done) (fun _ => Q) (fun _ _ => False) s ↔
    Q ((s.erase .cfg).erase .ver) := by
  simp [eraseKeys]

theorem wp_adoptBlob_done : Wp (adoptBlob fun _ => .done) (fun _ => Q) (fun _ _ => False) s ↔
    Q ((((s.adopt (dpComputeCfgRegion dpList).1).saved (savedPoints dpList).length).erase
      .cfg).erase .ver) := by
  simp only [adoptBlob, wp_bind, wp_nvsCall, wp_dpConfigSave, keysDone_done, not_saveLost_done,
    if_true, wp_eraseKeys_done, id, false_imp_iff, not_false_eq_true, true_and, true_imp_iff]

/-- With every call done, the migration is the one that is taken for a transaction. -/
theorem dpConfigMigrateBlob_done (s : Flash) :
    Wp (dpConfigMigrateBlob fun _ => .done)
      (fun _ t => (t.img, t.nvs) = Datapoints.dpConfigMigrateBlob dpList s.img s.nvs)
      (fun _ _ => False) s := by
  rw [Datapoints.dpConfigMigrateBlob, legacyBlob, dpConfigMigrateBlob, wp_bind, wp_nvsCall]
  simp only [if_true, id, getVer, getLength, wp_bind, wp_nvsCall, wp_get]
  cases hver : s.nvs .ver with
  | none => simp
  | some ver =>
    cases ver with
    | blob bytes => simp
    | u16 ver =>
      simp only [wp_pure, wp_bind, wp_nvsCall, wp_get, id]
      cases hcfg : s.nvs .cfg with
      | none => simp
      | some cfg =>
        cases cfg with
        | u16 v => simp
        | blob bytes =>
          simp only [wp_pure, if_true, wp_ite]
          split_ifs
          · rw [wp_adoptBlob_done, Flash.adopt, hcfg, Flash.saved, dpConfigSaveFirst,
              List.take_length, Datapoints.dpConfigSave]
            generalize savedPoints dpList = ds, (dpComputeCfgRegion dpList).1 = off
            rfl
          · rw [wp_eraseKeys_done]
            rfl

end Done

end Fountainer.Datapoints.Migration
