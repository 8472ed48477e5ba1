import Mathlib.Data.Fintype.Pi
import Mathlib.Data.List.TakeWhile
import Fountainer.Datapoints.Reboot
import Fountainer.Network.DpWrite

/-!
# The network settings

The eight values of the `Network_*` points and of the `Backup_*` points: in the image, and as a
boot reads them from the NVS content. The lemmas say what the copies of `network_config.c`, a
batch, a save and a boot do to either side.
-/

namespace Fountainer.Network

open Bytes
open Datapoints

/-- The settings and their known-good copy. -/
inductive Side where
  | network
  | backup
  deriving DecidableEq, Repr

/-- The eight values of a side. -/
inductive NetField where
  | dhcp
  | serverPort
  | ipAddress
  | subnetmask
  | gateway
  | server
  | ssid
  | password
  deriving DecidableEq, Repr

namespace NetField

/-- The values in the order in which `network_config.c` copies them. -/
def all : List NetField :=
  [dhcp, serverPort, ipAddress, subnetmask, gateway, server, ssid, password]

theorem mem_all (f : NetField) : f ∈ all := by
  cases f <;> decide

instance : Fintype NetField := ⟨⟨all, by decide⟩, mem_all⟩

/-- The name of the point. -/
def name : Side → NetField → String
  | .network, dhcp => "Network_DHCP"
  | .network, serverPort => "Network_Server_Port"
  | .network, ipAddress => "Network_IP_Address"
  | .network, subnetmask => "Network_Subnetmask"
  | .network, gateway => "Network_Gateway"
  | .network, server => "Network_Server"
  | .network, ssid => "Network_SSID"
  | .network, password => "Network_Password"
  | .backup, dhcp => "Backup_DHCP"
  | .backup, serverPort => "Backup_Server_Port"
  | .backup, ipAddress => "Backup_IP_Address"
  | .backup, subnetmask => "Backup_Subnetmask"
  | .backup, gateway => "Backup_Gateway"
  | .backup, server => "Backup_Server"
  | .backup, ssid => "Backup_SSID"
  | .backup, password => "Backup_Password"

def type : NetField → DpType
  | dhcp => .bool
  | serverPort => .u16
  | _ => .str

/-- The value in a slot: the characters of a string, the bytes of a number. -/
def value (f : NetField) (slot : List UInt8) : List UInt8 :=
  if f.type = .str then (slot.take (dpStrMax - 1)).takeWhile (· ≠ 0) else slot

/-- The columns of the point: the peer writes the settings only, and the one value with bounds
    is `Network_Server_Port`. -/
def fits (k : Side) (f : NetField) (d : DpDesc) : Bool :=
  d.type == f.type && d.persist == .nvs && d.nvsId != 0 && (d.access == .rw) == (k == .network) &&
    ((k == .network && f == .serverPort) || (d.min.isNone && d.max.isNone))

theorem names_fit (k : Side) (f : NetField) : (dpFind dpList (f.name k)).any (f.fits k) = true := by
  have h : ∀ k ∈ [Side.network, .backup], ∀ f ∈ all,
      (dpFind dpList (f.name k)).any (f.fits k) = true := by decide +kernel
  exact h k (by cases k <;> decide) f f.mem_all

theorem isSome_point (k : Side) (f : NetField) : (dpFind dpList (f.name k)).isSome = true := by
  obtain ⟨d, hd, -⟩ := (Option.any_eq_true _ _).mp (f.names_fit k)
  rw [hd]
  rfl

/-- The point behind the value. -/
def point (k : Side) (f : NetField) : DpDesc :=
  (dpFind dpList (f.name k)).get (f.isSome_point k)

theorem find_point (k : Side) (f : NetField) : dpFind dpList (f.name k) = some (f.point k) :=
  (Option.some_get _).symm

theorem point_columns (k : Side) (f : NetField) :
    (f.point k).type = f.type ∧ (f.point k).persist = .nvs ∧ (f.point k).nvsId ≠ 0 ∧
      ((f.point k).access = .rw ↔ k = .network) ∧
      ((k, f) ≠ (.network, .serverPort) → (f.point k).min = none ∧ (f.point k).max = none) := by
  have hfits := f.names_fit k
  rw [f.find_point k, Option.any_some] at hfits
  simp only [fits, Bool.and_eq_true, Bool.or_eq_true, beq_iff_eq, bne_iff_ne,
    Option.isNone_iff_eq_none] at hfits
  obtain ⟨⟨⟨⟨htype, hpersist⟩, hid⟩, haccess⟩, hbounds⟩ := hfits
  refine ⟨htype, hpersist, hid, ?_, fun hne => hbounds.resolve_left ?_⟩
  · rw [← beq_iff_eq, haccess, beq_iff_eq]
  · rintro ⟨rfl, rfl⟩
    exact hne rfl

theorem point_saved (k : Side) (f : NetField) : f.point k ∈ savedPoints dpList := by
  obtain ⟨-, hpersist, hid, -⟩ := f.point_columns k
  exact List.mem_filter.mpr ⟨dpFind_mem (f.find_point k), by simp [hpersist, hid]⟩

theorem name_not_identity (k : Side) (f : NetField) : f.name k ∉ identityNames := by
  cases k <;> cases f <;> decide

theorem name_injective {k k' : Side} {f f' : NetField} (h : f.name k = f'.name k') :
    k = k' ∧ f = f' := by
  revert h
  cases k <;> cases k' <;> cases f <;> cases f' <;> decide

end NetField

/-- A network configuration: the eight values. -/
abbrev NetConfig := NetField → List UInt8

/-- The values of a side in the image. -/
def config (k : Side) (img : Mem) : NetConfig := fun f => f.value ((f.point k).slot img)

/-- The values of a side as a boot reads them. -/
def storedConfig (k : Side) (nvs : Nvs) : NetConfig := fun f =>
  f.value ((storedSlot nvs (f.point k)).getD ((f.point k).slot (dpSetDefaults dpList (fun _ => 0))))

/-- The load accepts the value that the image has: the stored bytes are within the bounds of
    the point. -/
def Loads (k : Side) (f : NetField) (slot : List UInt8) : Prop :=
  slotInRange (f.point k).toDpPoint (write (fun _ => 0) 0 slot) 0 = true

instance (k : Side) (f : NetField) (slot : List UInt8) : Decidable (Loads k f slot) :=
  inferInstanceAs (Decidable (_ = _))

/-- Every value but `Network_Server_Port` can be loaded back. -/
theorem loads_of_ne {k : Side} {f : NetField} (h : (k, f) ≠ (.network, .serverPort))
    (slot : List UInt8) : Loads k f slot := by
  obtain ⟨-, -, -, -, hbounds⟩ := f.point_columns k
  obtain ⟨hmin, hmax⟩ := hbounds h
  rw [Loads, slotInRange]
  split
  · rw [DpPoint.inRange, hmin, hmax]
    rfl
  · rfl

-- ════════════════════════════════════════════════════════════════════════
-- Copies in the image
-- ════════════════════════════════════════════════════════════════════════

/-- The assignment of one value between the sides. -/
def copyValue (dst src : Side) (img : Mem) (f : NetField) : Mem :=
  if f.type = .str then dpStrSet img (f.name dst) (f.name src)
  else copyField f.type.size img (f.name dst) (f.name src)

/-- The assignments of `network_config_backup`. -/
def copyToBackup (img : Mem) : Mem :=
  let img := copyField 1 img "Backup_DHCP" "Network_DHCP"
  let img := copyField 2 img "Backup_Server_Port" "Network_Server_Port"
  let img := dpStrSet img "Backup_IP_Address" "Network_IP_Address"
  let img := dpStrSet img "Backup_Subnetmask" "Network_Subnetmask"
  let img := dpStrSet img "Backup_Gateway" "Network_Gateway"
  let img := dpStrSet img "Backup_Server" "Network_Server"
  let img := dpStrSet img "Backup_SSID" "Network_SSID"
  dpStrSet img "Backup_Password" "Network_Password"

theorem copyToBackup_eq (img : Mem) :
    copyToBackup img = NetField.all.foldl (copyValue .backup .network) img := by
  simp [copyToBackup, NetField.all, copyValue, NetField.type, NetField.name, DpType.size]

theorem restoreFromBackup_eq (img : Mem) :
    restoreFromBackup img = NetField.all.foldl (copyValue .network .backup) img := by
  simp [restoreFromBackup, NetField.all, copyValue, NetField.type, NetField.name, DpType.size]

/-- A write to another field leaves a value. -/
theorem slot_write_name {k : Side} {f : NetField} {name : String} {d : DpDesc} {bs : List UInt8}
    (hd : dpFind dpList name = some d) (hlen : bs.length ≤ d.size) (hname : f.name k ≠ name)
    (img : Mem) : (f.point k).slot (write img (imgOff name) bs) = (f.point k).slot img := by
  apply DpDesc.slot_write
  rw [imgOff_eq hd]
  have := dpFind_disjoint (f.find_point k) hd hname
  omega

theorem size_point (k : Side) (f : NetField) : (f.point k).size = f.type.size := by
  rw [DpDesc.size, (f.point_columns k).1]

theorem imgOff_name (k : Side) (f : NetField) : imgOff (f.name k) = (f.point k).off :=
  imgOff_eq (f.find_point k)

/-- A string field is empty when it starts with a zero byte. -/
theorem config_ne_nil {k : Side} {f : NetField} (hstr : f.type = .str) (img : Mem) :
    config k img f ≠ [] ↔ img (imgOff (f.name k)) ≠ 0 := by
  have hsize : (f.point k).size = 64 := by
    rw [size_point, hstr]
    rfl
  have hslot : (f.point k).slot img =
      img (imgOff (f.name k)) :: read img (imgOff (f.name k) + 1) 63 := by
    rw [DpDesc.slot, hsize, imgOff_name, Bytes.read, Bytes.read, List.range_succ_eq_map]
    simp [Nat.add_assoc, Nat.add_comm 1]
  rw [config, hslot, NetField.value, if_pos hstr]
  change List.takeWhile _ (List.take 63 (_ :: _)) ≠ [] ↔ _
  by_cases hzero : img (imgOff (f.name k)) = 0 <;> simp [hzero]

theorem network_ssid_ne_nil (img : Mem) :
    config .network img .ssid ≠ [] ↔ img (imgOff "Network_SSID") ≠ 0 := by
  simpa only [NetField.name] using config_ne_nil (k := .network) (f := .ssid) rfl img

theorem backup_ssid_ne_nil (img : Mem) :
    config .backup img .ssid ≠ [] ↔ img (imgOff "Backup_SSID") ≠ 0 := by
  simpa only [NetField.name] using config_ne_nil (k := .backup) (f := .ssid) rfl img

/-- What a string field has after `DP_STR_SET`. -/
theorem value_padded {f : NetField} (hstr : f.type = .str) {s : List UInt8} (hs : s.length < 64)
    (hnonzero : ∀ b ∈ s, b ≠ 0) : f.value (s ++ List.replicate (64 - s.length) 0) = s := by
  have htake : (s ++ List.replicate (64 - s.length) (0 : UInt8)).take 63 =
      s ++ List.replicate (63 - s.length) 0 := by
    rw [List.take_append, List.take_of_length_le (by omega), List.take_replicate,
      min_eq_left (by omega)]
  rw [NetField.value, if_pos hstr]
  change List.takeWhile _ (List.take 63 _) = s
  rw [htake, List.takeWhile_append_of_pos (by simpa using hnonzero)]
  cases 63 - s.length <;> simp

/-- The value of a field that has just been written. -/
theorem config_write (k : Side) (f : NetField) {bs : List UInt8} (hlen : bs.length = f.type.size)
    (img : Mem) :
    config k (write img (imgOff (f.name k)) bs) =
    Function.update (config k img) f (f.value bs) := by
  funext g
  by_cases hg : g = f
  · subst hg
    rw [Function.update_self, config, imgOff_name,
      DpDesc.slot_write_self (by rw [size_point, hlen])]
  · rw [Function.update_of_ne hg, config, config,
      slot_write_name (f.find_point k) (by rw [size_point, hlen])
        (fun h => hg (NetField.name_injective h).2)]

/-- A write to a field of one side leaves the other side. -/
theorem config_write_other {k k' : Side} (hne : k ≠ k') (f : NetField) {bs : List UInt8}
    (hlen : bs.length ≤ f.type.size) (img : Mem) :
    config k (write img (imgOff (f.name k')) bs) = config k img := by
  funext g
  rw [config, config, slot_write_name (f.find_point k') (by rw [size_point]; exact hlen)
    (fun h => hne (NetField.name_injective h).1)]

/-- The bytes that an assignment writes, and their value. -/
theorem copyValue_eq (dst src : Side) (img : Mem) (f : NetField) :
    ∃ bs, copyValue dst src img f = write img (imgOff (f.name dst)) bs ∧
      bs.length = f.type.size ∧ f.value bs = config src img f := by
  have hslot : (f.point src).slot img = read img (imgOff (f.name src)) f.type.size := by
    rw [DpDesc.slot, size_point, imgOff_name]
  by_cases hstr : f.type = .str
  · refine ⟨_, by rw [copyValue, if_pos hstr, dpStrSet], ?_, ?_⟩
    · have hlen := (List.takeWhile_sublist (p := fun b : UInt8 => decide (b ≠ 0))
        (l := read img (imgOff (f.name src)) (dpStrMax - 1))).length_le
      rw [length_read] at hlen
      rw [List.length_append, List.length_replicate, hstr]
      change _ = 64
      change _ ≤ 63 at hlen
      change _ + (64 - _) = 64
      omega
    · have hlen := (List.takeWhile_sublist (p := fun b : UInt8 => decide (b ≠ 0))
        (l := read img (imgOff (f.name src)) (dpStrMax - 1))).length_le
      rw [length_read] at hlen
      change _ ≤ 63 at hlen
      refine (value_padded hstr (by omega) fun b hb => ?_).trans ?_
      · simpa using List.mem_takeWhile_imp hb
      · rw [config, hslot, NetField.value, if_pos hstr, hstr]
        change _ = List.takeWhile _ ((read img (imgOff (f.name src)) 64).take 63)
        rw [take_read]
        rfl
  · refine ⟨_, by rw [copyValue, if_neg hstr, copyField], length_read _ _ _, ?_⟩
    rw [config, hslot]

/-- The assignment of one value sets that value and leaves the others. -/
theorem config_copyValue {dst src : Side} (hne : dst ≠ src) (img : Mem) (f : NetField) :
    config dst (copyValue dst src img f) = Function.update (config dst img) f (config src img f) ∧
      config src (copyValue dst src img f) = config src img := by
  obtain ⟨bs, heq, hlen, hvalue⟩ := copyValue_eq dst src img f
  rw [heq, config_write dst f hlen, hvalue]
  exact ⟨rfl, config_write_other (Ne.symm hne) f hlen.le img⟩

theorem config_copyValues {dst src : Side} (hne : dst ≠ src) (img : Mem) (fs : List NetField) :
    config dst (fs.foldl (copyValue dst src) img) =
        (fun f => if f ∈ fs then config src img f else config dst img f) ∧
      config src (fs.foldl (copyValue dst src) img) = config src img := by
  induction fs generalizing img with
  | nil => exact ⟨by simp, rfl⟩
  | cons g fs ih =>
    obtain ⟨hdst, hsrc⟩ := config_copyValue hne img g
    obtain ⟨ihdst, ihsrc⟩ := ih (copyValue dst src img g)
    rw [List.foldl_cons, ihdst, ihsrc, hsrc, hdst]
    refine ⟨funext fun f => ?_, rfl⟩
    by_cases hfg : f = g
    · subst hfg
      simp
    · simp [hfg]

/-- After `restore_from_backup` the settings are those of the backup, which stays. -/
theorem config_restoreFromBackup (img : Mem) :
    config .network (restoreFromBackup img) = config .backup img ∧
      config .backup (restoreFromBackup img) = config .backup img := by
  have h := config_copyValues (by decide : Side.network ≠ .backup) img NetField.all
  simpa [restoreFromBackup_eq, NetField.mem_all] using h

/-- After the assignments of `network_config_backup` the backup is the settings, which stay. -/
theorem config_copyToBackup (img : Mem) :
    config .backup (copyToBackup img) = config .network img ∧
      config .network (copyToBackup img) = config .network img := by
  have h := config_copyValues (by decide : Side.backup ≠ .network) img NetField.all
  simpa [copyToBackup_eq, NetField.mem_all] using h

-- ════════════════════════════════════════════════════════════════════════
-- Batches
-- ════════════════════════════════════════════════════════════════════════

/-- No batch writes a point that the peer may only read. -/
theorem dpWriteBatch_readOnly {name : String} {d : DpDesc} (hd : dpFind dpList name = some d)
    (hro : d.access ≠ .rw) (img : Mem) (dpIn : Json) :
    d.slot (dpWriteBatch img dpIn).img = d.slot img := by
  rcases dpWriteBatchWith_cases dpList dpConstraintsOk img dpIn with ⟨-, himg⟩ | ⟨-, herr, himg, -⟩
  · rw [dpWriteBatch, himg]
  · rw [dpWriteBatch, himg]
    apply List.map_congr_left
    intro i hi
    have hlt := List.mem_range.mp hi
    apply validate_outside herr
    rintro ⟨item, hitem, e, he, hle, hup⟩
    obtain ⟨e', he', hrw⟩ := validate_names herr item hitem
    cases he.symm.trans he'
    have hne : itemName item ≠ name := by
      intro heq
      rw [heq, hd] at he
      cases he
      exact hro hrw
    have := dpFind_disjoint he hd hne
    omega

theorem config_backup_batch (img : Mem) (dpIn : Json) :
    config .backup (dpWriteBatch img dpIn).img = config .backup img := by
  funext f
  have hro : (f.point .backup).access ≠ .rw := by
    obtain ⟨-, -, -, hrw, -⟩ := f.point_columns .backup
    intro h
    cases hrw.mp h
  rw [config, config, dpWriteBatch_readOnly (f.find_point .backup) hro]

-- ════════════════════════════════════════════════════════════════════════
-- Saves and boots
-- ════════════════════════════════════════════════════════════════════════

/-- A boot without a legacy blob has the stored values. -/
theorem config_boot {nvs : Nvs} (h : legacyCompatible dpList nvs = false) (id : Option DpIdentity)
    (k : Side) : config k (dpInit id nvs).1 = storedConfig k nvs := by
  funext f
  rw [config, storedConfig, dpInit_slot (f.find_point k) (f.name_not_identity k)
    (f.point_saved k) h]

/-- A boot leaves no legacy blob. -/
theorem legacyCompatible_dpInit (id : Option DpIdentity) (nvs : Nvs) :
    legacyCompatible dpList (dpInit id nvs).2 = false := by
  cases h : legacyCompatible dpList nvs with
  | false => exact (dpConfigMigrateBlob_noLegacy h _).2.2
  | true =>
    rw [legacyCompatible] at h
    rw [dpInit, dpConfigMigrateBlob]
    cases hblob : legacyBlob nvs with
    | none =>
      rw [hblob] at h
      cases h
    | some blob =>
      obtain ⟨ver, bytes⟩ := blob
      dsimp only
      split_ifs <;> rfl

/-- A boot without a legacy blob leaves the stored values. -/
theorem storedConfig_boot {nvs : Nvs} (h : legacyCompatible dpList nvs = false)
    (id : Option DpIdentity) (k : Side) : storedConfig k (dpInit id nvs).2 =
    storedConfig k nvs := by
  funext f
  have hkey : (dpInit id nvs).2 (dpNvsKey (f.point k)) = nvs (dpNvsKey (f.point k)) :=
    (dpConfigMigrateBlob_noLegacy h _).2.1 _
  rw [storedConfig, storedConfig, storedSlot_congr hkey]

/-- The last byte of a string field, which the load clears, is no part of its value. -/
theorem value_set_last {f : NetField} (hstr : f.type = .str) (slot : List UInt8) :
    f.value (slot.set 63 0) = f.value slot := by
  rw [NetField.value, NetField.value, if_pos hstr, if_pos hstr]
  change List.takeWhile _ ((slot.set 63 0).take 63) = List.takeWhile _ (slot.take 63)
  rw [List.take_set_of_le (le_refl 63)]

/-- What a boot reads under a key that has just been written. -/
theorem storedConfig_of_key {k : Side} {f : NetField} {nvs : Nvs} {img : Mem}
    (hkey : nvs (dpNvsKey (f.point k)) = some (.blob ((f.point k).slot img)))
    (hload : Loads k f ((f.point k).slot img)) : storedConfig k nvs f = config k img f := by
  have hlen := (f.point k).length_slot img
  have hsize : (f.point k).size ≤ dpStrMax := by
    rw [size_point]
    cases f <;> decide
  rw [Loads] at hload
  have htype := (f.point_columns k).1
  rw [storedConfig, config, storedSlot, hkey]
  simp only [hlen, not_lt.mpr hsize, hload, if_false, ne_eq, not_true_eq_false]
  split_ifs with hstr
  · exact value_set_last (htype ▸ hstr) _
  · rfl

/-- The values that a boot reads after the first `n` writes of a save. -/
theorem storedConfig_saveFirst {k : Side} {f : NetField} {img : Mem}
    (hload : Loads k f ((f.point k).slot img)) (n : ℕ) (nvs : Nvs) :
    storedConfig k (dpConfigSaveFirst dpList n img nvs) f =
      if f.point k ∈ (savedPoints dpList).take n then config k img f else storedConfig k nvs f := by
  have hkey := dpConfigSaveFirst_key (f.point_saved k) n img nvs
  split_ifs with hmem
  · rw [if_pos hmem] at hkey
    exact storedConfig_of_key hkey hload
  · rw [if_neg hmem] at hkey
    rw [storedConfig, storedConfig, storedSlot_congr hkey]

/-- A whole save. -/
theorem dpConfigSave_eq_first (img : Mem) (nvs : Nvs) :
    dpConfigSave dpList img nvs = dpConfigSaveFirst dpList (savedPoints dpList).length img nvs := by
  rw [dpConfigSaveFirst, List.take_length, dpConfigSave]

/-- A save writes no key of the legacy blob. -/
theorem legacyCompatible_saveFirst (n : ℕ) (img : Mem) (nvs : Nvs) :
    legacyCompatible dpList (dpConfigSaveFirst dpList n img nvs) = legacyCompatible dpList nvs := by
  apply legacyCompatible_congr <;> exact foldl_saveKey_other (fun _ _ => by simp [dpNvsKey]) _ _

end Fountainer.Network
