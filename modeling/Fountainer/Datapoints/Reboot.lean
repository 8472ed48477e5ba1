import Fountainer.Datapoints.Rules

/-!
# The rules across saves and reboots

A device is its live image and its NVS content. It takes batches, it saves, with the
power going out after any of the per-key writes, and it boots from what the flash holds.
Saving and loading work point by point and no step of the boot looks at the cross-field
rules, so the rules survive a reboot only when the keys of a group of points are whole:
what a load gives for the group, with the default of each point whose key is not usable,
satisfies its rules.
-/

namespace Fountainer.Datapoints

open Bytes CFloat

/-- The live image and the NVS content. -/
structure Device where
  img : Mem
  nvs : Nvs

/-- A step of the device. -/
inductive DeviceOp where
  /-- The RAM part of `dp_write_batch`. -/
  | batch (dpIn : Json)
  /-- `dp_config_save`, of which the first `n` per-key writes are done. -/
  | save (n : ℕ)
  /-- A reset or a power loss, and then `dp_init`. -/
  | reboot (id : Option DpIdentity)

/-- The device after `dp_init`. -/
def Device.boot (id : Option DpIdentity) (nvs : Nvs) : Device :=
  { img := (dpInit id nvs).1, nvs := (dpInit id nvs).2 }

/-- The device after a step. -/
def Device.step (s : Device) : DeviceOp → Device
  | .batch dpIn => { s with img := (dpWriteBatch s.img dpIn).img }
  | .save n => { s with nvs := dpConfigSaveFirst dpList n s.img s.nvs }
  | .reboot id => Device.boot id s.nvs

/-- The device after the steps `ops`, from the boot with the content `nvs`. -/
def deviceRun (id : Option DpIdentity) (nvs : Nvs) (ops : List DeviceOp) : Device :=
  Machine.run Device.step (Device.boot id nvs) ops

/-- The value of a point that a load gives: that of its key, or the default. -/
def loadedSlot (nvs : Nvs) (d : DpDesc) : List UInt8 :=
  (storedSlot nvs d).getD (d.slot (dpSetDefaults dpList (fun _ => 0)))

/-- The keys of a group are whole: the values that a load gives are those of an image that
    satisfies the rules of the group. -/
def GroupWhole (nvs : Nvs) (g : RuleGroup) : Prop :=
  ∃ m, g.Rule m ∧ ∀ d ∈ g.points, loadedSlot nvs d = d.slot m

/-- NVS content from which a boot keeps the rules. -/
structure Coherent (nvs : Nvs) : Prop where
  noLegacy : legacyCompatible dpList nvs = false
  whole : ∀ g, GroupWhole nvs g

/-- A load would give another value than the live image has. -/
def Device.Stale (s : Device) (d : DpDesc) : Prop := loadedSlot s.nvs d ≠ d.slot s.img

/-- The step does not reach the defect: a batch has no NaN for an integer point, and a
    save that is cut short writes the keys of all stale points of a group or of none. -/
def Device.Guard (s : Device) : DeviceOp → Prop
  | .batch dpIn => NoNaN dpIn.children
  | .save n => ∀ g : RuleGroup,
      (∀ d ∈ g.points, s.Stale d → d ∈ (savedPoints dpList).take n) ∨
        ∀ d ∈ g.points, s.Stale d → d ∉ (savedPoints dpList).take n
  | .reboot _ => True

theorem savedPoints_ids : ((savedPoints dpList).map (·.nvsId)).Nodup := by
  decide +kernel

/-- What the first writes of a save leave under the key of a saved point. -/
theorem dpConfigSaveFirst_key {d : DpDesc} (hd : d ∈ savedPoints dpList) (n : ℕ) (snap : Mem)
    (nvs : Nvs) :
    dpConfigSaveFirst dpList n snap nvs (dpNvsKey d) =
      if d ∈ (savedPoints dpList).take n then some (.blob (d.slot snap)) else nvs (dpNvsKey d) := by
  have hids : (savedPoints dpList).Pairwise (fun a b => a.nvsId ≠ b.nvsId) :=
    List.pairwise_map.mp savedPoints_ids
  split_ifs with hmem
  · exact foldl_saveKey_mem hmem (hids.sublist (List.take_sublist _ _)) snap nvs
  · apply foldl_saveKey_other
    intro e he hkey
    injection hkey with hid
    have heq := List.inj_on_of_nodup_map savedPoints_ids (List.mem_of_mem_take he) hd hid
    exact hmem (heq ▸ he)

/-- A stored value depends on its key only. -/
theorem storedSlot_congr {nvs nvs' : Nvs} {d : DpDesc}
    (h : nvs (dpNvsKey d) = nvs' (dpNvsKey d)) : storedSlot nvs d = storedSlot nvs' d := by
  rw [storedSlot, storedSlot, h]

theorem loadedSlot_congr {nvs nvs' : Nvs} {d : DpDesc}
    (h : nvs (dpNvsKey d) = nvs' (dpNvsKey d)) : loadedSlot nvs d = loadedSlot nvs' d := by
  rw [loadedSlot, loadedSlot, storedSlot_congr h]

theorem GroupWhole.congr {nvs nvs' : Nvs} {g : RuleGroup}
    (h : ∀ d ∈ g.points, loadedSlot nvs d = loadedSlot nvs' d) (hw : GroupWhole nvs g) :
    GroupWhole nvs' g := by
  obtain ⟨m, hrule, hall⟩ := hw
  exact ⟨m, hrule, fun d hd => (h d hd).symm.trans (hall d hd)⟩

/-- What a load gives for a point of a group after the first writes of a save. -/
theorem loadedSlot_save {s : Device} {g : RuleGroup} {d : DpDesc} (hd : d ∈ g.points)
    (hrange : GroupsInRange s.img) (n : ℕ) :
    loadedSlot (dpConfigSaveFirst dpList n s.img s.nvs) d =
      if d ∈ (savedPoints dpList).take n then d.slot s.img else loadedSlot s.nvs d := by
  have hkey := dpConfigSaveFirst_key (RuleGroup.saved_of_mem hd) n s.img s.nvs
  split_ifs with hmem
  · rw [if_pos hmem] at hkey
    have htype : d.type ≠ .str := RuleGroup.type_of_mem hd ▸ g.type_ne_str
    rw [loadedSlot, storedSlot_of_slot htype hkey (hrange g d hd), Option.getD_some]
  · rw [if_neg hmem] at hkey
    exact loadedSlot_congr hkey

/-- A save that writes the keys of all stale points of a group, or of none of them, leaves the
    group whole. -/
theorem GroupWhole.save {s : Device} {n : ℕ} {g : RuleGroup} (hrule : g.Rule s.img)
    (hrange : GroupsInRange s.img)
    (hguard : (∀ d ∈ g.points, s.Stale d → d ∈ (savedPoints dpList).take n) ∨
      ∀ d ∈ g.points, s.Stale d → d ∉ (savedPoints dpList).take n)
    (hw : GroupWhole s.nvs g) : GroupWhole (dpConfigSaveFirst dpList n s.img s.nvs) g := by
  rcases hguard with hall | hnone
  · refine ⟨s.img, hrule, fun d hd => ?_⟩
    rw [loadedSlot_save hd hrange]
    split_ifs with hmem
    · rfl
    · exact not_not.mp (fun hstale => hmem (hall d hd hstale))
  · apply hw.congr
    intro d hd
    rw [loadedSlot_save hd hrange]
    split_ifs with hmem
    · exact not_not.mp (fun hstale => hnone d hd hstale hmem)
    · rfl

theorem legacyCompatible_congr {nvs nvs' : Nvs} (hcfg : nvs .cfg = nvs' .cfg)
    (hver : nvs .ver = nvs' .ver) : legacyCompatible dpList nvs = legacyCompatible dpList nvs' := by
  rw [legacyCompatible, legacyCompatible, legacyBlob, legacyBlob, hcfg, hver]

/-- Without a compatible blob the migration leaves the image and the keys of the points. -/
theorem dpConfigMigrateBlob_noLegacy {nvs : Nvs} (h : legacyCompatible dpList nvs = false)
    (img : Mem) :
    (dpConfigMigrateBlob dpList img nvs).1 = img ∧
      (∀ id, (dpConfigMigrateBlob dpList img nvs).2 (.point id) = nvs (.point id)) ∧
      legacyCompatible dpList (dpConfigMigrateBlob dpList img nvs).2 = false := by
  rw [dpConfigMigrateBlob]
  cases hblob : legacyBlob nvs with
  | none => exact ⟨rfl, fun _ => rfl, h⟩
  | some blob =>
    obtain ⟨ver, bytes⟩ := blob
    have hno : ¬ (ver = dpCfgVersion ∧ bytes.length = (dpComputeCfgRegion dpList).2) := by
      rw [legacyCompatible, hblob] at h
      simpa using h
    dsimp only
    rw [if_neg hno]
    exact ⟨rfl, fun _ => rfl, rfl⟩

/-- A write to the field of another name leaves the slot of a point. -/
theorem slot_write_field {own name : String} {d : DpDesc} {bs : List UInt8}
    (hd : dpFind dpList own = some d) (hname : own ≠ name)
    (hsize : (dpFind dpList name).map DpDesc.size = some bs.length) (img : Mem) :
    d.slot (write img (imgOff name) bs) = d.slot img := by
  obtain ⟨e, he, hlen⟩ := Option.map_eq_some_iff.mp hsize
  apply DpDesc.slot_write
  rw [imgOff_eq he, ← hlen]
  exact dpFind_disjoint hd he hname

theorem length_strField (s : CString) : (strField s).length = 64 := by
  rw [strField, List.length_append, List.length_take, List.length_replicate]
  change min 63 s.bytes.length + (64 - min s.bytes.length 63) = 64
  omega

/-- The fields that `dp_init` sets to the identity. -/
def identityNames : List String :=
  ["Device_Serial_Number", "Device_HW_Version", "Device_SW_Version", "Device_Build_Version"]

/-- The slot of another point keeps its value when the identity is written. -/
theorem setIdentity_slot {own : String} {d : DpDesc} (hd : dpFind dpList own = some d)
    (hown : own ∉ identityNames) (id : DpIdentity) (img : Mem) :
    d.slot (setIdentity id img) = d.slot img := by
  have hserial : (dpFind dpList "Device_Serial_Number").map DpDesc.size =
    some 8 := by decide +kernel
  have hhw : (dpFind dpList "Device_HW_Version").map DpDesc.size = some 64 := by decide +kernel
  have hsw : (dpFind dpList "Device_SW_Version").map DpDesc.size = some 64 := by decide +kernel
  have hbuild : (dpFind dpList "Device_Build_Version").map DpDesc.size = some 8 := by decide +kernel
  have hother : ∀ name ∈ identityNames, own ≠ name := fun name hname heq => hown (heq ▸ hname)
  have hstr : ∀ (s : Option CString) (name : String) (img : Mem), own ≠ name →
      (dpFind dpList name).map DpDesc.size = some 64 →
      d.slot ((s.map fun s => write img (imgOff name) (strField s)).getD img) = d.slot img := by
    intro s name img hname hsize
    cases s with
    | none => rfl
    | some s => exact slot_write_field hd hname (by rw [hsize, length_strField]) img
  rw [setIdentity]
  rw [slot_write_field hd (hother _ (by simp [identityNames])) hbuild,
    hstr _ _ _ (hother _ (by simp [identityNames])) hsw,
    hstr _ _ _ (hother _ (by simp [identityNames])) hhw,
    slot_write_field hd (hother _ (by simp [identityNames])) hserial]

/-- The image of a boot without a legacy blob, in the slot of a saved point. -/
theorem dpInit_slot {own : String} {d : DpDesc} {nvs : Nvs} (hd : dpFind dpList own = some d)
    (hown : own ∉ identityNames) (hsaved : d ∈ savedPoints dpList)
    (h : legacyCompatible dpList nvs = false) (id : Option DpIdentity) :
    d.slot (dpInit id nvs).1 =
      (storedSlot nvs d).getD (d.slot (dpSetDefaults dpList (fun _ => 0))) := by
  obtain ⟨himg, hkeys, -⟩ := dpConfigMigrateBlob_noLegacy h (dpSetDefaults dpList (fun _ => 0))
  have hload := dpConfigLoad_slot hsaved
    (dpConfigMigrateBlob dpList (dpSetDefaults dpList (fun _ => 0)) nvs).2
    (dpConfigMigrateBlob dpList (dpSetDefaults dpList (fun _ => 0)) nvs).1
  rw [storedSlot_congr (hkeys _), himg] at hload
  rw [← hload, dpInit]
  dsimp only
  rw [himg]
  cases id with
  | none => rw [Option.map_none, Option.getD_none]
  | some id => rw [Option.map_some, Option.getD_some, setIdentity_slot hd hown]

/-- The image of a boot without a legacy blob, in the slots of the groups. -/
theorem dpInit_groupSlot {g : RuleGroup} {d : DpDesc} {nvs : Nvs} (hd : d ∈ g.points)
    (h : legacyCompatible dpList nvs = false) (id : Option DpIdentity) :
    d.slot (dpInit id nvs).1 = loadedSlot nvs d := by
  obtain ⟨own, hown, hfind⟩ := RuleGroup.mem_points hd
  have hother : ∀ name ∈ g.names, name ∉ identityNames := by
    cases g <;> decide
  exact dpInit_slot hfind (hother own hown) (RuleGroup.saved_of_mem hd) h id

/-- The defaults satisfy the rules and lie within their bounds. -/
theorem defaults_rules (g : RuleGroup) : g.Rule (dpSetDefaults dpList (fun _ => 0)) := by
  have h : dpConstraintsOk (dpSetDefaults dpList (fun _ => 0)) = .ok () := by decide +kernel
  exact dpConstraintsOk_iff.mp h g

theorem defaults_inRange : GroupsInRange (dpSetDefaults dpList (fun _ => 0)) := by
  intro g
  cases g <;> decide +kernel

/-- What a run keeps: the rules and the bounds of the live image, and whole keys. -/
structure Device.Kept (s : Device) : Prop where
  rules : ∀ g : RuleGroup, g.Rule s.img
  range : GroupsInRange s.img
  coherent : Coherent s.nvs

/-- A boot from whole keys. -/
theorem Coherent.boot {nvs : Nvs} (h : Coherent nvs) (id : Option DpIdentity) :
    (Device.boot id nvs).Kept := by
  obtain ⟨-, hkeys, hlegacy⟩ := dpConfigMigrateBlob_noLegacy h.noLegacy
    (dpSetDefaults dpList (fun _ => 0))
  have hslot := fun (g : RuleGroup) (d : DpDesc) (hd : d ∈ g.points) =>
    dpInit_groupSlot hd h.noLegacy id
  refine ⟨fun g => ?_, fun g d hd => ?_, hlegacy, fun g => ?_⟩
  · obtain ⟨m, hrule, hall⟩ := h.whole g
    refine RuleGroup.rule_congr (fun d hd => ?_) hrule
    rw [Device.boot, hslot g d hd, hall d hd]
  · have htype : d.type ≠ .str := RuleGroup.type_of_mem hd ▸ g.type_ne_str
    have hboot : d.slot (Device.boot id nvs).img = loadedSlot nvs d := hslot g d hd
    rw [loadedSlot] at hboot
    cases hstored : storedSlot nvs d with
    | none =>
      rw [hstored, Option.getD_none] at hboot
      exact (slotInRange_congr hboot).trans (defaults_inRange g d hd)
    | some bytes =>
      rw [hstored, Option.getD_some] at hboot
      exact slotInRange_of_stored htype (hstored.trans (congrArg some hboot.symm))
  · exact (h.whole g).congr fun d _ => loadedSlot_congr (hkeys _).symm

/-- A step that does not reach the defect keeps the rules, the bounds and whole keys. -/
theorem Device.Kept.step {s : Device} (h : s.Kept) {op : DeviceOp} (hguard : s.Guard op) :
    (s.step op).Kept := by
  cases op with
  | batch dpIn =>
    refine ⟨?_, dpWriteBatch_inRange hguard h.range, h.coherent⟩
    exact dpConstraintsOk_iff.mp
      (StoreOp.step_constraintsOk (dpConstraintsOk_iff.mpr h.rules) (.batch 0 dpIn))
  | save n =>
    refine ⟨h.rules, h.range, ?_, fun g => ?_⟩
    · rw [← h.coherent.noLegacy]
      apply legacyCompatible_congr <;> exact foldl_saveKey_other (fun _ _ => by simp [dpNvsKey]) _ _
    · exact (h.coherent.whole g).save (h.rules g) h.range (hguard g)
  | reboot id => exact h.coherent.boot id

/-- **The rules survive persistence as long as the keys of a group stay whole.** The
    usable keys that the first boot finds of a group satisfy its rules together with the
    defaults of the others, no batch writes a NaN to an integer point, and no save is cut
    between two stale points of a group; then the live image satisfies `dp_constraints_ok`
    in every state of the run. -/
theorem constraints_survive_whole (id : Option DpIdentity) (nvs : Nvs) (ops : List DeviceOp)
    (hboot : Coherent nvs)
    (hguard : Machine.Guarded Device.step Device.Guard (Device.boot id nvs) ops) :
    dpConstraintsOk (deviceRun id nvs ops).img = .ok () := by
  have hkept : (deviceRun id nvs ops).Kept :=
    hguard.invariant Device.step (fun s op hg hs => hs.step hg) (hboot.boot id)
  exact dpConstraintsOk_iff.mpr hkept.rules

/-- A batch that moves the pressure thresholds up together. -/
def raisedPressures : Json :=
  .object [("Fon_Min_Pressure", .number 4.0), ("Fon_Max_Pressure", .number 5.0),
    ("Fon_Alert_High_Pressure", .number 6.0)]

/-- The thresholds are raised, saved whole and loaded again. -/
theorem constraints_survive_whole_raised :
    dpConstraintsOk (deviceRun none (fun _ => none)
      [.batch raisedPressures, .save 64, .reboot none]).img = .ok () := by
  apply constraints_survive_whole
  · exact ⟨rfl, fun g => ⟨_, defaults_rules g, fun d _ => rfl⟩⟩
  · refine ⟨?_, ?_, trivial, trivial⟩
    · intro item hitem d x hd htype hx
      have hnan : ∀ x ∈ [(4.0 : Float), 5.0, 6.0], x.isNaN = false := by decide +kernel
      have hall : ∀ item ∈ raisedPressures.children, ∃ x ∈ [(4.0 : Float), 5.0, 6.0],
          item.2 = .number x := by
        simp [raisedPressures, Json.children]
      obtain ⟨y, hy, hval⟩ := hall item hitem
      cases hx.symm.trans hval
      exact hnan _ hy
    · intro g
      refine .inl (fun d hd _ => ?_)
      have hlen : (savedPoints dpList).length ≤ 64 := by decide +kernel
      rw [List.take_of_length_le hlen]
      exact RuleGroup.saved_of_mem hd

/-- The power goes out after the first key of the save, and the boot mixes the new
    minimum with the default maximum. -/
theorem constraints_lost_by_cut_save :
    (dpWriteBatch (deviceRun none (fun _ => none) []).img raisedPressures).ok = true ∧
    dpConstraintsOk (deviceRun none (fun _ => none)
      [.batch raisedPressures, .save 1, .reboot none]).img = .error "Fon_Max_Pressure" := by
  decide +kernel

end Fountainer.Datapoints
