import Fountainer.Datapoints.Batch

/-!
# Persistence: one NVS key per point

The configuration is stored point by point. `dpConfigSave` writes the slots of a
snapshot key by key, `dpConfigLoad` reads every key that is present, has the size of
the type and lies within the bounds, and keeps the default of the others. `dpInit`
is the boot: defaults, the one-time adoption of the legacy blob, the keys, the
identity of the device.
-/

namespace Fountainer.Datapoints

open Bytes CFloat

/-- A key of the namespace: `d<id>` of a point, or a key of the legacy blob. -/
inductive NvsKey where
  | point (id : ℕ)
  | cfg
  | ver
  deriving DecidableEq, Repr

/-- A stored value. -/
inductive NvsEntry where
  | blob (bytes : List UInt8)
  | u16 (v : UInt16)
  deriving DecidableEq, Repr

/-- The content of the namespace. -/
abbrev Nvs := NvsKey → Option NvsEntry

/-- `DP_CFG_VERSION`. -/
def dpCfgVersion : UInt16 := 7

/-- `dp_nvs_key`. -/
def dpNvsKey (d : DpDesc) : NvsKey := .point d.nvsId

/-- The bytes of a slot. -/
def DpDesc.slot (d : DpDesc) (m : Mem) : List UInt8 := read m d.off d.size

section

variable (rows : List DpPoint)

/-- The points that the loops of save and load do not skip. -/
def savedPoints : List DpDesc :=
  (gDp rows).filter (fun d => d.persist == .nvs && d.nvsId != 0)

/-- One turn of the save loop. -/
def saveKey (snap : Mem) (nvs : Nvs) (d : DpDesc) : Nvs :=
  Function.update nvs (dpNvsKey d) (some (.blob (d.slot snap)))

/-- The first `n` turns of the save loop of `dp_config_save`: all of it, or what came
    before the power loss or a write that failed. -/
def dpConfigSaveFirst (n : ℕ) (snap : Mem) (nvs : Nvs) : Nvs :=
  ((savedPoints rows).take n).foldl (saveKey snap) nvs

/-- `dp_config_save` of the snapshot `snap`, with every write done. -/
def dpConfigSave (snap : Mem) (nvs : Nvs) : Nvs := (savedPoints rows).foldl (saveKey snap) nvs

/-- `dp_slot_as_double`; `none` where the type has no range. -/
def dpSlotAsDouble (type : DpType) (p : Mem) (off : ℕ) : Option Float :=
  match type with
  | .bool | .u8 | .enum => some (p off).toFloat
  | .i8 => some (Float.ofInt (p off).toInt8.toInt)
  | .u16 => some (rdU16 p off).toFloat
  | .i16 => some (Float.ofInt (rdU16 p off).toInt16.toInt)
  | .u32 => some (rdU32 p off).toFloat
  | .i32 => some (Float.ofInt (rdU32 p off).toInt32.toInt)
  | .f32 => some (widen (Float32.ofBits (rdU32 p off)))
  | .u64 | .str => none

/-- The range check of the load. -/
def slotInRange (d : DpPoint) (p : Mem) (off : ℕ) : Bool :=
  match dpSlotAsDouble d.type p off with
  | some num => d.inRange num
  | none => true

/-- The stored bytes under the key of a point, where the load takes them. The buffer
    of the load has `DP_STR_MAX` bytes, and a longer blob is an error of its own. -/
def storedSlot (nvs : Nvs) (d : DpDesc) : Option (List UInt8) :=
  match nvs (dpNvsKey d) with
  | some (.blob bytes) =>
    if dpStrMax < bytes.length then none
    else if bytes.length ≠ d.size then none
    else if ¬ slotInRange d.toDpPoint (write (fun _ => 0) 0 bytes) 0 then none
    else if d.type = .str then some (bytes.set (dpStrMax - 1) 0)
    else some bytes
  | _ => none

/-- One turn of the load loop. -/
def loadKey (nvs : Nvs) (img : Mem) (d : DpDesc) : Mem :=
  match storedSlot nvs d with
  | some bytes => write img d.off bytes
  | none => img

/-- `dp_config_load`. -/
def dpConfigLoad (nvs : Nvs) (img : Mem) : Mem := (savedPoints rows).foldl (loadKey nvs) img

/-- The bytes of a default assigned to a field of the type. A string has no default. -/
def DpConst.bytes : DpConst → DpType → Option (List UInt8)
  | .int n, .bool | .int n, .u8 | .int n, .enum | .int n, .i8 => some [UInt8.ofInt n]
  | .int n, .u16 | .int n, .i16 => some (leU16 (UInt16.ofInt n))
  | .int n, .u32 | .int n, .i32 => some (leU32 (UInt32.ofInt n))
  | .int n, .u64 => some (leU64 (UInt64.ofInt n))
  | .int n, .f32 => some (leU32 (Float32.ofInt n).toBits)
  | .flt x, .f32 => some (leU32 x.toBits)
  | .flt x, .bool | .flt x, .u8 | .flt x, .enum => some [(widen x).toUInt8]
  | .flt x, .i8 => some [(toInt8 (widen x)).toUInt8]
  | .flt x, .u16 => some (leU16 (widen x).toUInt16)
  | .flt x, .i16 => some (leU16 (toInt16 (widen x)).toUInt16)
  | .flt x, .u32 => some (leU32 (widen x).toUInt32)
  | .flt x, .i32 => some (leU32 (toInt32 (widen x)).toUInt32)
  | .flt x, .u64 => some (leU64 (widen x).toUInt64)
  | _, .str => none

/-- The default of one point. -/
def setDefault (img : Mem) (d : DpDesc) : Mem :=
  if d.persist = .nvs then
    match d.default.bytes d.type with
    | some bytes => write img d.off bytes
    | none => img
  else img

/-- `dp_set_defaults`. -/
def dpSetDefaults (img : Mem) : Mem := (gDp rows).foldl setDefault img

/-- `dp_compute_cfg_region`: offset and size of the region of the NVS points. -/
def dpComputeCfgRegion : ℕ × ℕ :=
  match (gDp rows).filter (fun d => d.persist == .nvs) with
  | [] => (0, 0)
  | d :: ds =>
    let lo := ds.foldl (fun lo d => min lo d.off) d.off
    let hi := ds.foldl (fun hi d => max hi (d.off + d.size)) (d.off + d.size)
    (lo % 2 ^ 16, (hi - lo) % 2 ^ 16)

/-- The legacy blob and its version, when both keys are there. -/
def legacyBlob (nvs : Nvs) : Option (UInt16 × List UInt8) :=
  match nvs .ver, nvs .cfg with
  | some (.u16 ver), some (.blob bytes) => some (ver, bytes)
  | _, _ => none

/-- The legacy blob is of this build's version and layout. -/
def legacyCompatible (nvs : Nvs) : Bool :=
  match legacyBlob nvs with
  | some (ver, bytes) => ver == dpCfgVersion && bytes.length == (dpComputeCfgRegion rows).2
  | none => false

/-- The keys of the legacy blob erased. -/
def eraseLegacy (nvs : Nvs) : Nvs := Function.update (Function.update nvs .cfg none) .ver none

/-- `dp_config_migrate_blob`, with every NVS operation successful. -/
def dpConfigMigrateBlob (img : Mem) (nvs : Nvs) : Mem × Nvs :=
  match legacyBlob nvs with
  | some (ver, bytes) =>
    if ver = dpCfgVersion ∧ bytes.length = (dpComputeCfgRegion rows).2 then
      let img := write img (dpComputeCfgRegion rows).1 bytes
      (img, eraseLegacy (dpConfigSave rows img nvs))
    else (img, eraseLegacy nvs)
  | none => (img, nvs)

end

/-- `dp_identity_t`. -/
structure DpIdentity where
  serial : UInt64
  hwVersion : Option CString
  swVersion : Option CString
  buildMs : UInt64

/-- `strncpy` into a string field, with the terminator behind it. -/
def strField (s : CString) : List UInt8 :=
  s.bytes.take (dpStrMax - 1) ++ List.replicate (dpStrMax - min s.bytes.length (dpStrMax - 1)) 0

/-- The identity written into its fields. -/
def setIdentity (id : DpIdentity) (img : Mem) : Mem :=
  let img := write img (imgOff "Device_Serial_Number") (leU64 id.serial)
  let img :=
    (id.hwVersion.map fun s => write img (imgOff "Device_HW_Version") (strField s)).getD img
  let img :=
    (id.swVersion.map fun s => write img (imgOff "Device_SW_Version") (strField s)).getD img
  write img (imgOff "Device_Build_Version") (leU64 id.buildMs)

/-- `dp_init`: the image and the NVS content after it. -/
def dpInit (id : Option DpIdentity) (nvs : Nvs) : Mem × Nvs :=
  let adopted := dpConfigMigrateBlob dpList (dpSetDefaults dpList (fun _ => 0)) nvs
  let img := dpConfigLoad dpList adopted.2 adopted.1
  ((id.map fun id => setIdentity id img).getD img, adopted.2)

section Slots

variable {rows : List DpPoint} {m m' : Mem} {d e : DpDesc}

theorem DpDesc.length_slot (d : DpDesc) (m : Mem) : (d.slot m).length = d.size := length_read _ _ _

/-- A write outside the slot of a point leaves the slot. -/
theorem DpDesc.slot_write {off : ℕ} {bs : List UInt8}
    (h : d.off + d.size ≤ off ∨ off + bs.length ≤ d.off) : d.slot (write m off bs) = d.slot m :=
  read_write_disjoint h

/-- A write of a whole slot. -/
theorem DpDesc.slot_write_self {bs : List UInt8} (h : bs.length = d.size) :
    d.slot (write m d.off bs) = bs := by
  rw [slot, ← h]
  exact read_write_self m d.off bs

/-- The number in a slot depends on its bytes only. -/
theorem dpSlotAsDouble_congr {type : DpType} {off off' : ℕ}
    (h : read m off type.size = read m' off' type.size) :
    dpSlotAsDouble type m off = dpSlotAsDouble type m' off' := by
  cases type with
  | u64 => rfl
  | str => rfl
  | u16 | i16 => simp only [dpSlotAsDouble, rdU16_congr h]
  | u32 | i32 | f32 => simp only [dpSlotAsDouble, rdU32_congr h]
  | bool | u8 | enum | i8 =>
    have h0 := read_byte h (i := 0) (by decide)
    rw [Nat.add_zero, Nat.add_zero] at h0
    simp only [dpSlotAsDouble, h0]

theorem slotInRange_congr {p : DpPoint} {off off' : ℕ}
    (h : read m off p.type.size = read m' off' p.type.size) :
    slotInRange p m off = slotInRange p m' off' := by
  rw [slotInRange, slotInRange, dpSlotAsDouble_congr h]

/-- The function changes an image in the slot of the point only. -/
def WritesSlot (f : Mem → DpDesc → Mem) : Prop :=
  ∀ img d i, i < d.off ∨ d.off + d.size ≤ i → f img d i = img i

theorem WritesSlot.slot_eq {f : Mem → DpDesc → Mem} (hf : WritesSlot f)
    (h : d.off + d.size ≤ e.off ∨ e.off + e.size ≤ d.off) (img : Mem) :
    e.slot (f img d) = e.slot img := by
  apply List.map_congr_left
  intro i hi
  have hlt := List.mem_range.mp hi
  exact hf img d _ (by omega)

/-- A loop over points with other slots leaves the slot of a point. -/
theorem WritesSlot.foldl_disjoint {f : Mem → DpDesc → Mem} (hf : WritesSlot f) {ds : List DpDesc}
    (h : ∀ e ∈ ds, e.off + e.size ≤ d.off ∨ d.off + d.size ≤ e.off) (img : Mem) :
    d.slot (ds.foldl f img) = d.slot img := by
  induction ds generalizing img with
  | nil => rfl
  | cons e ds ih =>
    rw [List.foldl_cons, ih (fun e he => h e (List.mem_cons_of_mem _ he)),
      hf.slot_eq (h e List.mem_cons_self)]

/-- A loop over points with disjoint slots leaves the slot of a point that it passes
    over with what the point's own turn makes of it. -/
theorem WritesSlot.foldl_slot {f : Mem → DpDesc → Mem} (hf : WritesSlot f) {ds : List DpDesc}
    {φ : List UInt8 → List UInt8} (hφ : ∀ img, d.slot (f img d) = φ (d.slot img))
    (hd : d ∈ ds) (hpair : ds.Pairwise (fun a b => a.off + a.size ≤ b.off)) (img : Mem) :
    d.slot (ds.foldl f img) = φ (d.slot img) := by
  induction ds generalizing img with
  | nil => cases hd
  | cons e ds ih =>
    obtain ⟨hhead, htail⟩ := List.pairwise_cons.mp hpair
    rw [List.foldl_cons]
    rcases List.mem_cons.mp hd with rfl | hmem
    · rw [hf.foldl_disjoint (fun e he => .inr (hhead e he)), hφ]
    · rw [ih hmem htail, hf.slot_eq (.inl (hhead d hmem))]

/-- What the load takes is a blob of the right size within the bounds of its point. -/
theorem storedSlot_cases {nvs : Nvs} {bs : List UInt8} (h : storedSlot nvs d = some bs) :
    ∃ bytes, nvs (dpNvsKey d) = some (.blob bytes) ∧ bytes.length = d.size ∧
      slotInRange d.toDpPoint (write (fun _ => 0) 0 bytes) 0 = true ∧
      bs = if d.type = .str then bytes.set (dpStrMax - 1) 0 else bytes := by
  rw [storedSlot] at h
  split at h
  · next bytes hkey =>
    split_ifs at h with hmax hlen hrange hstr
    · cases h
      exact ⟨bytes, hkey, not_not.mp hlen, hrange, (if_pos hstr).symm⟩
    · cases h
      exact ⟨bs, hkey, not_not.mp hlen, hrange, (if_neg hstr).symm⟩
  · cases h

theorem storedSlot_length {nvs : Nvs} {bs : List UInt8} (h : storedSlot nvs d = some bs) :
    bs.length = d.size := by
  obtain ⟨bytes, -, hlen, -, rfl⟩ := storedSlot_cases h
  split_ifs
  · rw [List.length_set, hlen]
  · exact hlen

theorem loadKey_writesSlot (nvs : Nvs) : WritesSlot (loadKey nvs) := by
  intro img d i hi
  cases hbytes : storedSlot nvs d with
  | none => rw [loadKey, hbytes]
  | some bytes =>
    rw [loadKey, hbytes]
    apply write_outside
    rw [storedSlot_length hbytes]
    exact hi

theorem savedPoints_pairwise : (savedPoints rows).Pairwise (fun a b => a.off + a.size ≤ b.off) :=
  (layout_pairwise 0 rows).filter _

/-- After the load a point has its stored value, or what it had where none is usable. -/
theorem dpConfigLoad_slot (hd : d ∈ savedPoints rows) (nvs : Nvs) (img : Mem) :
    d.slot (dpConfigLoad rows nvs img) = (storedSlot nvs d).getD (d.slot img) := by
  refine (loadKey_writesSlot nvs).foldl_slot (fun img => ?_) hd savedPoints_pairwise img
  cases hbytes : storedSlot nvs d with
  | none =>
    rw [loadKey, hbytes]
    rfl
  | some bytes =>
    rw [loadKey, hbytes]
    exact DpDesc.slot_write_self (storedSlot_length hbytes)

/-- The save loop leaves the keys of other points. -/
theorem foldl_saveKey_other {ds : List DpDesc} {key : NvsKey} (h : ∀ e ∈ ds, dpNvsKey e ≠ key)
    (snap : Mem) (nvs : Nvs) : ds.foldl (saveKey snap) nvs key = nvs key := by
  induction ds generalizing nvs with
  | nil => rfl
  | cons e ds ih =>
    rw [List.foldl_cons, ih (fun e he => h e (List.mem_cons_of_mem _ he)), saveKey,
      Function.update_of_ne (h e List.mem_cons_self).symm]

/-- The save loop stores the slot of each point it reaches under its key. -/
theorem foldl_saveKey_mem {ds : List DpDesc} (hd : d ∈ ds)
    (hids : ds.Pairwise (fun a b => a.nvsId ≠ b.nvsId)) (snap : Mem) (nvs : Nvs) :
    ds.foldl (saveKey snap) nvs (dpNvsKey d) = some (.blob (d.slot snap)) := by
  induction ds generalizing nvs with
  | nil => cases hd
  | cons e ds ih =>
    obtain ⟨hhead, htail⟩ := List.pairwise_cons.mp hids
    rw [List.foldl_cons]
    rcases List.mem_cons.mp hd with rfl | hmem
    · rw [foldl_saveKey_other, saveKey, Function.update_self]
      intro e he hkey
      injection hkey with hid
      exact hhead e he hid.symm
    · exact ih hmem htail _

/-- A slot stored whole and within its bounds is usable. -/
theorem storedSlot_of_slot {nvs : Nvs} {img : Mem} (htype : d.type ≠ .str)
    (hkey : nvs (dpNvsKey d) = some (.blob (d.slot img)))
    (hrange : slotInRange d.toDpPoint img d.off = true) : storedSlot nvs d = some (d.slot img) := by
  have hlen := d.length_slot img
  have hsize : d.size ≤ dpStrMax := by
    rw [DpDesc.size]
    cases d.type <;> decide
  have hbuf : slotInRange d.toDpPoint (write (fun _ => 0) 0 (d.slot img)) 0 = true := by
    rw [← hrange]
    apply slotInRange_congr
    have := read_write_self (fun _ => 0) 0 (d.slot img)
    rwa [hlen] at this
  rw [storedSlot, hkey]
  simp only [hlen, hbuf, htype, not_lt.mpr hsize, if_false, ne_eq, not_true_eq_false]

/-- A usable value is within the bounds of its point. -/
theorem slotInRange_of_stored {nvs : Nvs} {img : Mem} (htype : d.type ≠ .str)
    (h : storedSlot nvs d = some (d.slot img)) : slotInRange d.toDpPoint img d.off = true := by
  obtain ⟨bytes, -, -, hrange, hslot⟩ := storedSlot_cases h
  rw [if_neg htype] at hslot
  rw [← hrange, ← hslot]
  apply slotInRange_congr
  have := read_write_self (fun _ => 0) 0 (d.slot img)
  rw [d.length_slot img] at this
  exact this.symm

end Slots

end Fountainer.Datapoints
