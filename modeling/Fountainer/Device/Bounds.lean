import Fountainer.Device.CanWrite
import Fountainer.Datapoints.Bounds

/-!
# The bounds on every path into the store

The store is written by JSON objects from the network, by raw bytes from the CAN bus and
by loads of the flash. Every path checks the numbers that it converts, but a NaN passes the
check; JSON text has none, raw bytes and stored blobs may. And `Network_Save` can copy the
port of the backup, which has no bounds, over the port in use, which has.
-/

namespace Fountainer.Device

open Bytes CFloat
open Datapoints
open Network

variable {img : Mem} {dp : Json}

-- ════════════════════════════════════════════════════════════════════════
-- Restoring the backup
-- ════════════════════════════════════════════════════════════════════════

/-- A write of a whole field. -/
theorem boundsHold_writeField {name : String} {e : DpDesc} {bs : List UInt8}
    (hfind : dpFind dpList name = some e) (hlen : bs.length = e.size) (h : BoundsHold img)
    (hself : e.bounded = true → e.InBounds (write img e.off bs)) :
    BoundsHold (write img (imgOff name) bs) := by
  rw [imgOff_eq hfind]
  exact forall_bounded_write (fun d m m' => DpDesc.inBounds_congr) (dpFind_mem hfind) hlen h hself

/-- A string field has no bounds. -/
theorem dpStrSet_bounds {dst : String} (src : String)
    (htype : (dpFind dpList dst).any (fun d => d.type == .str) = true) (h : BoundsHold img) :
    BoundsHold (dpStrSet img dst src) := by
  obtain ⟨e, he, hstr⟩ := (Option.any_eq_true _ _).mp htype
  rw [beq_iff_eq] at hstr
  rw [dpStrSet]
  refine boundsHold_writeField he ?_ h fun hb => ?_
  · have hle :=
      (List.takeWhile_sublist (l := read img (imgOff src) (dpStrMax - 1)) (· ≠ 0)).length_le
    rw [length_read] at hle
    rw [List.length_append, List.length_replicate, DpDesc.size, hstr, DpType.size]
    omega
  · simp [DpPoint.bounded, hstr] at hb

/-- A port other than 0 is within its bounds. -/
theorem port_inRange {d : DpPoint} (hmin : d.min = some 1.0) (hmax : d.max = some 65535.0)
    {port : UInt16} (hport : port ≠ 0) : d.inRange port.toFloat = true := by
  have hone : value (widen 1.0) = some (((1 : ℤ) : ℝ) : EReal) := by
    have heq : widen 1.0 = Float.ofInt 1 := by decide +kernel
    rw [heq, value_ofInt (by decide)]
  have hlast : value (widen 65535.0) = some (((65535 : ℤ) : ℝ) : EReal) := by
    have heq : widen 65535.0 = Float.ofInt 65535 := by decide +kernel
    rw [heq, value_ofInt (by decide)]
  have hlt := port.toNat_lt
  have hpos : port.toNat ≠ 0 := fun h => hport (UInt16.toNat_inj.mp h)
  rw [DpPoint.inRange_iff, hmin, hmax]
  constructor
  · intro mn hmn
    cases hmn
    rw [lt_iff_value, value_ofUInt16, hone]
    simp only [Option.mem_some_iff, exists_eq_left', EReal.coe_lt_coe_iff, Int.cast_lt]
    omega
  · intro mx hmx
    cases hmx
    rw [lt_iff_value, value_ofUInt16, hlast]
    simp only [Option.mem_some_iff, exists_eq_left', EReal.coe_lt_coe_iff, Int.cast_lt]
    omega

/-- The port of the backup over the port in use. -/
theorem copyPort_bounds (hport : imgU16 img "Backup_Server_Port" ≠ 0) (h : BoundsHold img) :
    BoundsHold (copyField 2 img "Network_Server_Port" "Backup_Server_Port") := by
  have hrow : (dpFind dpList "Network_Server_Port").any (fun d => d.type == .u16 &&
      decide (d.min = some 1.0) && decide (d.max = some 65535.0)) = true := by decide +kernel
  obtain ⟨e, he, hflags⟩ := (Option.any_eq_true _ _).mp hrow
  simp only [Bool.and_eq_true, beq_iff_eq, decide_eq_true_iff] at hflags
  obtain ⟨⟨htype, hmin⟩, hmax⟩ := hflags
  have hsize : e.size = 2 := by rw [DpDesc.size, htype]; rfl
  refine boundsHold_writeField he (by rw [length_read, hsize]) h fun hb => ?_
  refine (DpDesc.inBounds_iff (dpFind_mem he) hb).mpr ⟨?_, fun hnan => ?_⟩
  swap
  · rw [DpDesc.HoldsNaN, htype] at hnan
    cases hnan.1
  have hslot : rdU16 (write img e.off (read img (imgOff "Backup_Server_Port") 2)) e.off =
      imgU16 img "Backup_Server_Port" := by
    apply rdU16_congr
    have := read_write_self img e.off (read img (imgOff "Backup_Server_Port") 2)
    rwa [length_read] at this
  rw [slotInRange, htype, dpSlotAsDouble, hslot]
  exact port_inRange hmin hmax hport

/-- The restored backup is within the bounds unless its port is 0. -/
theorem restoreFromBackup_bounds (hport : imgU16 img "Backup_Server_Port" ≠ 0)
    (h : BoundsHold img) :
    BoundsHold (restoreFromBackup img) := by
  have hdhcp : (dpFind dpList "Network_DHCP").any (fun d => d.type == .bool) = true := by
    decide +kernel
  obtain ⟨e, he, hbool⟩ := (Option.any_eq_true _ _).mp hdhcp
  rw [beq_iff_eq] at hbool
  have hsize : e.size = 1 := by rw [DpDesc.size, hbool]; rfl
  have hfirst : BoundsHold (copyField 1 img "Network_DHCP" "Backup_DHCP") := by
    refine boundsHold_writeField he (by rw [length_read, hsize]) h fun hb => ?_
    simp [DpPoint.bounded, hbool] at hb
  have hsame : imgU16 (copyField 1 img "Network_DHCP" "Backup_DHCP") "Backup_Server_Port" =
      imgU16 img "Backup_Server_Port" := by
    have hbackup : (dpFind dpList "Backup_Server_Port").map DpDesc.size =
      some 2 := by decide +kernel
    obtain ⟨d, hd, hdsize⟩ := Option.map_eq_some_iff.mp hbackup
    have hdisj := dpFind_disjoint hd he (by decide)
    apply rdU16_congr
    rw [copyField, imgOff_eq he, imgOff_eq hd]
    apply read_write_disjoint
    rw [length_read]
    omega
  have hcopied := copyPort_bounds (by rw [hsame]; exact hport) hfirst
  rw [restoreFromBackup]
  refine dpStrSet_bounds _ (by decide +kernel) (dpStrSet_bounds _ (by decide +kernel)
    (dpStrSet_bounds _ (by decide +kernel) (dpStrSet_bounds _ (by decide +kernel)
      (dpStrSet_bounds _ (by decide +kernel) (dpStrSet_bounds _ (by decide +kernel) ?_)))))
  exact hcopied

theorem networkConfigSaveHandle_bounds (reboots : Bool) {action : UInt8}
    (hport : action = 3 → imgU16 img "Backup_Server_Port" ≠ 0) (h : BoundsHold img) :
    BoundsHold (networkConfigSaveHandle reboots img action).2 := by
  unfold networkConfigSaveHandle
  split
  · exact h
  · exact h
  · dsimp only
    exact restoreFromBackup_bounds (hport rfl) h
  · split
    · exact h
    · exact h
  · exact h

-- ════════════════════════════════════════════════════════════════════════
-- Writes
-- ════════════════════════════════════════════════════════════════════════

/-- A write that is accepted brings no NaN for a bounded point outside of the pressure
    thresholds, whose rules refuse it, and does not restore a backup with port 0. -/
def WriteGuard (img : Mem) (dp : Json) : Prop :=
  (dpWriteBatch img (batchOf dp)).ok = true →
    NaNForThresholds dp.children ∧
      (networkSave dp = 3 → imgU16 img "Backup_Server_Port" ≠ 0)

theorem children_deleteItemCaseSensitive (m : Json) (key : String) :
    ∀ item ∈ (deleteItemCaseSensitive m key).children, item ∈ m.children := by
  intro item hitem
  cases m with
  | object fields =>
    simp only [deleteItemCaseSensitive, Json.children, List.mem_map] at hitem ⊢
    obtain ⟨f, hf, hitem⟩ := hitem
    exact ⟨f, List.mem_of_mem_eraseP hf, hitem⟩
  | null | bool | number | string | array => exact hitem

/-- A write from the network keeps the bounds. -/
theorem taskComApplyDpWrite_bounds {reboots : Bool} (hguard : WriteGuard img dp)
    (h : BoundsHold img) :
    BoundsHold (taskComApplyDpWrite reboots img dp).2 := by
  by_cases hok : (dpWriteBatch img (batchOf dp)).ok = true
  swap
  · -- A rejected batch leaves the image, and no action follows.
    have hfalse := Bool.eq_false_iff.mpr hok
    rw [taskComApplyDpWrite]
    dsimp only
    rw [if_pos (by rw [hfalse]; rfl)]
    exact (dpWriteBatchWith_rejected hfalse).symm ▸ h
  obtain ⟨hnan, hrestore⟩ := hguard hok
  have hbatch : BoundsHold (dpWriteBatch img (batchOf dp)).img := by
    refine dpWriteBatch_bounds (fun item hitem => hnan item ?_) h
    exact children_deleteItemCaseSensitive _ _ _ (children_deleteItemCaseSensitive _ _ _ hitem)
  have hport : imgU16 (dpWriteBatch img (batchOf dp)).img "Backup_Server_Port" =
      imgU16 img "Backup_Server_Port" := by
    have hrow : (dpFind dpList "Backup_Server_Port").any (fun d => d.type == .u16 &&
        d.access == .ro) = true := by decide +kernel
    obtain ⟨d, hd, hflags⟩ := (Option.any_eq_true _ _).mp hrow
    simp only [Bool.and_eq_true, beq_iff_eq] at hflags
    have hslot := dpWriteBatch_readOnly (dpFind_mem hd) (by simp [hflags.2]) img (batchOf dp)
    rw [DpDesc.slot, DpDesc.slot, DpDesc.size, hflags.1] at hslot
    rw [imgU16, imgU16, imgOff_eq hd]
    exact rdU16_congr hslot
  have hsave :=
    networkConfigSaveHandle_bounds reboots (fun haction => hport ▸ hrestore haction) hbatch
  rw [taskComApplyDpWrite]
  dsimp only
  split
  · exact hbatch
  · split
    · exact hbatch
    · split <;> exact hsave

-- ════════════════════════════════════════════════════════════════════════
-- Runs
-- ════════════════════════════════════════════════════════════════════════

/-- A write of the store. `reboots` is the answer of `system_reboot_deferred`. -/
inductive StoreWrite where
  | json (dp : Json) (reboots : Bool)
  | can (index : UInt16) (sub : UInt8) (buf : List UInt8) (reboots : Bool)
  | load (nvs : Nvs)

/-- The image after a write. -/
def StoreWrite.step (img : Mem) : StoreWrite → Mem
  | .json dp reboots => (taskComApplyDpWrite reboots img dp).2
  | .can index sub buf reboots => (odWriteCb reboots img index sub buf).2
  | .load nvs => dpConfigLoad dpList nvs img

/-- The image after the writes, from the defaults on. -/
def storeRun (ops : List StoreWrite) : Mem :=
  Machine.run StoreWrite.step (dpSetDefaults dpList (fun _ => 0)) ops

/-- The write does not reach the defects. -/
def StoreWrite.Guard (img : Mem) : StoreWrite → Prop
  | .json dp _ => WriteGuard img dp
  | .can index sub buf _ => ∀ d v, odWriteTarget index sub = .ok d →
      jsonFromRaw d.toDpPoint buf = .ok v →
      (dpWriteBatch img (batchOf (.object [(d.name, v)]))).ok = true →
        (d.bounded = true → d.type = .f32 → buf.length = 4 → (floatOf buf).isNaN = true →
          d ∈ RuleGroup.pressure.points) ∧
        (d.name = "Network_Save" → buf = [3] → imgU16 img "Backup_Server_Port" ≠ 0)
  | .load nvs => NoStoredNaN nvs

theorem odWriteTarget_mem {index : UInt16} {sub : UInt8} {d : DpDesc}
    (h : odWriteTarget index sub = .ok d) : d ∈ gDp dpList := by
  unfold odWriteTarget at h
  dsimp only at h
  split at h
  · cases h
  split at h
  · cases h
  split at h
  · cases h
  next e he =>
  split at h
  · cases h
  split at h
  · cases h
  · cases h
    exact List.mem_of_getElem? he

/-- A number from raw bytes is what a slot with these bytes holds. -/
theorem jsonFromRaw_number {d : DpPoint} {buf : List UInt8} {x : Float}
    (h : jsonFromRaw d buf = .ok (.number x)) :
    buf.length = d.type.size ∧ dpSlotAsDouble d.type (write (fun _ => 0) 0 buf) 0 = some x ∧
      (d.type = .f32 ∨ ∃ lo hi, d.type.intRange = some (lo, hi)) := by
  unfold jsonFromRaw at h
  split at h
  · split at h <;> cases h
  split at h
  · cases h
  next hlen =>
  refine ⟨not_not.mp hlen, ?_⟩
  cases htype : d.type with
  | f32 =>
    rw [htype] at h
    cases h
    exact ⟨rfl, .inl rfl⟩
  | u8 | u16 | u32 | i8 | i16 | i32 | enum =>
    rw [htype] at h
    cases h
    exact ⟨rfl, .inr ⟨_, _, rfl⟩⟩
  | bool | u64 | str =>
    rw [htype] at h
    cases h

/-- Only the raw bytes of a `float` become a NaN. -/
theorem jsonFromRaw_isNaN {d : DpPoint} {buf : List UInt8} {x : Float}
    (h : jsonFromRaw d buf = .ok (.number x)) (hx : x.isNaN = true) :
    d.type = .f32 ∧ buf.length = 4 ∧ (floatOf buf).isNaN = true := by
  obtain ⟨hlen, hdouble, htype | ⟨lo, hi, hrange⟩⟩ := jsonFromRaw_number h
  · rw [htype] at hlen hdouble
    cases hdouble
    rw [isNaN_widen] at hx
    exact ⟨htype, hlen, hx⟩
  · obtain ⟨y, hy, hinteger⟩ := dpSlotAsDouble_integer hrange (write (fun _ => 0) 0 buf) 0
    cases hy.symm.trans hdouble
    cases hx.symm.trans hinteger.isNaN

/-- A `float` point is found under its own name. -/
theorem dpFind_float : ∀ d ∈ gDp dpList, d.type = .f32 → dpFind dpList d.name = some d := by
  decide +kernel

theorem networkSave_type : ∀ d ∈ gDp dpList, d.name = "Network_Save" → d.type = .u8 := by
  decide +kernel

/-- The raw write that restores the backup. -/
theorem networkSave_raw {d : DpDesc} {buf : List UInt8} {v : Json} (hd : d ∈ gDp dpList)
    (hv : jsonFromRaw d.toDpPoint buf = .ok v) (h : networkSave (.object [(d.name, v)]) = 3) :
    d.name = "Network_Save" ∧ buf = [3] := by
  by_cases hname : d.name = "Network_Save"
  swap
  · have hne : ("Network_Save" == d.name) = false := beq_false_of_ne (Ne.symm hname)
    have hnone : Protocol.Json.get? (.object [(d.name, v)]) "Network_Save" = none := by
      simp [Protocol.Json.get?, List.lookup, hne]
    rw [networkSave, hnone] at h
    cases h
  have hsome : Protocol.Json.get? (.object [(d.name, v)]) "Network_Save" = some v := by
    simp [Protocol.Json.get?, List.lookup, hname]
  have htype := networkSave_type d hd hname
  rw [networkSave, hsome] at h
  cases v with
  | number x =>
    obtain ⟨hlen, hdouble, -⟩ := jsonFromRaw_number hv
    rw [htype] at hlen hdouble
    obtain ⟨b, rfl⟩ := List.length_eq_one_iff.mp hlen
    cases hdouble
    refine ⟨hname, ?_⟩
    have hbyte : write (fun _ => 0) 0 [b] 0 = b := holds_write _ 0 [b] 0 (by simp)
    dsimp only at h
    rw [hbyte, toUInt8_toFloat] at h
    rw [h]
  | null | bool | string | array | object => cases h

theorem StoreWrite.step_bounds {op : StoreWrite} (hguard : op.Guard img) (h : BoundsHold img) :
    BoundsHold (op.step img) := by
  cases op with
  | json dp reboots => exact taskComApplyDpWrite_bounds hguard h
  | can index sub buf reboots =>
    rw [step, odWriteCb]
    split
    · exact h
    · next d hd =>
      split
      · exact h
      · next v hv =>
        have hmem := odWriteTarget_mem hd
        refine taskComApplyDpWrite_bounds (fun hok => ?_) h
        obtain ⟨hnan, hrestore⟩ := hguard d v hd hv hok
        refine ⟨?_, fun hsave => ?_⟩
        · intro item hitem e x he hb hx hxnan
          obtain rfl : item = (some d.name, v) := by simpa [Json.children] using hitem
          obtain rfl : v = .number x := hx
          obtain ⟨hf32, hlen, hbits⟩ := jsonFromRaw_isNaN hv hxnan
          cases (dpFind_float d hmem hf32).symm.trans he
          exact hnan hb hf32 hlen hbits
        · obtain ⟨hname, hbuf⟩ := networkSave_raw hmem hv hsave
          exact hrestore hname hbuf
  | load nvs => exact dpConfigLoad_bounds hguard h

/-- **The bounds hold as long as no write brings a NaN or a port 0 in.** In every run of
    writes from the network, from the CAN bus and from the flash whose accepted steps bring no
    NaN for a bounded point, and restore no backup with port 0, every bounded point is within
    its bounds. -/
theorem bounds_hold_without_nan (ops : List StoreWrite)
    (hguard : Machine.Guarded StoreWrite.step StoreWrite.Guard
      (dpSetDefaults dpList (fun _ => 0)) ops) :
    BoundsHold (storeRun ops) :=
  hguard.invariant StoreWrite.step (fun _ _ hg hs => StoreWrite.step_bounds hg hs) defaults_bounds

/-- A filter constant from the network, over CAN and from the flash. -/
theorem bounds_hold_without_nan_filter :
    let nvs : Nvs := fun key => if key = .point 116 then some (.blob [0, 0, 128, 62]) else none
    (odWriteCb true (storeRun []) 0x203F 0 [0, 0, 0, 63]).1 = 0 ∧
      BoundsHold (storeRun [.json (.object [("Fon_Filter_Alpha", .number 0.75)]) true,
        .can 0x203F 0 [0, 0, 0, 63] true, .load nvs]) := by
  intro nvs
  refine ⟨by decide +kernel, bounds_hold_without_nan _ ⟨fun _ => ⟨?_, ?_⟩, ?_, ?_, trivial⟩⟩
  · intro item hitem d x _ _ hx hnan
    obtain rfl : item = (some "Fon_Filter_Alpha", .number 0.75) := by
      simpa [Json.children] using hitem
    cases hx
    exact absurd hnan (by decide +kernel)
  · exact fun h => absurd h (by decide +kernel)
  · intro d v _ _ _
    refine ⟨fun _ _ _ hnan => absurd hnan (by decide +kernel), fun _ hbuf => ?_⟩
    cases hbuf
  · intro d _ _ _ bytes hkey _
    have hbytes : bytes = [0, 0, 128, 62] := by
      simp only [nvs] at hkey
      split at hkey
      · cases hkey
        rfl
      · cases hkey
    subst hbytes
    decide +kernel

/-- A NaN written over CAN to the filter constant is accepted and stays. -/
theorem bounds_lost_by_can_nan :
    (odWriteCb true (storeRun []) 0x203F 0 [0, 0, 0xC0, 0x7F]).1 = 0 ∧
      ¬ BoundsHold (storeRun [.can 0x203F 0 [0, 0, 0xC0, 0x7F] true]) := by
  refine ⟨by decide +kernel, ?_⟩
  unfold BoundsHold
  decide +kernel

-- A stored backup port 0 is restored over CAN.
example : (dpFind dpList "Network_Server_Port").any (fun d => d.bounded && !decide (d.InBounds
    (storeRun [.load (fun key => if key = .point 306 then some (.blob [0, 0]) else none),
      .can 0x205F 0 [3] true]))) = true := by
  decide +kernel

end Fountainer.Device
