import Fountainer.Device.CanGlue

/-!
# The access descriptors

A master learns from the descriptor object of a point whether it may read and write the value
object. The descriptor, the read, the write and the batch behind the write each combine the access
column with the list of secrets in a way of their own, and here it is worked out where they agree.
-/

namespace Fountainer.Device

open Bytes CFloat
open Canopen Datapoints
open Network (DpAnswer batchOf networkSave)

-- ════════════════════════════════════════════════════════════════════════
-- What a write is answered
-- ════════════════════════════════════════════════════════════════════════

section Batch

variable {rows : List DpPoint} {constraintsOk : Mem → Except String Unit} {img : Mem}

/-- A batch whose items are all valid fails by a cross-field rule only. -/
theorem dpWriteBatchWith_valid {dpIn : Json} (h : (validate rows img dpIn.children).2 = []) :
    (dpWriteBatchWith rows constraintsOk img dpIn).ok = true ∨
      ∃ bad, dpWriteBatchWith rows constraintsOk img dpIn =
        { ok := false, errors := [(bad, .constraintViolation)], img } := by
  rw [dpWriteBatchWith]
  simp only [h, ne_eq, not_true, if_false]
  split
  · next bad _ => exact Or.inr ⟨bad, rfl⟩
  · exact Or.inl rfl

theorem dpWriteBatchWith_invalid {dpIn : Json} {errors : List (String × DpError)}
    (h : (validate rows img dpIn.children).2 = errors) (hne : errors ≠ []) :
    dpWriteBatchWith rows constraintsOk img dpIn = { ok := false, errors, img } := by
  rw [dpWriteBatchWith]
  simp only [h, if_pos hne]

end Batch

/-- The abort code for a single error. -/
theorem abortOf_error (name key : String) (err : DpError) :
    abortOf name { applied := false, error := none, errors := [(key, err)] } =
      abortFromDpError (some err.text) := by
  rw [abortOf, List.lookup_cons]
  cases name == key <;> rfl

namespace CanGlue

variable {g : CanGlue} {img : Mem} {index : UInt16} {sub : UInt8} {buf bs : List UInt8}
  {d : DpDesc} {v : Json}

/-- A batch of valid items is never refused as read-only. -/
theorem abortOf_valid {name : String} {dp : Json}
    (h : (validate g.rows img (batchOf dp).children).2 = []) :
    abortOf name (g.taskComApplyDpWrite img dp).1 ≠ abortReadOnly := by
  rw [taskComApplyDpWrite]
  rcases @dpWriteBatchWith_valid g.rows g.constraintsOk img _ h with hok | ⟨bad, hbad⟩
  · simp only [hok, Bool.not_true, Bool.false_eq_true, if_false]
    split
    · exact (by decide : (0 : UInt32) ≠ abortReadOnly)
    split
    · exact (by decide : (0 : UInt32) ≠ abortReadOnly)
    · exact (by decide : abortValueRange ≠ abortReadOnly)
  · simp only [hbad, Bool.not_false, if_true]
    rw [abortOf_error]
    decide

/-- The single item of a write is checked under its own name. -/
theorem validate_single (hd : d ∈ gDp g.rows) (hbs : dpValueFromJson d.toDpPoint v = .ok bs) :
    (validate g.rows img [(some d.name, v)]).2 =
      if d.access = .rw then [] else [(d.name, .readOnly)] := by
  have hfind : dpFind g.rows (itemName (some d.name, v)) = some d := Catalogue.dpFind_of_mem hd
  rw [validate, applyItem, hfind]
  by_cases hrw : d.access = .rw
  · simp only [hrw, ne_eq, not_true, if_false, hbs, if_true]
    rfl
  · simp only [hrw, ne_eq, not_false_eq_true, if_true, if_false]
    rfl

theorem batchOf_command {name : String} (h : isCommand name) :
    (batchOf (.object [(name, v)])).children = [] := by
  rcases h with rfl | rfl <;> rfl

/-- A value that the codec takes is refused as read-only for the points that the batch does not
    write and that are no commands. -/
theorem applied_readOnly_iff (hd : d ∈ gDp g.rows) (hbs : dpValueFromJson d.toDpPoint v = .ok bs) :
    abortOf d.name (g.taskComApplyDpWrite img (.object [(d.name, v)])).1 = abortReadOnly ↔
      d.access ≠ .rw ∧ ¬ isCommand d.name := by
  by_cases hcmd : isCommand d.name
  · have hvalid : (validate g.rows img (batchOf (.object [(d.name, v)])).children).2 = [] := by
      rw [batchOf_command hcmd]
      rfl
    simp only [abortOf_valid hvalid, hcmd, not_true, and_false]
  · have hitem := @validate_single g img bs d v hd hbs
    by_cases hrw : d.access = .rw
    · have hvalid : (validate g.rows img (batchOf (.object [(d.name, v)])).children).2 = [] := by
        rw [batchOf_single hcmd]
        exact hitem.trans (if_pos hrw)
      simp only [abortOf_valid hvalid, hrw, ne_eq, not_true, false_and]
    · have herr := hitem.trans (if_neg hrw)
      rw [taskComApplyDpWrite, batchOf_single hcmd,
        dpWriteBatchWith_invalid herr (List.cons_ne_nil _ _)]
      simp only [Bool.not_false, if_true, abortOf_error, hrw, hcmd, ne_eq, not_false_eq_true,
        and_self, iff_true]
      rfl

-- ════════════════════════════════════════════════════════════════════════
-- The objects of a point
-- ════════════════════════════════════════════════════════════════════════

/-- The value object of the point `i`. -/
def valueIndex (i : ℕ) : UInt16 := UInt16.ofNat (coIdxDpBase + i)

/-- The descriptor object of the point `i`. -/
def descIndex (i : ℕ) : UInt16 := UInt16.ofNat (coIdxDescBase + i)

/-- The access code that the descriptor object serves, if it does. -/
def accessServed (g : CanGlue) (img : Mem) (i : ℕ) : Option UInt8 :=
  let r := g.odReadCb img (descIndex i) 3 coSdoBufSize
  if r.code = 0 then r.bytes.head? else none

/-- The access code of a point. -/
def accessOf (d : DpPoint) : UInt8 := if dpIsSecret d then accessCode .wo else accessCode d.access

section Objects

variable {i : ℕ}

theorem valueIndex_toNat (h : coIdxDescBase + i < 65536) :
    (valueIndex i).toNat = coIdxDpBase + i := by
  rw [valueIndex, UInt16.toNat_ofNat', Nat.mod_eq_of_lt]
  simp only [coIdxDescBase, coIdxDpBase] at h ⊢
  omega

theorem descIndex_toNat (h : coIdxDescBase + i < 65536) :
    (descIndex i).toNat = coIdxDescBase + i := by
  rw [descIndex, UInt16.toNat_ofNat', Nat.mod_eq_of_lt h]

theorem pointAt_eq {base : ℕ} (h : index.toNat = base + i) :
    g.pointAt base index = (gDp g.rows)[i]? := by
  rw [pointAt, if_pos (by omega)]
  congr 1
  omega

theorem gDp_length (rows : List DpPoint) : (gDp rows).length = rows.length := by
  have hrows := congrArg List.length (layout_toDpPoint 0 rows)
  rwa [List.length_map] at hrows

/-- A descriptor is served unless the values of a long catalogue reach its index. -/
theorem accessServed_eq (h : coIdxDescBase + i < 65536) (hd : (gDp g.rows)[i]? = some d) :
    g.accessServed img i =
      if g.rows.length ≤ i + 0x1000 then some (accessOf d.toDpPoint) else none := by
  have hnat := descIndex_toNat h
  have hcount : (descIndex i).toNat ≠ coIdxDpCount := by
    rw [hnat, coIdxDescBase, coIdxDpCount]
    omega
  have hvalue : g.pointAt coIdxDpBase (descIndex i) = (gDp g.rows)[i + 0x1000]? := by
    apply pointAt_eq
    rw [hnat, coIdxDescBase, coIdxDpBase]
    omega
  rw [accessServed, odReadCb, if_neg hcount, hvalue, pointAt_eq hnat, hd]
  by_cases hlong : g.rows.length ≤ i + 0x1000
  · rw [if_pos hlong, List.getElem?_eq_none ((gDp_length g.rows).le.trans hlong)]
    rfl
  · rw [if_neg hlong, List.getElem?_eq_getElem
      (lt_of_lt_of_eq (not_le.mp hlong) (gDp_length g.rows).symm)]
    rfl

/-- The read of a value object is refused as write-only, the count of the points apart. -/
theorem odReadCb_writeOnly_iff (h : coIdxDescBase + i < 65536) (hd : (gDp g.rows)[i]? = some d)
    (cap : ℕ) :
    (g.odReadCb img (valueIndex i) 0 cap).code = abortWriteOnly ↔
      i ≠ 0xFFF ∧ (d.access = .wo ∨ dpIsSecret d.toDpPoint = true) := by
  have hnat := valueIndex_toNat h
  have hvalue : ∀ bytes, (OdRead.value cap bytes).code ≠ abortWriteOnly := by
    intro bytes
    rw [OdRead.value]
    split
    · exact (by decide : abortOutOfMemory ≠ abortWriteOnly)
    · exact (by decide : (0 : UInt32) ≠ abortWriteOnly)
  rw [odReadCb]
  by_cases hcount : (valueIndex i).toNat = coIdxDpCount
  · have hi : i = 0xFFF := by
      rw [hnat, coIdxDpBase, coIdxDpCount] at hcount
      omega
    rw [if_pos hcount]
    simp only [hi, ne_eq, not_true, false_and, iff_false]
    exact hvalue _
  · have hi : i ≠ 0xFFF := by
      rintro rfl
      exact hcount hnat
    rw [if_neg hcount, pointAt_eq hnat, hd]
    simp only [hi, ne_eq, not_false_eq_true, true_and]
    show (odReadDp img d cap).code = abortWriteOnly ↔ _
    rw [odReadDp]
    split
    · next hsecret => exact ⟨fun _ => hsecret, fun _ => rfl⟩
    · next hsecret =>
      simp only [hsecret, iff_false]
      split
      · exact (by decide : abortGeneral ≠ abortWriteOnly)
      · exact hvalue _

/-- The write of a value that the codec takes is refused as read-only. -/
theorem odWriteCb_readOnly_iff (h : coIdxDescBase + i < 65536) (hd : (gDp g.rows)[i]? = some d)
    (hv : jsonFromRaw d.toDpPoint buf = .ok v) (hbs : dpValueFromJson d.toDpPoint v = .ok bs) :
    (g.odWriteCb img (valueIndex i) 0 buf).1 = abortReadOnly ↔
      0xFFF ≤ i ∨ d.access = .ro ∨ d.access = .wo ∧ ¬ isCommand d.name := by
  have hnat := valueIndex_toNat h
  have hlt : i < g.rows.length := by
    rw [← gDp_length]
    exact (List.getElem?_eq_some_iff.mp hd).1
  rw [odWriteCb, odWriteTarget, hnat]
  by_cases hi : 0xFFF ≤ i
  · have haddr : coIdxDpBase + i = coIdxDpCount ∨
        coIdxDescBase ≤ coIdxDpBase + i ∧ coIdxDpBase + i < coIdxDescBase + g.rows.length := by
      simp only [coIdxDpBase, coIdxDpCount, coIdxDescBase]
      omega
    simp only [haddr, if_true, hi, true_or]
  · have haddr : ¬ (coIdxDpBase + i = coIdxDpCount ∨
        coIdxDescBase ≤ coIdxDpBase + i ∧ coIdxDpBase + i < coIdxDescBase + g.rows.length) := by
      simp only [coIdxDpBase, coIdxDpCount, coIdxDescBase]
      omega
    simp only [haddr, hi, if_false, false_or, Nat.not_lt.mpr (Nat.le_add_right _ _),
      Nat.add_sub_cancel_left, hd, ne_eq, not_true]
    by_cases hro : d.access = .ro
    · simp only [hro, if_true, true_or]
    · simp only [hro, if_false, hv, false_or, applied_readOnly_iff (List.mem_of_getElem? hd) hbs]
      cases haccess : d.access with
      | ro => exact absurd haccess hro
      | rw => simp
      | wo => simp

/-- The descriptor of the point `i` agrees with what its value object does: a read is refused as
    write-only exactly if the code is WO, and the write as read-only exactly if it is RO. -/
structure DescriptorAgrees (g : CanGlue) (img : Mem) (i cap : ℕ) (buf : List UInt8) : Prop where
  read : (g.odReadCb img (valueIndex i) 0 cap).code = abortWriteOnly ↔
    g.accessServed img i = some (accessCode .wo)
  write : (g.odWriteCb img (valueIndex i) 0 buf).1 = abortReadOnly ↔
    g.accessServed img i = some (accessCode .ro)

/-- Where the glue tells the truth about a point. Within the first 0xFFF points of a catalogue of
    at most 0x1000 these are all but the read-only secrets and the write-only points that are no
    commands. Behind, the objects of values, count and descriptors overlap. -/
def AccessTold (g : CanGlue) (i : ℕ) (d : DpPoint) : Prop :=
  if i < 0xFFF then
    if g.rows.length ≤ i + 0x1000 then
      ¬ (dpIsSecret d = true ∧ d.access = .ro) ∧ ¬ (d.access = .wo ∧ ¬ isCommand d.name)
    else d.access = .rw ∧ dpIsSecret d = false
  else g.rows.length ≤ i + 0x1000 ∧ d.access = .ro ∧ dpIsSecret d = false

/-- The access code of a descriptor is true, for a well-formed value in range, exactly for the
    points that `AccessTold` describes. -/
theorem descriptorAgrees_iff (g : CanGlue) (img : Mem) (i cap : ℕ) (d : DpDesc) (buf : List UInt8)
    (v : Json) (bs : List UInt8) (h : coIdxDescBase + i < 65536) (hd : (gDp g.rows)[i]? = some d)
    (hv : jsonFromRaw d.toDpPoint buf = .ok v) (hbs : dpValueFromJson d.toDpPoint v = .ok bs) :
    g.DescriptorAgrees img i cap buf ↔ g.AccessTold i d.toDpPoint := by
  have hagrees : g.DescriptorAgrees img i cap buf ↔ _ ∧ _ :=
    ⟨fun h => ⟨h.read, h.write⟩, fun h => ⟨h.1, h.2⟩⟩
  rw [hagrees, odReadCb_writeOnly_iff h hd, odWriteCb_readOnly_iff h hd hv hbs,
    accessServed_eq h hd, AccessTold, accessOf]
  by_cases hi : i < 0xFFF
  · have hcount : i ≠ 0xFFF := hi.ne
    have hlow : ¬ 0xFFF ≤ i := not_le.mpr hi
    simp only [hi, hcount, hlow, if_true, ne_eq, not_false_eq_true, true_and, false_or]
    by_cases hlen : g.rows.length ≤ i + 0x1000 <;> cases dpIsSecret d.toDpPoint <;>
      cases d.access <;> simp [hlen, accessCode]
  · have hhigh : 0xFFF ≤ i := not_lt.mp hi
    simp only [hi, hhigh, if_false, true_or, true_iff]
    by_cases hlen : g.rows.length ≤ i + 0x1000 <;> cases dpIsSecret d.toDpPoint <;>
      cases d.access <;> simp [hlen, accessCode]

end Objects

end CanGlue

/-- The point of the example catalogue. -/
def exampleTotal : DpDesc :=
  { dp "Total" .u64 .rw .nvs 9 (.int 0) none none 0.0 with off := 0 }

theorem descriptorAgrees_iff_total :
    (gDp exampleGlue.rows)[0]? = some exampleTotal ∧
      (exampleGlue.DescriptorAgrees (fun _ => 0) 0 64 [7, 0, 0, 0, 0, 0, 0, 0] ↔
        exampleGlue.AccessTold 0 exampleTotal.toDpPoint) :=
  ⟨by rfl, CanGlue.descriptorAgrees_iff exampleGlue (fun _ => 0) 0 64 exampleTotal
    [7, 0, 0, 0, 0, 0, 0, 0] (.string (hexU64 (write (fun _ => 0) 0 [7, 0, 0, 0, 0, 0, 0, 0])))
    [7, 0, 0, 0, 0, 0, 0, 0] (by decide) (by rfl) (by rfl) (by rfl)⟩

/-- The row of the backup password. -/
def backupPassword : DpDesc :=
  { dp "Backup_Password" .str .ro .nvs 308 (.int 0) none none 0.0 with off := 1088 }

/-- The backup password is told to be write-only, and the write of a well-formed value is refused
    as read-only. -/
theorem backupPassword_refused :
    (gDp dpList)[91]? = some backupPassword ∧
      (∃ v bs, jsonFromRaw backupPassword.toDpPoint [120] = .ok v ∧
        dpValueFromJson backupPassword.toDpPoint v = .ok bs) ∧
      (productGlue true).accessServed (fun _ => 0) 91 = some (accessCode .wo) ∧
      ((productGlue true).odWriteCb (fun _ => 0) (CanGlue.valueIndex 91) 0 [120]).1 =
        abortReadOnly ∧
      ¬ (productGlue true).DescriptorAgrees (fun _ => 0) 91 64 [120] := by
  have hcode : (productGlue true).accessServed (fun _ => 0) 91 = some (accessCode .wo) := by
    decide +kernel
  have hwrite : ((productGlue true).odWriteCb (fun _ => 0) (CanGlue.valueIndex 91) 0 [120]).1 =
      abortReadOnly := by
    decide +kernel
  refine ⟨by decide +kernel, ⟨_, _, by rfl, by rfl⟩, hcode, hwrite, fun hagrees => ?_⟩
  have hro := hagrees.write.mp hwrite
  rw [hcode] at hro
  exact absurd hro (by decide)

end Fountainer.Device
