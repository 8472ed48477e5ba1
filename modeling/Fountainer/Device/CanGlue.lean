import Fountainer.Device.CanTask
import Fountainer.Network.RoundTrip

/-!
# The CAN glue over any catalogue

`od_read_cb` and `od_write_cb` of `canopen_task.c`, with the catalogue, its cross-field rules and
the handler behind `Network_Save` as parameters. With the product's own they are the functions of
the task. What a master writes to a point is what it reads back.
-/

namespace Fountainer.Device

open Bytes CFloat
open Canopen Datapoints
open Network (DpAnswer batchOf networkSave networkConfigSaveHandle hexString nibbles)

/-- What the glue is compiled with. -/
structure CanGlue extends Catalogue where
  constraintsOk : Mem → Except String Unit
  saveHandle : Mem → UInt8 → Bool × Mem

namespace CanGlue

variable (g : CanGlue)

/-- The point of an index, where the objects of this kind start at `base`. -/
def pointAt (base : ℕ) (index : UInt16) : Option DpDesc :=
  if base ≤ index.toNat then (gDp g.rows)[index.toNat - base]? else none

/-- `od_read_cb`. -/
def odReadCb (img : Mem) (index : UInt16) (sub : UInt8) (cap : ℕ) : OdRead :=
  if index.toNat = coIdxDpCount then
    .single sub (.value cap (leU16 (UInt16.ofNat g.rows.length)))
  else
    match g.pointAt coIdxDpBase index, g.pointAt coIdxDescBase index with
    | some d, _ => .single sub (odReadDp img d cap)
    | none, some d => odReadDesc d.toDpPoint sub cap
    | none, none => .abort abortNoObject

/-- `task_com_apply_dp_write`. -/
def taskComApplyDpWrite (img : Mem) (dp : Json) : DpAnswer × Mem :=
  let r := dpWriteBatchWith g.rows g.constraintsOk img (batchOf dp)
  if !r.ok then ({ applied := false, error := none, errors := r.errors }, r.img)
  else if networkSave dp = 0 then ({ applied := true, error := none, errors := [] }, r.img)
  else
    let s := g.saveHandle r.img (networkSave dp)
    if s.1 then ({ applied := true, error := none, errors := [] }, s.2)
    else ({ applied := false, error := some "invalid_network_save", errors := [] }, s.2)

/-- The checks of `od_write_cb` on the address: the point that is written. -/
def odWriteTarget (index : UInt16) (sub : UInt8) : Except UInt32 DpDesc :=
  let i := index.toNat
  if i = coIdxDpCount ∨ (coIdxDescBase ≤ i ∧ i < coIdxDescBase + g.rows.length) then
    .error abortReadOnly
  else if i < coIdxDpBase then .error abortNoObject
  else
    match (gDp g.rows)[i - coIdxDpBase]? with
    | none => .error abortNoObject
    | some d =>
      if sub ≠ 0 then .error abortNoSubindex
      else if d.access = .ro then .error abortReadOnly
      else .ok d

/-- `od_write_cb`: the abort code, 0 for success, and the image. -/
def odWriteCb (img : Mem) (index : UInt16) (sub : UInt8) (buf : List UInt8) : UInt32 × Mem :=
  match g.odWriteTarget index sub with
  | .error code => (code, img)
  | .ok d =>
    match jsonFromRaw d.toDpPoint buf with
    | .error code => (code, img)
    | .ok v =>
      let r := g.taskComApplyDpWrite img (.object [(d.name, v)])
      (abortOf d.name r.1, r.2)

end CanGlue

/-- The catalogue of the product. -/
def productCatalogue : Catalogue := ⟨dpList, dpList_names⟩

/-- The glue of the product, for an answer of `system_reboot_deferred`. -/
def productGlue (reboots : Bool) : CanGlue :=
  ⟨productCatalogue, dpConstraintsOk, networkConfigSaveHandle reboots⟩

theorem productGlue_rows (reboots : Bool) : (productGlue reboots).rows = dpList := rfl

theorem productGlue_pointAt (reboots : Bool) (base : ℕ) (index : UInt16) :
    (productGlue reboots).pointAt base index = pointAt base index := by
  rw [CanGlue.pointAt, pointAt, productGlue_rows]

theorem productGlue_odReadCb (reboots : Bool) : (productGlue reboots).odReadCb = odReadCb := by
  funext img index sub cap
  cases hvalue : pointAt coIdxDpBase index <;> cases hdesc : pointAt coIdxDescBase index <;>
    simp only [CanGlue.odReadCb, odReadCb, productGlue_pointAt, productGlue_rows, hvalue, hdesc]

theorem productGlue_odWriteTarget (reboots : Bool) (index : UInt16) (sub : UInt8) :
    (productGlue reboots).odWriteTarget index sub = odWriteTarget index sub := by
  cases hrow : (gDp dpList)[index.toNat - coIdxDpBase]? <;>
    simp only [CanGlue.odWriteTarget, odWriteTarget, productGlue_rows, hrow]

theorem productGlue_taskComApplyDpWrite (reboots : Bool) (img : Mem) (dp : Json) :
    (productGlue reboots).taskComApplyDpWrite img dp =
      Network.taskComApplyDpWrite reboots img dp := by
  rw [CanGlue.taskComApplyDpWrite, Network.taskComApplyDpWrite, productGlue_rows, dpWriteBatch]
  rfl

theorem productGlue_odWriteCb (reboots : Bool) :
    (productGlue reboots).odWriteCb = odWriteCb reboots := by
  funext img index sub buf
  rw [CanGlue.odWriteCb, odWriteCb, productGlue_odWriteTarget]
  cases odWriteTarget index sub with
  | error code => rfl
  | ok d =>
    cases hjson : jsonFromRaw d.toDpPoint buf <;>
      simp only [productGlue_taskComApplyDpWrite, hjson]

-- ════════════════════════════════════════════════════════════════════════
-- Raw bytes and stored bytes
-- ════════════════════════════════════════════════════════════════════════

/-- What a point reads after a write of `buf`: a boolean is 0 or 1, and a string ends before its
    first zero. -/
def storedBytes (type : DpType) (buf : List UInt8) : List UInt8 :=
  match type with
  | .bool => [if buf.headD 0 ≠ 0 then 1 else 0]
  | .str => buf.takeWhile (· ≠ 0)
  | _ => buf

section Raw

variable {p : DpPoint} {buf bs : List UInt8} {v : Json}

theorem hexU64_bytes (h : buf.length = 8) :
    (hexU64 (write (fun _ => 0) 0 buf)).bytes =
      48 :: 120 :: (nibbles buf).map Hex.upperDigit := by
  match buf, h with
  | [b0, b1, b2, b3, b4, b5, b6, b7], _ => rfl

/-- The number of raw bytes is the one a slot with these bytes holds. -/
theorem rawValue_number {type : DpType} {m : Mem} {x : Float} (hbool : type ≠ .bool)
    (hx : dpSlotAsDouble type m 0 = some x) : rawValue type m = .ok (.number x) := by
  cases type with
  | bool => exact absurd rfl hbool
  | u64 | str => cases hx
  | u8 | u16 | u32 | i8 | i16 | i32 | f32 | enum =>
    cases hx
    rfl

/-- The raw bytes of a point that is no string fill its slot. -/
theorem jsonFromRaw_raw (hstr : p.type ≠ .str) (hv : jsonFromRaw p buf = .ok v) :
    buf.length = p.type.size ∧ rawValue p.type (write (fun _ => 0) 0 buf) = .ok v := by
  rw [jsonFromRaw, if_neg hstr] at hv
  split at hv
  · cases hv
  · next hlen => exact ⟨not_not.mp hlen, hv⟩

theorem stored_str (htype : p.type = .str) (hv : jsonFromRaw p buf = .ok v)
    (hbs : dpValueFromJson p v = .ok bs) : bs.takeWhile (· ≠ 0) = storedBytes .str buf := by
  rw [jsonFromRaw, if_pos htype] at hv
  split at hv
  · cases hv
  · cases hv
    simp only [dpValueFromJson, htype] at hbs
    split at hbs
    · cases hbs
    · cases hbs
      have hs : ∀ b ∈ buf.takeWhile (· ≠ 0), decide (b ≠ 0) = true := by
        intro b hb
        simpa using List.mem_takeWhile_imp hb
      rw [storedBytes, List.takeWhile_append_of_pos hs]
      cases dpStrMax - (buf.takeWhile (· ≠ 0)).length with
      | zero => simp
      | succ k => simp [List.replicate_succ]

theorem stored_bool (htype : p.type = .bool) (hv : jsonFromRaw p buf = .ok v)
    (hbs : dpValueFromJson p v = .ok bs) : bs = storedBytes .bool buf := by
  obtain ⟨hlen, hraw⟩ := jsonFromRaw_raw (by simp [htype]) hv
  rw [htype] at hlen hraw
  match buf, hlen with
  | [b], _ =>
    cases hraw
    simp only [dpValueFromJson, htype] at hbs
    cases hbs
    by_cases hb : b = 0 <;> simp [storedBytes, write, hb]

theorem stored_u64 (htype : p.type = .u64) (hv : jsonFromRaw p buf = .ok v)
    (hbs : dpValueFromJson p v = .ok bs) : bs = buf := by
  obtain ⟨hlen, hraw⟩ := jsonFromRaw_raw (by simp [htype]) hv
  rw [htype] at hlen hraw
  cases hraw
  have hne : nibbles buf ≠ [] := by
    apply List.ne_nil_of_length_pos
    rw [Network.length_nibbles, hlen]
    decide
  have hfit : Numerals.number 16 0 (nibbles buf) < 2 ^ 64 := by
    calc Numerals.number 16 0 (nibbles buf) < 16 ^ (nibbles buf).length :=
          Numerals.number_lt_pow Network.nibbles_lt
      _ = 2 ^ 64 := by rw [Network.length_nibbles, hlen]; rfl
  simp only [dpValueFromJson, htype, hexU64_bytes hlen,
    Network.strtoull_prefixed Network.nibbles_lt hne hfit] at hbs
  rw [← Except.ok.inj hbs, Network.leU64_nibbles hlen]

theorem stored_number (hbool : p.type ≠ .bool) (hu64 : p.type ≠ .u64) (hstr : p.type ≠ .str)
    (hfloat : p.type = .f32 → (Float32.ofBits (coGetU32 buf)).isNaN = false)
    (hv : jsonFromRaw p buf = .ok v) (hbs : dpValueFromJson p v = .ok bs) : bs = buf := by
  obtain ⟨hlen, hraw⟩ := jsonFromRaw_raw hstr hv
  obtain ⟨x, hx⟩ := Network.dpSlotAsDouble_isSome hu64 hstr (write (fun _ => 0) 0 buf) 0
  have hnan : x.isNaN = false := by
    refine Network.isNaN_of_slot hx fun htype => ?_
    rw [htype] at hlen
    match buf, hlen with
    | [b0, b1, b2, b3], _ => exact hfloat htype
  rw [rawValue_number hbool hx] at hraw
  cases hraw
  obtain ⟨y, hy, -, hnum⟩ := dpValueFromJson_number hbool hu64 hstr hbs
  cases hy
  rw [Network.numberBytes_slot hx hbool hnan, ← hlen, read_write_self] at hnum
  exact (Except.ok.inj hnum).symm

end Raw

-- ════════════════════════════════════════════════════════════════════════
-- A write and the read behind it
-- ════════════════════════════════════════════════════════════════════════

/-- The points that `task_com_apply_dp_write` takes out of the batch. -/
def isCommand (name : String) : Prop := name = "Network_Save" ∨ name = "Log_Command"

theorem batchOf_single {name : String} {v : Json} (h : ¬ isCommand name) :
    batchOf (.object [(name, v)]) = .object [(name, v)] := by
  obtain ⟨hsave, hlog⟩ := not_or.mp h
  simp [batchOf, Network.deleteItemCaseSensitive, hsave, hlog]

theorem networkSave_single {name : String} {v : Json} (h : ¬ isCommand name) :
    networkSave (.object [(name, v)]) = 0 := by
  obtain ⟨hsave, -⟩ := not_or.mp h
  have hlookup : List.lookup "Network_Save" [(name, v)] = none := by
    rw [List.lookup_cons, beq_false_of_ne (Ne.symm hsave)]
    rfl
  simp only [networkSave, Protocol.Json.get?, hlookup]

theorem abortFromDpError_ne_zero (code : Option String) : abortFromDpError code ≠ 0 := by
  unfold abortFromDpError
  split <;> decide

/-- Only an applied write is answered with 0. -/
theorem abortOf_eq_zero {name : String} {answer : DpAnswer} (h : abortOf name answer = 0) :
    answer.applied = true := by
  rw [abortOf] at h
  split at h
  · next happlied => exact happlied
  · exact absurd h (abortFromDpError_ne_zero _)

namespace CanGlue

variable {g : CanGlue} {img : Mem} {index : UInt16} {sub : UInt8} {buf : List UInt8} {d : DpDesc}

/-- The target of a write is the point that a read of the object finds. -/
theorem odWriteTarget_ok (h : g.odWriteTarget index sub = .ok d) :
    index.toNat ≠ coIdxDpCount ∧ g.pointAt coIdxDpBase index = some d ∧ sub = 0 ∧
      d ∈ gDp g.rows ∧ d.access ≠ .ro := by
  simp only [odWriteTarget] at h
  split at h
  · cases h
  next haddr =>
  split at h
  · cases h
  next hbase =>
  split at h
  · cases h
  next e he =>
  split at h
  · cases h
  next hsub =>
  split at h
  · cases h
  next hro =>
  cases h
  rw [pointAt, if_pos (not_lt.mp hbase)]
  exact ⟨fun hcount => haddr (Or.inl hcount), he, not_not.mp hsub, List.mem_of_getElem? he, hro⟩

theorem odWriteTarget_error {code : UInt32} (h : g.odWriteTarget index sub = .error code) :
    code ≠ 0 := by
  simp only [odWriteTarget] at h
  split at h
  · cases h
    decide
  split at h
  · cases h
    decide
  split at h
  · cases h
    decide
  split at h
  · cases h
    decide
  split at h
  · cases h
    decide
  · cases h

theorem jsonFromRaw_error {p : DpPoint} {code : UInt32} (h : jsonFromRaw p buf = .error code) :
    code ≠ 0 := by
  rw [jsonFromRaw] at h
  split at h
  · split at h
    · cases h
      decide
    · cases h
  split at h
  · cases h
    split <;> decide
  · next hstr _ =>
    cases htype : p.type with
    | str => exact absurd htype hstr
    | bool | u8 | u16 | u32 | u64 | i8 | i16 | i32 | f32 | enum =>
      rw [htype] at h
      cases h

/-- A single value that is no command is written by a batch of one item. -/
theorem taskComApplyDpWrite_stored {v : Json} (hd : d ∈ gDp g.rows) (hcmd : ¬ isCommand d.name)
    (happlied : (g.taskComApplyDpWrite img (.object [(d.name, v)])).1.applied = true) :
    ∃ bs, dpValueFromJson d.toDpPoint v = .ok bs ∧ d.access = .rw ∧
      Holds (g.taskComApplyDpWrite img (.object [(d.name, v)])).2 d.off bs := by
  rw [taskComApplyDpWrite, batchOf_single hcmd, networkSave_single hcmd] at happlied ⊢
  rcases dpWriteBatchWith_cases g.rows g.constraintsOk img (.object [(d.name, v)]) with
    ⟨hrejected, -⟩ | ⟨hok, herr, himg, -⟩
  · simp [hrejected] at happlied
  · simp only [hok, himg, Bool.not_true, Bool.false_eq_true, if_false, if_true]
    obtain ⟨e, bs, he, hbs, hholds⟩ :=
      @validate_last g.rows img (some d.name, v) [] [] (by simp) herr
    obtain ⟨tmp', happly, -⟩ := validate_cons herr
    obtain ⟨e', -, he', hrw, -, -⟩ := applyItem_ok happly
    cases (Catalogue.dpFind_of_mem hd).symm.trans he
    cases he.symm.trans he'
    exact ⟨bs, hbs, hrw, hholds⟩

/-- A write that is answered with 0 has stored the bytes of its value. -/
theorem odWriteCb_stored (hok : (g.odWriteCb img index sub buf).1 = 0) :
    ∃ d v, g.odWriteTarget index sub = .ok d ∧ jsonFromRaw d.toDpPoint buf = .ok v ∧
      (¬ isCommand d.name → ∃ bs, dpValueFromJson d.toDpPoint v = .ok bs ∧ d.access = .rw ∧
        Holds (g.odWriteCb img index sub buf).2 d.off bs) := by
  unfold odWriteCb at hok ⊢
  cases htarget : g.odWriteTarget index sub with
  | error code =>
    rw [htarget] at hok
    exact absurd hok (odWriteTarget_error htarget)
  | ok d =>
    simp only [htarget] at hok ⊢
    cases hjson : jsonFromRaw d.toDpPoint buf with
    | error code =>
      rw [hjson] at hok
      exact absurd hok (jsonFromRaw_error hjson)
    | ok v =>
      simp only [hjson] at hok
      obtain ⟨-, -, -, hd, -⟩ := odWriteTarget_ok htarget
      exact ⟨d, v, rfl, hjson, fun hcmd =>
        taskComApplyDpWrite_stored hd hcmd (abortOf_eq_zero hok)⟩

/-- The value that a point holds in its slot, as a read answers it. -/
theorem odReadDp_holds {bs : List UInt8} {cap : ℕ} (hwo : d.access ≠ .wo)
    (hsecret : dpIsSecret d.toDpPoint = false) (hlen : bs.length = d.type.size)
    (hholds : Holds img d.off bs) :
    odReadDp img d cap = .value cap (if d.type = .str then bs.takeWhile (· ≠ 0) else bs) := by
  have hsize : ¬ dpStrMax < d.size := by
    rw [DpDesc.size]
    cases d.type <;> decide
  have hraw : read img d.off d.size = bs := by
    rw [DpDesc.size, ← hlen]
    exact read_eq_of_holds hholds
  rw [odReadDp, if_neg (by simp [hwo, hsecret]), if_neg hsize]
  simp only [hraw]

/-- A write to a point that is neither a secret nor a command, answered with 0, is read back: a
    boolean as 0 or 1, a string up to its first zero, and a number, NaN apart, as it was sent. -/
theorem odWriteCb_readBack (g : CanGlue) (img : Mem) (index : UInt16) (sub : UInt8)
    (buf : List UInt8) (d : DpDesc) (hd : g.pointAt coIdxDpBase index = some d)
    (hsecret : dpIsSecret d.toDpPoint = false) (hcmd : ¬ isCommand d.name)
    (hfloat : d.type = .f32 → (Float32.ofBits (coGetU32 buf)).isNaN = false)
    (hok : (g.odWriteCb img index sub buf).1 = 0) (cap : ℕ) :
    g.odReadCb (g.odWriteCb img index sub buf).2 index sub cap =
      .value cap (storedBytes d.type buf) := by
  obtain ⟨e, v, htarget, hjson, hstored⟩ := odWriteCb_stored hok
  obtain ⟨hcount, hpoint, rfl, -, -⟩ := odWriteTarget_ok htarget
  cases hd.symm.trans hpoint
  obtain ⟨bs, hbs, hrw, hholds⟩ := hstored hcmd
  have hread := @odReadDp_holds (g.odWriteCb img index 0 buf).2 d bs cap (by simp [hrw]) hsecret
    (dpValueFromJson_length hbs) hholds
  have hbytes : (if d.type = .str then bs.takeWhile (· ≠ 0) else bs) = storedBytes d.type buf := by
    by_cases hstr : d.type = .str
    · rw [if_pos hstr, stored_str hstr hjson hbs, hstr]
    rw [if_neg hstr]
    by_cases hbool : d.type = .bool
    · rw [stored_bool hbool hjson hbs, hbool]
    have hplain : storedBytes d.type buf = buf := by
      unfold storedBytes
      split
      · next htype => exact absurd htype hbool
      · next htype => exact absurd htype hstr
      · rfl
    rw [hplain]
    by_cases hu64 : d.type = .u64
    · exact stored_u64 hu64 hjson hbs
    · exact stored_number hbool hu64 hstr hfloat hjson hbs
  rw [odReadCb, if_neg hcount, hpoint]
  simp only [hread, hbytes]
  rfl

end CanGlue

/-- A catalogue of one 64-bit point. -/
def exampleGlue : CanGlue where
  rows := [dp "Total" .u64 .rw .nvs 9 (.int 0) none none 0.0]
  names := List.nodup_singleton _
  constraintsOk _ := .ok ()
  saveHandle img _ := (true, img)

theorem odWriteCb_readBack_total :
    (exampleGlue.odWriteCb (fun _ => 0) 0x2000 0 [1, 2, 3, 4, 5, 6, 7, 0xF8]).1 = 0 ∧
      exampleGlue.odReadCb
          (exampleGlue.odWriteCb (fun _ => 0) 0x2000 0 [1, 2, 3, 4, 5, 6, 7, 0xF8]).2 0x2000 0 128 =
        .value 128 [1, 2, 3, 4, 5, 6, 7, 0xF8] :=
  ⟨by decide +kernel, CanGlue.odWriteCb_readBack exampleGlue (fun _ => 0) 0x2000 0 _
    { dp "Total" .u64 .rw .nvs 9 (.int 0) none none 0.0 with off := 0 } (by rfl) (by decide)
    (by unfold isCommand; decide) (fun h => nomatch h) (by decide +kernel) 128⟩

end Fountainer.Device
