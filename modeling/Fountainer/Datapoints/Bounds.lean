import Fountainer.Datapoints.Rules

/-!
# The bounds of the points

Every writer checks a number by rejecting what lies outside the bounds of its point. A NaN
lies outside of nothing. So a point that has passed a check is within its bounds exactly
when it does not hold a NaN, and only a `float` slot can hold one.
-/

namespace Fountainer.Datapoints

open Bytes CFloat

/-- `min ≤ x ≤ max`. A comparison with a NaN fails. -/
def DpPoint.within (d : DpPoint) (x : Float) : Bool :=
  d.min.all (fun mn => widen mn ≤ x) && d.max.all (fun mx => x ≤ widen mx)

/-- A numeric point that may be written and has a bound. -/
def DpPoint.bounded (d : DpPoint) : Bool :=
  d.access == .rw && d.type != .bool && d.type != .u64 && d.type != .str &&
    (d.min.isSome || d.max.isSome)

/-- The value in the slot of the point is within its bounds. -/
def DpDesc.InBounds (d : DpDesc) (m : Mem) : Prop :=
  (dpSlotAsDouble d.type m d.off).any d.within = true

instance (d : DpDesc) (m : Mem) : Decidable (d.InBounds m) := inferInstanceAs (Decidable (_ = true))

/-- Every bounded point is within its bounds. -/
def BoundsHold (m : Mem) : Prop := ∀ d ∈ gDp dpList, d.bounded = true → d.InBounds m

/-- The slot holds a NaN. -/
def DpDesc.HoldsNaN (d : DpDesc) (m : Mem) : Prop :=
  d.type = .f32 ∧ (Float32.ofBits (rdU32 m d.off)).isNaN = true

-- ════════════════════════════════════════════════════════════════════════
-- The bounds of the catalogue
-- ════════════════════════════════════════════════════════════════════════

/-- The bound is an integer of the type, or a number for a `float` point. -/
def DpType.takesBound (type : DpType) (b : Float32) : Bool :=
  match type.intRange with
  | some (lo, hi) =>
    let n := (widen b).toModel.unpack.toInt lo hi
    decide (lo ≤ n ∧ n ≤ hi ∧ n.natAbs < 2 ^ 53) && decide (widen b = Float.ofInt n)
  | none => type == .f32 && !(widen b).isNaN

theorem gDp_takesBound : ∀ d ∈ gDp dpList, d.bounded = true →
    ∀ b ∈ d.min.toList ++ d.max.toList, d.type.takesBound b = true := by
  decide +kernel

section Point

variable {d : DpPoint} {x : Float}

theorem DpPoint.within_iff : d.within x = true ↔
    (∀ mn ∈ d.min, widen mn ≤ x) ∧ ∀ mx ∈ d.max, x ≤ widen mx := by
  rw [within]
  cases d.min <;> cases d.max <;> simp

theorem IsInteger.isNaN {lo hi : ℤ} (h : IsInteger lo hi x) : x.isNaN = false := by
  obtain ⟨n, -, -, hn⟩ := h
  by_contra hnan
  rw [Bool.not_eq_false, isNaN_iff, hn] at hnan
  cases hnan

theorem DpType.isInteger_of_takesBound {type : DpType} {lo hi : ℤ} {b : Float32}
    (htype : type.intRange = some (lo, hi)) (h : type.takesBound b = true) :
    IsInteger lo hi (widen b) := by
  simp only [takesBound, htype, Bool.and_eq_true, decide_eq_true_eq] at h
  obtain ⟨⟨hlo, hhi, hsmall⟩, heq⟩ := h
  exact ⟨_, hlo, hhi, (congrArg value heq).trans (value_ofInt hsmall)⟩

/-- A bound is a number. -/
theorem DpType.isNaN_of_takesBound {type : DpType} {b : Float32} (h : type.takesBound b = true) :
    (widen b).isNaN = false := by
  cases htype : type.intRange with
  | some range => exact (isInteger_of_takesBound htype h).isNaN
  | none =>
    simp only [takesBound, htype, Bool.and_eq_true, Bool.not_eq_true'] at h
    exact h.2

/-- A number is within the bounds when no check rejects it. -/
theorem DpPoint.within_iff_inRange
    (hbounds : ∀ b ∈ d.min.toList ++ d.max.toList, (widen b).isNaN = false)
    (hsome : d.min.isSome = true ∨ d.max.isSome = true) :
    d.within x = true ↔ d.inRange x = true ∧ x.isNaN = false := by
  have hmin : ∀ mn ∈ d.min, (widen mn).isNaN = false := fun mn hmn => hbounds mn (by simp_all)
  have hmax : ∀ mx ∈ d.max, (widen mx).isNaN = false := fun mx hmx => hbounds mx (by simp_all)
  rw [within_iff, inRange_iff]
  constructor
  · rintro ⟨hlow, hhigh⟩
    have hx : x.isNaN = false := by
      rcases hsome with hsome | hsome
      · obtain ⟨mn, hmn⟩ := Option.isSome_iff_exists.mp hsome
        exact (isNaN_of_le (hlow mn hmn)).2
      · obtain ⟨mx, hmx⟩ := Option.isSome_iff_exists.mp hsome
        exact (isNaN_of_le (hhigh mx hmx)).1
    refine ⟨⟨fun mn hmn => ?_, fun mx hmx => ?_⟩, hx⟩
    · exact (le_iff_not_lt (hmin mn hmn) hx).mp (hlow mn hmn)
    · exact (le_iff_not_lt hx (hmax mx hmx)).mp (hhigh mx hmx)
  · rintro ⟨⟨hlow, hhigh⟩, hx⟩
    refine ⟨fun mn hmn => ?_, fun mx hmx => ?_⟩
    · exact (le_iff_not_lt (hmin mn hmn) hx).mpr (hlow mn hmn)
    · exact (le_iff_not_lt hx (hmax mx hmx)).mpr (hhigh mx hmx)

end Point

/-- Only a `float` slot can hold a NaN. -/
theorem isNaN_dpSlotAsDouble {type : DpType} {m : Mem} {off : ℕ} {x : Float}
    (hx : dpSlotAsDouble type m off = some x) :
    x.isNaN = true ↔ type = .f32 ∧ (Float32.ofBits (rdU32 m off)).isNaN = true := by
  have hinteger : ∀ {type' : DpType} {range : ℤ × ℤ}, type'.intRange = some range →
      dpSlotAsDouble type' m off = some x → x.isNaN = false := by
    intro type' range hrange hx
    obtain ⟨y, hy, hint⟩ := dpSlotAsDouble_integer hrange m off
    cases hx.symm.trans hy
    exact hint.isNaN
  cases type with
  | f32 =>
    cases hx
    exact (Bool.eq_iff_iff.mp (isNaN_widen _)).trans (and_iff_right rfl).symm
  | u64 | str => cases hx
  | bool =>
    exact iff_of_false (ne_true_of_eq_false (@hinteger .u8 _ rfl hx)) fun h => nomatch h.1
  | u8 | u16 | u32 | i8 | i16 | i32 | enum =>
    exact iff_of_false (ne_true_of_eq_false (hinteger rfl hx)) fun h => nomatch h.1

section Slot

variable {d : DpDesc} {m m' : Mem}

theorem DpPoint.bounded_cases {p : DpPoint} (h : p.bounded = true) :
    p.access = .rw ∧ (p.min.isSome = true ∨ p.max.isSome = true) ∧
      (p.type = .f32 ∨ ∃ lo hi, p.type.intRange = some (lo, hi)) := by
  simp only [bounded, Bool.and_eq_true, Bool.or_eq_true, beq_iff_eq, bne_iff_ne] at h
  obtain ⟨⟨⟨⟨haccess, hbool⟩, hu64⟩, hstr⟩, hsome⟩ := h
  refine ⟨haccess, hsome, ?_⟩
  cases htype : p.type with
  | f32 => exact .inl rfl
  | bool => exact absurd htype hbool
  | u64 => exact absurd htype hu64
  | str => exact absurd htype hstr
  | u8 | u16 | u32 | i8 | i16 | i32 | enum => exact .inr ⟨_, _, rfl⟩

/-- **A bounded point is within its bounds when its slot passes the range check and holds
    no NaN.** -/
theorem DpDesc.inBounds_iff (hd : d ∈ gDp dpList) (hb : d.bounded = true) :
    d.InBounds m ↔ slotInRange d.toDpPoint m d.off = true ∧ ¬ d.HoldsNaN m := by
  obtain ⟨-, hsome, htype⟩ := DpPoint.bounded_cases hb
  have hbounds : ∀ b ∈ d.min.toList ++ d.max.toList, (widen b).isNaN = false :=
    fun b hmem => DpType.isNaN_of_takesBound (gDp_takesBound d hd hb b hmem)
  rw [InBounds, slotInRange, HoldsNaN]
  rcases htype with htype | ⟨lo, hi, htype⟩
  · have hdouble : dpSlotAsDouble d.type m d.off =
      some (widen (Float32.ofBits (rdU32 m d.off))) := by
      rw [htype]
      rfl
    rw [hdouble, Option.any_some, DpPoint.within_iff_inRange hbounds hsome, isNaN_widen]
    simp [htype]
  · obtain ⟨x, hx, hint⟩ := dpSlotAsDouble_integer htype m d.off
    have hne : d.type ≠ .f32 := by
      intro hf32
      rw [hf32] at htype
      cases htype
    rw [hx, Option.any_some, DpPoint.within_iff_inRange hbounds hsome, hint.isNaN]
    simp [hne]

/-- Whether a slot holds a NaN depends on its bytes only. -/
theorem DpDesc.holdsNaN_congr (h : d.slot m = d.slot m') : d.HoldsNaN m ↔ d.HoldsNaN m' := by
  rw [HoldsNaN, HoldsNaN]
  refine and_congr_right fun htype => ?_
  rw [slot, slot, size, htype] at h
  rw [rdU32_congr h]

theorem DpDesc.slotInRange_congr (h : d.slot m = d.slot m') :
    slotInRange d.toDpPoint m d.off = slotInRange d.toDpPoint m' d.off :=
  Datapoints.slotInRange_congr h

theorem DpDesc.inBounds_congr (h : d.slot m = d.slot m') (hm : d.InBounds m) : d.InBounds m' := by
  rw [InBounds, ← dpSlotAsDouble_congr h]
  exact hm

end Slot

-- ════════════════════════════════════════════════════════════════════════
-- One slot written
-- ════════════════════════════════════════════════════════════════════════

/-- A property of every slot is kept by a write of one slot that gives it the property. -/
theorem forall_bounded_write {Q : DpDesc → Mem → Prop} {e : DpDesc} {m : Mem} {bs : List UInt8}
    (hQ : ∀ d m m', d.slot m = d.slot m' → Q d m → Q d m') (he : e ∈ gDp dpList)
    (hlen : bs.length = e.size) (h : ∀ d ∈ gDp dpList, d.bounded = true → Q d m)
    (hself : e.bounded = true → Q e (write m e.off bs)) :
    ∀ d ∈ gDp dpList, d.bounded = true → Q d (write m e.off bs) := by
  intro d hd hb
  by_cases hde : d = e
  · subst hde
    exact hself hb
  · refine hQ d m _ ?_ (h d hd hb)
    have hdisj := gDp_disjoint hd he hde
    exact (DpDesc.slot_write (by omega)).symm

/-- The slot has passed a range check, and a NaN in it is that of a pressure threshold. -/
structure DpDesc.Checked (d : DpDesc) (m : Mem) : Prop where
  range : slotInRange d.toDpPoint m d.off = true
  nan : d.HoldsNaN m → d ∈ RuleGroup.pressure.points

theorem DpDesc.checked_congr {d : DpDesc} {m m' : Mem} (h : d.slot m = d.slot m')
    (hm : d.Checked m) : d.Checked m' :=
  ⟨by rw [← slotInRange_congr h]; exact hm.range, fun hnan => hm.nan ((holdsNaN_congr h).mpr hnan)⟩

/-- No NaN of the batch is meant for a bounded point, the pressure thresholds apart. -/
def NaNForThresholds (items : List (Option String × Json)) : Prop :=
  ∀ item ∈ items, ∀ d x, dpFind dpList (itemName item) = some d → d.bounded = true →
    item.2 = .number x → x.isNaN = true → d ∈ RuleGroup.pressure.points

/-- What a write of a number leaves in a bounded slot. -/
theorem dpValueFromJson_checked {d : DpDesc} {v : Json} {bs : List UInt8} {m : Mem}
    (hd : d ∈ gDp dpList) (hb : d.bounded = true)
    (hnan : ∀ x, v = .number x → x.isNaN = true → d ∈ RuleGroup.pressure.points)
    (h : dpValueFromJson d.toDpPoint v = .ok bs) (hslot : Holds m d.off bs) : d.Checked m := by
  obtain ⟨-, -, htype⟩ := DpPoint.bounded_cases hb
  rcases htype with htype | ⟨lo, hi, htype⟩
  · obtain ⟨num, rfl, hrange, hdouble⟩ := dpValueFromJson_float htype h hslot
    have hwiden : widen (Float32.ofBits (rdU32 m d.off)) =
        widen (Float32.ofBits (narrow num).toBits) := by
      rw [htype] at hdouble
      exact Option.some.inj hdouble
    refine ⟨?_, fun hholds => hnan num rfl ?_⟩
    · rw [slotInRange, hdouble]
      exact DpPoint.inRange_narrow hrange
    · have hbits := hholds.2
      rw [← isNaN_widen, hwiden, isNaN_widen] at hbits
      exact isNaN_of_narrow hbits
  · have hne : d.type ≠ .f32 := by
      intro hf32
      rw [hf32] at htype
      cases htype
    have hbounds : d.IntegerBounds lo hi := by
      constructor <;> intro b hmem <;> refine DpType.isInteger_of_takesBound htype ?_ <;>
        exact gDp_takesBound d hd hb b (by simp_all)
    refine ⟨dpValueFromJson_integer htype hbounds (fun x hx => ?_) h hslot,
      fun hholds => absurd hholds.1 hne⟩
    by_contra hx'
    have hmem := hnan x hx (by simpa using hx')
    exact hne (RuleGroup.type_of_mem hmem)

-- ════════════════════════════════════════════════════════════════════════
-- Batches
-- ════════════════════════════════════════════════════════════════════════

/-- The items of a batch leave every bounded slot checked. -/
theorem validate_checked {items : List (Option String × Json)} {tmp : Mem}
    (hnan : NaNForThresholds items) (h : (validate dpList tmp items).2 = [])
    (hchecked : ∀ d ∈ gDp dpList, d.bounded = true → d.Checked tmp) :
    ∀ d ∈ gDp dpList, d.bounded = true → d.Checked (validate dpList tmp items).1 := by
  induction items generalizing tmp with
  | nil => exact hchecked
  | cons item items ih =>
    obtain ⟨tmp', happly, hrest⟩ := validate_cons h
    obtain ⟨e, bs, he, -, hbs, rfl⟩ := applyItem_ok happly
    rw [hrest] at h ⊢
    refine ih (fun it hit => hnan it (List.mem_cons_of_mem _ hit)) h ?_
    refine forall_bounded_write (fun d m m' => DpDesc.checked_congr) (dpFind_mem he)
      (dpValueFromJson_length hbs) hchecked fun hb => ?_
    exact dpValueFromJson_checked (dpFind_mem he) hb
      (fun x => hnan item List.mem_cons_self e x he hb)
      hbs (holds_write _ _ _)

/-- The rules compare the pressure thresholds, so none of them is a NaN. -/
theorem RuleGroup.Rule.pressure_numbers {m : Mem} (h : RuleGroup.pressure.Rule m) {d : DpDesc}
    (hd : d ∈ RuleGroup.pressure.points) : ¬ d.HoldsNaN m := by
  have hvalues : ∀ name ∈ RuleGroup.pressure.names, value32 (imgF32 m name) ≠ none := by
    obtain ⟨hmax, hhigh, hlow⟩ := h
    obtain ⟨_, hmin', _, hmax', -⟩ := lt_iff_value32.mp hmax
    obtain ⟨_, -, _, hhigh', -⟩ := lt_iff_value32.mp hhigh
    obtain ⟨_, hlow', -⟩ := lt_iff_value32.mp hlow
    simp only [names, List.forall_mem_cons]
    exact ⟨Option.ne_none_iff_exists'.mpr ⟨_, hmin'⟩, Option.ne_none_iff_exists'.mpr ⟨_, hmax'⟩,
      Option.ne_none_iff_exists'.mpr ⟨_, hhigh'⟩,
      Option.ne_none_iff_exists'.mpr ⟨_, hlow'⟩, by simp⟩
  obtain ⟨name, hname, hfind⟩ := mem_points hd
  rintro ⟨-, hnan⟩
  refine hvalues name hname ?_
  rw [imgF32, imgOff_eq hfind]
  exact isNaN32_iff.mp hnan

theorem BoundsHold.checked {m : Mem} (h : BoundsHold m) :
    ∀ d ∈ gDp dpList, d.bounded = true → d.Checked m := by
  intro d hd hb
  obtain ⟨hrange, hnan⟩ := (DpDesc.inBounds_iff hd hb).mp (h d hd hb)
  exact ⟨hrange, fun hholds => absurd hholds hnan⟩

/-- A batch keeps the bounds: a NaN is refused by the rules where they read it. -/
theorem dpWriteBatch_bounds {img : Mem} {dpIn : Json} (hnan : NaNForThresholds dpIn.children)
    (h : BoundsHold img) : BoundsHold (dpWriteBatch img dpIn).img := by
  change BoundsHold (dpWriteBatchWith dpList dpConstraintsOk img dpIn).img
  rcases dpWriteBatchWith_cases dpList dpConstraintsOk img dpIn
    with ⟨-, himg⟩ | ⟨-, herr, himg, hok⟩
  · rw [himg]
    exact h
  · rw [himg]
    have hrule := dpConstraintsOk_iff.mp hok .pressure
    intro d hd hb
    obtain ⟨hrange, hthreshold⟩ := validate_checked hnan herr h.checked d hd hb
    exact (DpDesc.inBounds_iff hd hb).mpr
      ⟨hrange, fun hholds => hrule.pressure_numbers (hthreshold hholds) hholds⟩

/-- A batch leaves the slot of a point that it may not write. -/
theorem dpWriteBatch_readOnly {d : DpDesc} (hd : d ∈ gDp dpList) (haccess : d.access ≠ .rw)
    (img : Mem) (dpIn : Json) : d.slot (dpWriteBatch img dpIn).img = d.slot img := by
  change d.slot (dpWriteBatchWith dpList dpConstraintsOk img dpIn).img = d.slot img
  rcases dpWriteBatchWith_cases dpList dpConstraintsOk img dpIn with ⟨-, himg⟩ | ⟨-, herr, himg, -⟩
  · rw [himg]
  · rw [himg]
    apply List.map_congr_left
    intro i hi
    have hlt := List.mem_range.mp hi
    refine validate_outside herr ?_
    rintro ⟨item, hitem, e, he, hle, hlt'⟩
    obtain ⟨e', he', hrw⟩ := validate_names herr item hitem
    cases he.symm.trans he'
    have hne : d ≠ e := fun heq => haccess (heq ▸ hrw)
    have hdisj := gDp_disjoint hd (dpFind_mem he) hne
    omega

-- ════════════════════════════════════════════════════════════════════════
-- The flash and the defaults
-- ════════════════════════════════════════════════════════════════════════

/-- The `float` in the first four bytes of a buffer. -/
def floatOf (bytes : List UInt8) : Float32 := Float32.ofBits (rdU32 (write (fun _ => 0) 0 bytes) 0)

/-- No key of a bounded point holds a NaN. -/
def NoStoredNaN (nvs : Nvs) : Prop :=
  ∀ d ∈ savedPoints dpList, d.bounded = true → d.type = .f32 → ∀ bytes,
    nvs (dpNvsKey d) = some (.blob bytes) → bytes.length = d.size → (floatOf bytes).isNaN = false

/-- One key loaded. -/
theorem loadKey_bounds {nvs : Nvs} (hnan : NoStoredNaN nvs) {e : DpDesc}
    (he : e ∈ savedPoints dpList) {img : Mem} (h : BoundsHold img) :
    BoundsHold (loadKey nvs img e) := by
  have hmem : e ∈ gDp dpList := (List.mem_filter.mp he).1
  cases hstored : storedSlot nvs e with
  | none =>
    rw [loadKey, hstored]
    exact h
  | some bs =>
    have hlen := storedSlot_length hstored
    rw [loadKey, hstored]
    refine forall_bounded_write (fun d m m' => DpDesc.inBounds_congr) hmem hlen h fun hb => ?_
    obtain ⟨bytes, hkey, hsize, hrange, hbs⟩ := storedSlot_cases hstored
    have htype : e.type ≠ .str := by
      obtain ⟨-, -, hf32 | ⟨lo, hi, hint⟩⟩ := DpPoint.bounded_cases hb
      · simp [hf32]
      · intro hstr
        rw [hstr] at hint
        cases hint
    rw [if_neg htype] at hbs
    subst hbs
    -- The slot has the bytes that stood at the front of the buffer of the load.
    have hread : read (write img e.off bs) e.off e.type.size =
        read (write (fun _ => 0) 0 bs) 0 e.type.size := by
      have himg := read_write_self img e.off bs
      have hbuf := read_write_self (fun _ => 0) 0 bs
      rw [hsize] at himg hbuf
      exact himg.trans hbuf.symm
    refine (DpDesc.inBounds_iff hmem hb).mpr ⟨?_, ?_⟩
    · rw [slotInRange_congr hread]
      exact hrange
    · rintro ⟨hf32, hholds⟩
      rw [hf32] at hread
      rw [rdU32_congr hread] at hholds
      cases hholds.symm.trans (hnan e he hb hf32 bs hkey hsize)

/-- A load keeps the bounds. -/
theorem dpConfigLoad_bounds {nvs : Nvs} (hnan : NoStoredNaN nvs) {img : Mem} (h : BoundsHold img) :
    BoundsHold (dpConfigLoad dpList nvs img) := by
  have hloop : ∀ ds : List DpDesc, (∀ e ∈ ds, e ∈ savedPoints dpList) → ∀ img, BoundsHold img →
      BoundsHold (ds.foldl (loadKey nvs) img) := by
    intro ds
    induction ds with
    | nil => exact fun _ img himg => himg
    | cons e ds ih =>
      intro hds img himg
      exact ih (fun e he => hds e (List.mem_cons_of_mem _ he)) _
        (loadKey_bounds hnan (hds e List.mem_cons_self) himg)
  exact hloop _ (fun e he => he) img h

theorem defaults_bounds : BoundsHold (dpSetDefaults dpList (fun _ => 0)) := by
  unfold BoundsHold
  decide +kernel

end Fountainer.Datapoints
