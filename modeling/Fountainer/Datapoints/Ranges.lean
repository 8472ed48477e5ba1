import Fountainer.Datapoints.Persist

/-!
# Numbers in their slots

A number that passes the range check is converted to the type of its slot. The bounds of
an integer point are integers of its type and those of a `float` point are `float`s, and
no conversion crosses such a number; so the slot is within the bounds too, unless the
number was a NaN, which passes every check.
-/

namespace Fountainer.Datapoints

open Bytes CFloat

/-- The least and the greatest number of an integer type. -/
def DpType.intRange : DpType → Option (ℤ × ℤ)
  | .u8 | .enum => some (0, 255)
  | .i8 => some (-128, 127)
  | .u16 => some (0, 65535)
  | .i16 => some (-32768, 32767)
  | .u32 => some (0, 4294967295)
  | .i32 => some (-2147483648, 2147483647)
  | .bool | .u64 | .f32 | .str => none

/-- The `double` is an integer of the range. -/
def IsInteger (lo hi : ℤ) (x : Float) : Prop :=
  ∃ n : ℤ, lo ≤ n ∧ n ≤ hi ∧ value x = some ((n : ℝ) : EReal)

/-- The bounds of a point are integers of the range. -/
def DpPoint.IntegerBounds (d : DpPoint) (lo hi : ℤ) : Prop :=
  (∀ mn ∈ d.min, IsInteger lo hi (widen mn)) ∧ ∀ mx ∈ d.max, IsInteger lo hi (widen mx)

section Slots

variable {type : DpType} {lo hi : ℤ} {m : Mem} {off : ℕ} {bs : List UInt8} {num : Float}

/-- What a slot of an integer type holds is an integer of the type. -/
theorem dpSlotAsDouble_integer (h : type.intRange = some (lo, hi)) (m : Mem) (off : ℕ) :
    ∃ x, dpSlotAsDouble type m off = some x ∧ IsInteger lo hi x := by
  cases type with
  | bool | u64 | f32 | str => cases h
  | u8 | enum =>
    cases h
    have := (m off).toNat_lt
    exact ⟨_, rfl, (m off).toNat, by omega, by omega, value_ofUInt8 _⟩
  | u16 =>
    cases h
    have := (rdU16 m off).toNat_lt
    exact ⟨_, rfl, (rdU16 m off).toNat, by omega, by omega, value_ofUInt16 _⟩
  | u32 =>
    cases h
    have := (rdU32 m off).toNat_lt
    exact ⟨_, rfl, (rdU32 m off).toNat, by omega, by omega, value_ofUInt32 _⟩
  | i8 =>
    cases h
    have hle := (m off).toInt8.le_toInt
    have hlt := (m off).toInt8.toInt_lt
    exact ⟨_, rfl, (m off).toInt8.toInt, by omega, by omega, value_ofInt (by omega)⟩
  | i16 =>
    cases h
    have hle := (rdU16 m off).toInt16.le_toInt
    have hlt := (rdU16 m off).toInt16.toInt_lt
    exact ⟨_, rfl, (rdU16 m off).toInt16.toInt, by omega, by omega, value_ofInt (by omega)⟩
  | i32 =>
    cases h
    have hle := (rdU32 m off).toInt32.le_toInt
    have hlt := (rdU32 m off).toInt32.toInt_lt
    exact ⟨_, rfl, (rdU32 m off).toInt32.toInt, by omega, by omega, value_ofInt (by omega)⟩

/-- The integer that is stored for a number. -/
def storedInt (lo hi : ℤ) (num : Float) : ℤ := max lo (min hi (num.toModel.unpack.toInt lo hi))

theorem dpSlotAsDouble_storedInt (h : type.intRange = some (lo, hi))
    (hbytes : numberBytes num type = .ok bs) (hslot : Holds m off bs) :
    ∃ x, dpSlotAsDouble type m off = some x ∧
      value x = some ((storedInt lo hi num : ℝ) : EReal) := by
  cases type with
  | bool | u64 | f32 | str => cases h
  | u8 | enum =>
    cases h
    cases hbytes
    have hbyte : m off = num.toUInt8 := hslot 0 (by simp)
    refine ⟨_, rfl, ?_⟩
    rw [value_ofUInt8, hbyte, toNat_toUInt8, storedInt]
  | u16 =>
    cases h
    cases hbytes
    refine ⟨_, rfl, ?_⟩
    rw [value_ofUInt16, rdU16_of_holds hslot, toNat_toUInt16, storedInt]
  | u32 =>
    cases h
    cases hbytes
    refine ⟨_, rfl, ?_⟩
    rw [value_ofUInt32, rdU32_of_holds hslot, toNat_toUInt32, storedInt]
  | i8 =>
    cases h
    cases hbytes
    have hbyte : m off = (toInt8 num).toUInt8 := hslot 0 (by simp)
    have hint := toInt_toInt8 num
    refine ⟨_, rfl, ?_⟩
    rw [hbyte, Int8.toInt8_toUInt8, value_ofInt (by omega), hint, storedInt]
  | i16 =>
    cases h
    cases hbytes
    have hint := toInt_toInt16 num
    refine ⟨_, rfl, ?_⟩
    rw [rdU16_of_holds hslot, Int16.toInt16_toUInt16, value_ofInt (by omega), hint, storedInt]
  | i32 =>
    cases h
    cases hbytes
    have hint := toInt_toInt32 num
    refine ⟨_, rfl, ?_⟩
    rw [rdU32_of_holds hslot, Int32.toInt32_toUInt32, value_ofInt (by omega), hint, storedInt]

end Slots

section Range

variable {d : DpPoint} {num : Float}

theorem DpPoint.inRange_iff : d.inRange num = true ↔
    (∀ mn ∈ d.min, ¬ num < widen mn) ∧ ∀ mx ∈ d.max, ¬ widen mx < num := by
  rw [inRange]
  cases d.min <;> cases d.max <;> simp

/-- No check rejects a NaN. -/
theorem DpPoint.inRange_of_isNaN (h : num.isNaN = true) : d.inRange num = true := by
  have hnone := isNaN_iff.mp h
  refine inRange_iff.mpr ⟨fun mn _ hlt => ?_, fun mx _ hlt => ?_⟩
  · obtain ⟨x, hx, -⟩ := lt_iff_value.mp hlt
    rw [hnone] at hx
    cases hx
  · obtain ⟨-, -, x, hx, -⟩ := lt_iff_value.mp hlt
    rw [hnone] at hx
    cases hx

/-- A number in range is in range as the `float` that is stored for it. -/
theorem DpPoint.inRange_narrow (h : d.inRange num = true) :
    d.inRange (widen (Float32.ofBits (narrow num).toBits)) = true := by
  have hval : value (widen (Float32.ofBits (narrow num).toBits)) = value (widen (narrow num)) := by
    rw [value_widen, value_widen, value32_ofBits]
  obtain ⟨hmin, hmax⟩ := inRange_iff.mp h
  refine inRange_iff.mpr ⟨fun mn hmn => ?_, fun mx hmx => ?_⟩
  · rw [lt_iff_value, hval, ← lt_iff_value]
    exact (narrow_cross num mn).1 (hmin mn hmn)
  · rw [lt_iff_value, hval, ← lt_iff_value]
    exact (narrow_cross num mx).2 (hmax mx hmx)

/-- A number in range is in range as the integer that is stored for it. -/
theorem DpPoint.inRange_storedInt {lo hi : ℤ} {x : Float} (hb : d.IntegerBounds lo hi)
    (hnan : num.isNaN = false) (h : d.inRange num = true)
    (hx : value x = some ((storedInt lo hi num : ℝ) : EReal)) : d.inRange x = true := by
  obtain ⟨ξ, hξ⟩ := exists_value hnan
  obtain ⟨hmin, hmax⟩ := inRange_iff.mp h
  refine inRange_iff.mpr ⟨fun mn hmn => ?_, fun mx hmx => ?_⟩
  · obtain ⟨n, hlo, hhi, hn⟩ := hb.1 mn hmn
    have hle : ((n : ℝ) : EReal) ≤ ξ := by
      by_contra hlt
      exact hmin mn hmn (lt_iff_value.mpr ⟨ξ, hξ, _, hn, not_le.mp hlt⟩)
    have hstored : n ≤ storedInt lo hi num := by
      have := (toInt_cross hξ hlo hhi).1 hle
      rw [storedInt]
      omega
    rw [lt_iff_value, hx, hn]
    simpa using hstored
  · obtain ⟨n, hlo, hhi, hn⟩ := hb.2 mx hmx
    have hle : ξ ≤ ((n : ℝ) : EReal) := by
      by_contra hlt
      exact hmax mx hmx (lt_iff_value.mpr ⟨_, hn, ξ, hξ, not_le.mp hlt⟩)
    have hstored : storedInt lo hi num ≤ n := by
      have := (toInt_cross hξ hlo hhi).2 hle
      rw [storedInt]
      omega
    rw [lt_iff_value, hx, hn]
    simpa using hstored

end Range

section Write

variable {d : DpDesc} {v : Json} {bs : List UInt8} {m : Mem}

/-- What a write of a number stores in a `float` slot. -/
theorem dpValueFromJson_float (htype : d.type = .f32) (h : dpValueFromJson d.toDpPoint v = .ok bs)
    (hslot : Holds m d.off bs) :
    ∃ num, v = .number num ∧ d.inRange num = true ∧
      dpSlotAsDouble d.type m d.off = some (widen (Float32.ofBits (narrow num).toBits)) := by
  obtain ⟨num, rfl, hrange, hbytes⟩ := dpValueFromJson_number (by simp [htype]) (by simp [htype])
    (by simp [htype]) h
  rw [htype] at hbytes
  cases hbytes
  refine ⟨num, rfl, hrange, ?_⟩
  rw [htype, dpSlotAsDouble, rdU32_of_holds hslot]

/-- What a write of a number stores in an integer slot is in range. -/
theorem dpValueFromJson_integer {lo hi : ℤ} (htype : d.type.intRange = some (lo, hi))
    (hb : d.IntegerBounds lo hi) (hnan : ∀ x, v = .number x → x.isNaN = false)
    (h : dpValueFromJson d.toDpPoint v = .ok bs) (hslot : Holds m d.off bs) :
    slotInRange d.toDpPoint m d.off = true := by
  have hnum : ∃ num, v = .number num ∧ d.inRange num = true ∧ numberBytes num d.type = .ok bs := by
    apply dpValueFromJson_number _ _ _ h <;> intro ht <;> rw [ht] at htype <;> cases htype
  obtain ⟨num, rfl, hrange, hbytes⟩ := hnum
  obtain ⟨x, hx, hvalue⟩ := dpSlotAsDouble_storedInt htype hbytes hslot
  rw [slotInRange, hx]
  exact DpPoint.inRange_storedInt hb (hnan num rfl) hrange hvalue

end Write

end Fountainer.Datapoints
