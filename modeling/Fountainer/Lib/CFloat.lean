import Fountainer.Lib.FloatFormat

/-!
# Conversions between C's floating-point and integer types

`(float)x` for a `double` rounds to the nearest single-precision value, `(double)x`
for a `float` is exact, and the conversion to an integer type truncates. They are
written here on the unpacked form of Lean's own float model, so that they evaluate.
Out of the range of the integer type, where C leaves the result open, the conversions
saturate, and NaN gives 0.
-/

namespace CFloat

open Float.Model (Format UnpackedFloat)
open FloatFormat

/-- `(float)x` for a `double`. -/
def narrow (x : Float) : Float32 :=
  Float32.ofModel (Float32.Model.pack (toFormat Format.binary32 x.toModel.unpack))

/-- `(double)x` for a `float`. -/
def widen (x : Float32) : Float :=
  Float.ofModel (Float.Model.pack (toFormat Format.binary64 x.toModel.unpack))

/-- `(int8_t)x` for a `double`. -/
def toInt8 (x : Float) : Int8 := x.toModel.unpack.toInt8

/-- `(int16_t)x` for a `double`. -/
def toInt16 (x : Float) : Int16 := x.toModel.unpack.toInt16

/-- `(int32_t)x` for a `double`. -/
def toInt32 (x : Float) : Int32 := x.toModel.unpack.toInt32

/-- The value of a `double`; `none` for not a number. -/
noncomputable def value (x : Float) : Option EReal := val x.toModel.unpack

/-- The value of a `float`; `none` for not a number. -/
noncomputable def value32 (x : Float32) : Option EReal := val x.toModel.unpack

theorem wellFormed (x : Float) : WellFormed Format.binary64 x.toModel.unpack :=
  unpack_wellFormed (by decide) _

theorem wellFormed32 (x : Float32) : WellFormed Format.binary32 x.toModel.unpack :=
  unpack_wellFormed (by decide) _

theorem unpack_narrow (x : Float) :
    (narrow x).toModel.unpack = convert Format.binary32 x.toModel.unpack := rfl

theorem unpack_widen (x : Float32) :
    (widen x).toModel.unpack = convert Format.binary64 x.toModel.unpack := rfl

/-- The order of `double`s is that of their values; not a number has no order. -/
theorem lt_iff_value {a b : Float} : a < b ↔ ∃ x ∈ value a, ∃ y ∈ value b, x < y := by
  rw [value, value, ← lt_iff (wellFormed a) (wellFormed b)]
  change decide (a.toModel < b.toModel) = true ↔ _
  rw [decide_eq_true_iff]
  rfl

theorem lt_iff_value32 {a b : Float32} : a < b ↔ ∃ x ∈ value32 a, ∃ y ∈ value32 b, x < y := by
  rw [value32, value32, ← lt_iff (wellFormed32 a) (wellFormed32 b)]
  change decide (a.toModel < b.toModel) = true ↔ _
  rw [decide_eq_true_iff]
  rfl

/-- The order with equality. -/
theorem le_iff_value {a b : Float} : a ≤ b ↔ ∃ x ∈ value a, ∃ y ∈ value b, x ≤ y := by
  rw [value, value, ← le_iff (wellFormed a) (wellFormed b)]
  change decide (a.toModel ≤ b.toModel) = true ↔ _
  rw [decide_eq_true_iff]
  rfl

/-- `==` compares the values. -/
theorem beq_iff_value {a b : Float} : (a == b) = true ↔ ∃ x ∈ value a, x ∈ value b := by
  have hle : (a == b) = true ↔ a ≤ b ∧ b ≤ a := by
    change a.toModel.unpack.beq b.toModel.unpack = true ↔ _
    rw [beq_eq, Bool.and_eq_true, le_iff (wellFormed a) (wellFormed b),
      le_iff (wellFormed b) (wellFormed a), le_iff_value, le_iff_value]
    rfl
  rw [hle, le_iff_value, le_iff_value]
  constructor
  · rintro ⟨⟨x, hx, y, hy, hxy⟩, y', hy', x', hx', hyx⟩
    cases hx.symm.trans hx'
    cases hy.symm.trans hy'
    exact ⟨x, hx, le_antisymm hxy hyx ▸ hy⟩
  · rintro ⟨x, hx, hy⟩
    exact ⟨⟨x, hx, x, hy, le_rfl⟩, x, hy, x, hx, le_rfl⟩

theorem isNaN_iff {x : Float} : x.isNaN = true ↔ value x = none := by
  change x.toModel.unpack.isNaN = true ↔ _
  rw [value]
  cases x.toModel.unpack <;> simp [val, UnpackedFloat.isNaN]

theorem isNaN32_iff {x : Float32} : x.isNaN = true ↔ value32 x = none := by
  change x.toModel.unpack.isNaN = true ↔ _
  rw [value32]
  cases x.toModel.unpack <;> simp [val, UnpackedFloat.isNaN]

/-- A mantissa and an exponent well within the range of `double` are a `double`. -/
theorem exists_wellFormed {m : ℕ} {e : ℤ} (s : UnpackedFloat.Sign) (hm : 0 < m) (hlt : m < 2 ^ 53)
    (hlo : -1022 ≤ e) (hhi : e ≤ 971) :
    ∃ v, WellFormed Format.binary64 v ∧ val v = some (signed s (mag m e : ℝ)) := by
  have hlog : m.log2 ≤ 52 := Nat.lt_succ_iff.mp ((Nat.log2_lt hm.ne').mpr hlt)
  obtain ⟨hle, hlt'⟩ := (Nat.log2_eq_iff hm.ne').mp rfl
  -- The mantissa is shifted until its leading bit is the implicit bit of the format.
  set k := 52 - m.log2 with hk
  have hlow : 2 ^ 52 ≤ m * 2 ^ k := by
    calc 2 ^ 52 = 2 ^ m.log2 * 2 ^ k := by rw [← pow_add]; congr 1; omega
      _ ≤ m * 2 ^ k := Nat.mul_le_mul_right _ hle
  have hhigh : m * 2 ^ k < 2 ^ 53 := by
    calc m * 2 ^ k < 2 ^ (m.log2 + 1) * 2 ^ k := Nat.mul_lt_mul_of_pos_right hlt' (by positivity)
      _ = 2 ^ 53 := by rw [← pow_add]; congr 1; omega
  refine ⟨.finite s (m * 2 ^ k) (e - k) (by positivity), ⟨⟨hhigh, ?_, fun _ => hlow⟩, ?_⟩, ?_⟩
  · change (-1074 : ℤ) ≤ e - k
    omega
  · change e - k + (1023 : ℕ) + (52 : ℕ) + 1 < 2 ^ 11
    omega
  · rw [val, mag_shift]

/-- Every `float` is a `double`. -/
theorem exists_double {s : UnpackedFloat.Sign} {m : ℕ} {e : ℤ} {hm : 0 < m}
    (h : WellFormed Format.binary32 (.finite s m e hm)) :
    ∃ v, WellFormed Format.binary64 v ∧ val v = some (signed s (mag m e : ℝ)) := by
  obtain ⟨hcanon, hfits⟩ := h
  have hlt : m < 2 ^ 24 := hcanon.lt
  have hmin : (-149 : ℤ) ≤ e := hcanon.min_le
  have hmax : e + (127 : ℕ) + (23 : ℕ) + 1 < 2 ^ 8 := hfits
  exact exists_wellFormed s hm (by omega) (by omega : -1022 ≤ e) (by omega)

/-- The conversion to `double` is exact. -/
theorem value_widen (x : Float32) : value (widen x) = value32 x := by
  have hspec : 1 < Format.binary64.exponentBits := by decide
  have hx := wellFormed32 x
  rw [value, value32, unpack_widen]
  cases hu : x.toModel.unpack with
  | notANumber => rw [convert_notANumber]
  | infinity s => rw [convert_infinity]
  | zero s => rw [convert_zero]
  | finite s m e hm =>
    rw [hu] at hx
    obtain ⟨v, hv, hval⟩ := exists_double hx
    exact convert_exact hspec rfl hv hval

theorem isNaN_widen (x : Float32) : (widen x).isNaN = x.isNaN := by
  rw [Bool.eq_iff_iff, isNaN_iff, isNaN32_iff, value_widen]

/-- The value of a `float` after its bits have been stored and read again. -/
theorem value32_ofBits (x : Float32) : value32 (Float32.ofBits x.toBits) = value32 x := by
  change val (UnpackedFloat.unpack _ (UnpackedFloat.pack _ x.toModel.unpack)) = _
  rw [unpack_pack (wellFormed32 x)]
  rfl

/-- The bits of a number come back from a `float`. -/
theorem toBits_ofBits {u : UInt32} (h : (Float32.ofBits u).isNaN = false) :
    (Float32.ofBits u).toBits = u := by
  have hnan : UnpackedFloat.unpack Format.binary32 u.toBitVec ≠ .notANumber := by
    intro hu
    have hval : value32 (Float32.ofBits u) = none := by
      change val (UnpackedFloat.unpack _ (UnpackedFloat.pack _ (UnpackedFloat.unpack _ _))) = _
      rw [hu]
      exact congrArg val (@convert_notANumber Format.binary32)
    rw [isNaN32_iff.mpr hval] at h
    cases h
  change UInt32.ofBitVec (UnpackedFloat.pack Format.binary32
    (UnpackedFloat.unpack Format.binary32 u.toBitVec)) = u
  rw [pack_unpack_number (by decide) hnan]

/-- A `float` survives the conversion to `double` and back. -/
theorem convert_widen {u : UnpackedFloat} (hu : WellFormed Format.binary32 u)
    (hnan : u ≠ .notANumber) : convert Format.binary32 (convert Format.binary64 u) = u := by
  have hspec : 1 < Format.binary32.exponentBits := by decide
  have hspec' : 1 < Format.binary64.exponentBits := by decide
  cases u with
  | notANumber => exact absurd rfl hnan
  | infinity s => rw [convert_infinity, convert_infinity]
  | zero s => rw [convert_zero, convert_zero]
  | finite s m e hm =>
    obtain ⟨v, hv, hval⟩ := exists_double hu
    have hexact := convert_exact (u := .finite s m e hm) hspec' rfl hv hval
    have hback := convert_exact hspec hexact hu rfl
    refine val_inj (unpack_wellFormed hspec _) hu ?_ hback rfl
    have hpos := mag_pos (e := e) hm
    cases s <;> simp [signed, hpos.ne']

theorem toBits_narrow_widen {x : Float32} (h : x.isNaN = false) :
    (narrow (widen x)).toBits = x.toBits := by
  have hnan : x.toModel.unpack ≠ .notANumber := by
    intro hx
    have hval : value32 x = none := by rw [value32, hx, val]
    rw [isNaN32_iff.mpr hval] at h
    cases h
  have hunpack : (narrow (widen x)).toModel.unpack = x.toModel.unpack := by
    rw [unpack_narrow, unpack_widen, convert_widen (wellFormed32 x) hnan]
  have hpack : ∀ y : Float32, y.toModel.unpack = x.toModel.unpack →
      UInt32.ofBitVec (UnpackedFloat.pack Format.binary32 x.toModel.unpack) = y.toBits := by
    intro y hy
    rw [← hy] at hnan ⊢
    exact congrArg UInt32.ofBitVec (pack_unpack_number (by decide) hnan)
  rw [← hpack _ hunpack, ← hpack x rfl]

theorem exists_value {x : Float} (h : x.isNaN = false) : ∃ ξ, ξ ∈ value x := by
  change x.toModel.unpack.isNaN = false at h
  rw [value]
  cases hu : x.toModel.unpack with
  | notANumber =>
    rw [hu] at h
    cases h
  | infinity s => exact ⟨_, rfl⟩
  | zero s => exact ⟨_, rfl⟩
  | finite s m e hm => exact ⟨_, rfl⟩

/-- Of two numbers, one is not above the other. -/
theorem le_iff_not_lt {a b : Float} (ha : a.isNaN = false) (hb : b.isNaN = false) :
    a ≤ b ↔ ¬ b < a := by
  obtain ⟨α, hα⟩ := exists_value ha
  obtain ⟨β, hβ⟩ := exists_value hb
  rw [le_iff_value, lt_iff_value, hα, hβ]
  simp

theorem isNaN_of_le {a b : Float} (h : a ≤ b) : a.isNaN = false ∧ b.isNaN = false := by
  obtain ⟨α, hα, β, hβ, -⟩ := le_iff_value.mp h
  constructor <;> by_contra hnan <;> rw [Bool.not_eq_false, isNaN_iff] at hnan
  · cases hα.symm.trans hnan
  · cases hβ.symm.trans hnan

/-- The conversion to `float` never crosses a `float`. -/
theorem narrow_cross (x : Float) (b : Float32) :
    (¬ x < widen b → ¬ widen (narrow x) < widen b) ∧
      (¬ widen b < x → ¬ widen b < widen (narrow x)) := by
  have hspec : 1 < Format.binary32.exponentBits := by decide
  simp only [lt_iff_value, value_widen, not_exists, not_and, not_lt]
  cases hx : value x with
  | none =>
    have hnan : x.toModel.unpack = .notANumber := by
      rw [value] at hx
      revert hx
      cases x.toModel.unpack <;> simp [val]
    have hnone : value32 (narrow x) = none := by
      rw [value32, unpack_narrow, hnan, convert_notANumber]
      rfl
    simp [hnone]
  | some ξ =>
    obtain ⟨z, hz, hcross⟩ := @convert_cross Format.binary32 hspec _ _ hx
    have hval : value32 (narrow x) = some z := hz
    rw [hval]
    refine ⟨fun h w hw y hy => ?_, fun h y hy w hw => ?_⟩
    · cases hw
      exact (hcross _ y (wellFormed32 b) hy).2 (h ξ rfl y hy)
    · cases hw
      exact (hcross _ y (wellFormed32 b) hy).1 (h y hy ξ rfl)

/-- Only a NaN is stored as one. -/
theorem isNaN_of_narrow {x : Float} (h : (Float32.ofBits (narrow x).toBits).isNaN = true) :
    x.isNaN = true := by
  rw [isNaN32_iff, value32_ofBits] at h
  by_contra hx
  obtain ⟨ξ, hξ⟩ := exists_value (by simpa using hx : x.isNaN = false)
  have hspec : 1 < Format.binary32.exponentBits := by decide
  obtain ⟨z, hz, -⟩ := @convert_cross Format.binary32 hspec _ _ hξ
  have hval : value32 (narrow x) = some z := hz
  cases hval.symm.trans h

/-- An integer of at most 53 bits is a `double`. -/
theorem val_round (s : UnpackedFloat.Sign) {m : ℕ} (hm : 0 < m) (hlt : m < 2 ^ 53) :
    val (UnpackedFloat.unpack Format.binary64 (UnpackedFloat.pack Format.binary64
      (UnpackedFloat.round Format.binary64 s m 0))) = some (signed s ((m : ℝ) : EReal)) := by
  obtain ⟨v, hv, hval⟩ := exists_wellFormed (e := 0) s hm hlt (by omega) (by omega)
  have hmag : mag m 0 = m := by simp [mag]
  rw [hmag] at hval
  exact convert_exact (u := .finite s m 0 hm) (by decide) (by rw [val, hmag]; rfl) hv hval

theorem val_normalize {n : ℤ} (h : n.natAbs < 2 ^ 53) :
    val (UnpackedFloat.unpack Format.binary64 (UnpackedFloat.pack Format.binary64
      (UnpackedFloat.normalize Format.binary64 n 0 .positive))) = some ((n : ℝ) : EReal) := by
  rw [UnpackedFloat.normalize]
  rcases lt_trichotomy n 0 with hn | rfl | hn
  · rw [compare_lt_iff_lt.mpr hn]
    dsimp only
    rw [val_round .negative (by omega) (by omega)]
    have hcast : (((-n).toNat : ℕ) : ℝ) = -(n : ℝ) := by
      rw [← Int.cast_natCast, Int.toNat_of_nonneg (by omega), Int.cast_neg]
    simp [signed, hcast]
  · have hzero : WellFormed Format.binary64 (.zero .positive) := trivial
    rw [compare_eq_iff_eq.mpr rfl]
    dsimp only
    rw [unpack_pack hzero]
    simp [val]
  · rw [compare_gt_iff_gt.mpr hn]
    dsimp only
    rw [val_round .positive (by omega) (by omega)]
    have hcast : ((n.toNat : ℕ) : ℝ) = (n : ℝ) := by
      rw [← Int.cast_natCast, Int.toNat_of_nonneg (by omega)]
    simp [signed, hcast]

theorem value_ofUInt8 (v : UInt8) : value v.toFloat = some (((v.toNat : ℤ) : ℝ) : EReal) :=
  val_normalize (by have := v.toNat_lt; omega)

theorem value_ofUInt16 (v : UInt16) : value v.toFloat = some (((v.toNat : ℤ) : ℝ) : EReal) :=
  val_normalize (by have := v.toNat_lt; omega)

theorem value_ofUInt32 (v : UInt32) : value v.toFloat = some (((v.toNat : ℤ) : ℝ) : EReal) :=
  val_normalize (by have := v.toNat_lt; omega)

theorem value_ofUInt64 {v : UInt64} (h : v.toNat < 2 ^ 53) :
    value v.toFloat = some (((v.toNat : ℤ) : ℝ) : EReal) :=
  val_normalize (by omega)

theorem value_neg (x : Float) : value x.neg = (value x).map (- ·) := by
  have hx := wellFormed x
  have hwf : WellFormed Format.binary64 x.toModel.unpack.neg := by
    cases hu : x.toModel.unpack with
    | finite s m e hm =>
      rw [hu] at hx
      exact hx
    | notANumber | infinity | zero => trivial
  change val (UnpackedFloat.unpack _ (UnpackedFloat.pack _ x.toModel.unpack.neg)) = _
  rw [unpack_pack hwf, value]
  cases x.toModel.unpack with
  | notANumber => rfl
  | infinity s =>
    cases s
    · exact congrArg some (neg_neg (⊤ : EReal)).symm
    · rfl
  | zero s => simp [UnpackedFloat.neg, val]
  | finite s m e hm => cases s <;> simp [UnpackedFloat.neg, val, signed]

/-- Rounding does not move the exponent up where the mantissa has bits to spare. -/
theorem round_eq_roundWithAccuracy {s : UnpackedFloat.Sign} {m : ℕ} {e : ℤ}
    (he : e ≤ target Format.binary64 m e) :
    UnpackedFloat.round Format.binary64 s m e =
      UnpackedFloat.roundWithAccuracy Format.binary64 s m e .exact := by
  have hzero : (e - target Format.binary64 m e).toNat = 0 := by omega
  change UnpackedFloat.roundWithAccuracy Format.binary64 s
    (m <<< (e - target Format.binary64 m e).toNat)
    (e - ((e - target Format.binary64 m e).toNat : ℤ)) .exact = _
  rw [hzero, Nat.shiftLeft_zero, Nat.cast_zero, sub_zero]

/-- The product with one. -/
theorem value_mul_one (x : Float) : value (x * Float.ofBits 0x3FF0000000000000) = value x := by
  have hx := wellFormed x
  have hone : (Float.ofBits 0x3FF0000000000000).toModel.unpack =
      .finite .positive (2 ^ 52) (-52) (by decide) := by rfl
  have hmul : (x * Float.ofBits 0x3FF0000000000000).toModel.unpack = UnpackedFloat.unpack _
      (UnpackedFloat.pack _ (UnpackedFloat.mul Format.binary64 x.toModel.unpack
        (Float.ofBits 0x3FF0000000000000).toModel.unpack)) := rfl
  have hsign : ∀ s : UnpackedFloat.Sign, s * .positive = s := by rintro (_ | _) <;> rfl
  rw [value, value, hmul, hone]
  cases hu : x.toModel.unpack with
  | notANumber => exact congrArg val convert_notANumber
  | infinity s =>
    simp only [UnpackedFloat.mul, hsign]
    exact congrArg val convert_infinity
  | zero s =>
    simp only [UnpackedFloat.mul, hsign]
    exact congrArg val convert_zero
  | finite s m e hm =>
    rw [hu] at hx
    have htarget : e - 52 ≤ target Format.binary64 (m * 2 ^ 52) (e - (52 : ℕ)) := by
      rw [target_shift hm, target_eq]
      have hmant : (Format.binary64.mantissaBitsWithoutImplicit : ℤ) = 52 := rfl
      omega
    simp only [UnpackedFloat.mul, hsign]
    have hmant : 0 < m * 2 ^ 52 := by positivity
    have hval : val (.finite s (m * 2 ^ 52) (e - (52 : ℕ)) hmant) = val (.finite s m e hm) := by
      rw [val, val, mag_shift]
    have hexact := convert_exact (u := .finite s (m * 2 ^ 52) (e - (52 : ℕ)) hmant) (by decide)
      (hval ▸ rfl) hx rfl
    rw [convert, toFormat, round_eq_roundWithAccuracy (by exact_mod_cast htarget)] at hexact
    exact hexact

/-- The conversion of an integer of at most 53 bits to `double` is exact. -/
theorem value_ofInt {n : ℤ} (h : n.natAbs < 2 ^ 53) :
    value (Float.ofInt n) = some ((n : ℝ) : EReal) := by
  have hnat : ∀ k : ℕ, k < 2 ^ 53 → value (Float.ofNat k) = some (((k : ℤ) : ℝ) : EReal) := by
    intro k hk
    have hofNat : Float.ofNat k = k.toUInt64.toFloat * Float.ofBits 0x3FF0000000000000 := by
      change Float.ofScientific k false 0 = _
      unfold Float.ofScientific
      rw [dif_pos ⟨hk, by omega⟩, if_neg (by decide)]
      rfl
    have htoNat : k.toUInt64.toNat = k := by
      rw [Nat.toUInt64_eq, UInt64.toNat_ofNat', Nat.mod_eq_of_lt (by omega)]
    rw [hofNat, value_mul_one, value_ofUInt64 (by omega), htoNat]
  cases n with
  | ofNat k => exact hnat k (by simpa using h)
  | negSucc k =>
    rw [Float.ofInt, value_neg, hnat (k + 1) (by simpa using h)]
    rw [Option.map_some, ← EReal.coe_neg, Int.negSucc_eq]
    push_cast
    rfl

/-- The conversion to an integer never crosses one. -/
theorem toInt_cross {x : Float} {ξ : EReal} (hx : ξ ∈ value x) {lo hi n : ℤ} (hlo : lo ≤ n)
    (hhi : n ≤ hi) :
    (((n : ℝ) : EReal) ≤ ξ → n ≤ x.toModel.unpack.toInt lo hi) ∧
      (ξ ≤ ((n : ℝ) : EReal) → x.toModel.unpack.toInt lo hi ≤ n) := by
  rw [value] at hx
  cases hu : x.toModel.unpack with
  | notANumber =>
    rw [hu] at hx
    cases hx
  | infinity s =>
    rw [hu] at hx
    cases hx
    cases s with
    | positive => exact ⟨fun _ => hhi, fun h => absurd h (not_le.mpr (EReal.coe_lt_top _))⟩
    | negative => exact ⟨fun h => absurd h (not_le.mpr (EReal.bot_lt_coe _)), fun _ => hlo⟩
  | zero s =>
    rw [hu] at hx
    cases hx
    refine ⟨fun h => ?_, fun h => ?_⟩
    · exact_mod_cast h
    · exact_mod_cast h
  | finite s m e hm =>
    rw [hu] at hx
    cases hx
    have hfloor := Nat.floor_le (mag_pos (e := e) hm).le
    rw [UnpackedFloat.toInt, roundToInt_eq]
    cases s with
    | positive =>
      change (((n : ℝ) : EReal) ≤ _ → n ≤ (⌊mag m e⌋₊ : ℤ)) ∧ (_ → (⌊mag m e⌋₊ : ℤ) ≤ n)
      refine ⟨fun h => ?_, fun h => ?_⟩
      · have hle : (n : ℝ) ≤ mag m e := EReal.coe_le_coe_iff.mp h
        rw [Int.natCast_floor_eq_floor (mag_pos hm).le]
        exact Int.le_floor.mpr hle
      · have hle : mag m e ≤ (n : ℝ) := EReal.coe_le_coe_iff.mp h
        exact_mod_cast hfloor.trans hle
    | negative =>
      change (((n : ℝ) : EReal) ≤ _ → n ≤ -(⌊mag m e⌋₊ : ℤ)) ∧ (_ → -(⌊mag m e⌋₊ : ℤ) ≤ n)
      refine ⟨fun h => ?_, fun h => ?_⟩
      · have hle : (n : ℝ) ≤ -mag m e := by
          rw [signed, ← EReal.coe_neg] at h
          exact EReal.coe_le_coe_iff.mp h
        have : (⌊mag m e⌋₊ : ℝ) ≤ -(n : ℝ) := by linarith
        have hint : ((⌊mag m e⌋₊ : ℤ) : ℝ) ≤ ((-n : ℤ) : ℝ) := by push_cast; exact this
        have := Int.cast_le.mp hint
        omega
      · have hle : -mag m e ≤ (n : ℝ) := by
          rw [signed, ← EReal.coe_neg] at h
          exact EReal.coe_le_coe_iff.mp h
        have hneg : -n ≤ (⌊mag m e⌋₊ : ℤ) := by
          rw [Int.natCast_floor_eq_floor (mag_pos hm).le]
          exact Int.le_floor.mpr (by push_cast; linarith)
        omega

theorem toNat_toUInt8 (x : Float) :
    (x.toUInt8.toNat : ℤ) = max 0 (min 255 (x.toModel.unpack.toInt 0 255)) := by
  have hclamp : x.toUInt8 = UInt8.ofNatClamp (x.toModel.unpack.toInt 0 255).toNat := rfl
  have hsize : UInt8.size = 256 := rfl
  rw [hclamp, UInt8.ofNatClamp]
  split
  · rw [UInt8.toNat_ofNatLT]
    omega
  · rw [UInt8.toNat_ofNatLT]
    omega

theorem toNat_toUInt16 (x : Float) :
    (x.toUInt16.toNat : ℤ) = max 0 (min 65535 (x.toModel.unpack.toInt 0 65535)) := by
  have hclamp : x.toUInt16 = UInt16.ofNatClamp (x.toModel.unpack.toInt 0 65535).toNat := rfl
  have hsize : UInt16.size = 65536 := rfl
  rw [hclamp, UInt16.ofNatClamp]
  split
  · rw [UInt16.toNat_ofNatLT]
    omega
  · rw [UInt16.toNat_ofNatLT]
    omega

theorem toNat_toUInt32 (x : Float) :
    (x.toUInt32.toNat : ℤ) = max 0 (min 4294967295 (x.toModel.unpack.toInt 0 4294967295)) := by
  have hclamp : x.toUInt32 = UInt32.ofNatClamp (x.toModel.unpack.toInt 0 4294967295).toNat := rfl
  have hsize : UInt32.size = 4294967296 := rfl
  rw [hclamp, UInt32.ofNatClamp]
  split
  · rw [UInt32.toNat_ofNatLT]
    omega
  · rw [UInt32.toNat_ofNatLT]
    omega

theorem toInt_toInt8 (x : Float) :
    (toInt8 x).toInt = max (-128) (min 127 (x.toModel.unpack.toInt (-128) 127)) := by
  have hclamp : toInt8 x = Int8.ofIntClamp (x.toModel.unpack.toInt (-128) 127) := rfl
  have hmin : Int8.minValue.toInt = -128 := rfl
  have hmax : Int8.maxValue.toInt = 127 := rfl
  rw [hclamp, Int8.ofIntClamp]
  split_ifs
  · rw [Int8.toInt_ofIntLE]
    omega
  · omega
  · omega

theorem toInt_toInt16 (x : Float) :
    (toInt16 x).toInt = max (-32768) (min 32767 (x.toModel.unpack.toInt (-32768) 32767)) := by
  have hclamp : toInt16 x = Int16.ofIntClamp (x.toModel.unpack.toInt (-32768) 32767) := rfl
  have hmin : Int16.minValue.toInt = -32768 := rfl
  have hmax : Int16.maxValue.toInt = 32767 := rfl
  rw [hclamp, Int16.ofIntClamp]
  split_ifs
  · rw [Int16.toInt_ofIntLE]
    omega
  · omega
  · omega

theorem toInt_toInt32 (x : Float) :
    (toInt32 x).toInt = max (-2147483648)
      (min 2147483647 (x.toModel.unpack.toInt (-2147483648) 2147483647)) := by
  have hclamp : toInt32 x =
      Int32.ofIntClamp (x.toModel.unpack.toInt (-2147483648) 2147483647) := rfl
  have hmin : Int32.minValue.toInt = -2147483648 := rfl
  have hmax : Int32.maxValue.toInt = 2147483647 := rfl
  rw [hclamp, Int32.ofIntClamp]
  split_ifs
  · rw [Int32.toInt_ofIntLE]
    omega
  · omega
  · omega

/-- An integer in range is converted to itself. -/
theorem toInt_of_value {x : Float} {lo hi n : ℤ} (hx : value x = some ((n : ℝ) : EReal))
    (hlo : lo ≤ n) (hhi : n ≤ hi) : x.toModel.unpack.toInt lo hi = n := by
  obtain ⟨hle, hge⟩ := toInt_cross hx hlo hhi
  exact le_antisymm (hge le_rfl) (hle le_rfl)

-- The integers survive the conversion to `double` and back.

theorem toUInt8_toFloat (v : UInt8) : v.toFloat.toUInt8 = v := by
  have hlt := v.toNat_lt
  have hint := @toInt_of_value _ 0 255 _ (value_ofUInt8 v) (by omega) (by omega)
  have hnat := toNat_toUInt8 v.toFloat
  apply UInt8.toNat_inj.mp
  omega

theorem toUInt16_toFloat (v : UInt16) : v.toFloat.toUInt16 = v := by
  have hlt := v.toNat_lt
  have hint := @toInt_of_value _ 0 65535 _ (value_ofUInt16 v) (by omega) (by omega)
  have hnat := toNat_toUInt16 v.toFloat
  apply UInt16.toNat_inj.mp
  omega

theorem toUInt32_toFloat (v : UInt32) : v.toFloat.toUInt32 = v := by
  have hlt := v.toNat_lt
  have hint := @toInt_of_value _ 0 4294967295 _ (value_ofUInt32 v) (by omega) (by omega)
  have hnat := toNat_toUInt32 v.toFloat
  apply UInt32.toNat_inj.mp
  omega

theorem toInt8_ofInt (v : Int8) : toInt8 (Float.ofInt v.toInt) = v := by
  have hle := v.le_toInt
  have hlt := v.toInt_lt
  have hval := value_ofInt (n := v.toInt) (by omega)
  have hint := @toInt_of_value _ (-128) 127 _ hval (by omega) (by omega)
  have hconv := toInt_toInt8 (Float.ofInt v.toInt)
  apply Int8.toInt_inj.mp
  omega

theorem toInt16_ofInt (v : Int16) : toInt16 (Float.ofInt v.toInt) = v := by
  have hle := v.le_toInt
  have hlt := v.toInt_lt
  have hval := value_ofInt (n := v.toInt) (by omega)
  have hint := @toInt_of_value _ (-32768) 32767 _ hval (by omega) (by omega)
  have hconv := toInt_toInt16 (Float.ofInt v.toInt)
  apply Int16.toInt_inj.mp
  omega

theorem toInt32_ofInt (v : Int32) : toInt32 (Float.ofInt v.toInt) = v := by
  have hle := v.le_toInt
  have hlt := v.toInt_lt
  have hval := value_ofInt (n := v.toInt) (by omega)
  have hint := @toInt_of_value _ (-2147483648) 2147483647 _ hval (by omega) (by omega)
  have hconv := toInt_toInt32 (Float.ofInt v.toInt)
  apply Int32.toInt_inj.mp
  omega

end CFloat
