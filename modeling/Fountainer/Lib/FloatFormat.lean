import Mathlib

/-!
# Rounding and order of floating-point formats

Lean's model of floats unpacks a number into a mantissa and an exponent, in the form
that is canonical for its format. This file gives the unpacked numbers their values and
shows that the order of a format is that of the values, that packing loses nothing, and
that the conversion to a format never crosses a number of the format: what is not above
a bound is not above it after the conversion.
-/

namespace FloatFormat

open Float.Model (Format UnpackedFloat totalExponent)
open Float.Model.UnpackedFloat

/-- The magnitude of a mantissa and an exponent. -/
noncomputable def mag (m : ℕ) (e : ℤ) : ℝ := m * 2 ^ e

/-- The mantissa and exponent are those the format gives the magnitude. -/
structure Canonical (spec : Format) (m : ℕ) (e : ℤ) : Prop where
  lt : m < 2 ^ spec.mantissaBits
  min_le : spec.minExponent ≤ e
  normal : spec.minExponent < e → 2 ^ spec.mantissaBitsWithoutImplicit ≤ m

variable {spec : Format} {s : Sign} {m M : ℕ} {e E : ℤ}

theorem mag_shift (m k : ℕ) (e : ℤ) : mag (m * 2 ^ k) (e - k) = mag m e := by
  simp only [mag, Nat.cast_mul, Nat.cast_pow, Nat.cast_ofNat, zpow_sub₀ (two_ne_zero' ℝ),
    zpow_natCast]
  field_simp

theorem mag_le_mag_iff {a b : ℕ} : mag a e ≤ mag b e ↔ a ≤ b := by
  have hpos : (0 : ℝ) < 2 ^ e := by positivity
  rw [mag, mag, mul_le_mul_iff_left₀ hpos, Nat.cast_le]

theorem mag_lt_mag_iff {a b : ℕ} : mag a e < mag b e ↔ a < b := by
  rw [← not_le, mag_le_mag_iff, not_le]

theorem two_pow_le_mag {k : ℕ} (h : 2 ^ k ≤ m) : (2 : ℝ) ^ (k + e) ≤ mag m e := by
  rw [zpow_add₀ (two_ne_zero' ℝ), zpow_natCast, mag]
  gcongr
  exact_mod_cast h

theorem mag_lt_two_pow {k : ℕ} (h : m < 2 ^ k) : mag m e < (2 : ℝ) ^ (k + e) := by
  rw [zpow_add₀ (two_ne_zero' ℝ), zpow_natCast, mag]
  gcongr
  exact_mod_cast h

/-- Among canonical numbers the one with the smaller exponent is smaller. -/
theorem Canonical.mag_lt (hm : Canonical spec m e) (hM : Canonical spec M E) (h : e < E) :
    mag m e < mag M E := by
  have hlow := two_pow_le_mag (e := E) (hM.normal (lt_of_le_of_lt hm.min_le h))
  have hpow : (2 : ℝ) ^ (spec.mantissaBits + e) ≤ 2 ^ (spec.mantissaBitsWithoutImplicit + E) := by
    apply zpow_le_zpow_right₀ one_le_two
    rw [Format.mantissaBits]
    omega
  exact lt_of_lt_of_le (mag_lt_two_pow hm.lt) (hpow.trans hlow)

theorem Canonical.exponent_le (hm : Canonical spec m e) (hM : Canonical spec M E)
    (h : mag m e ≤ mag M E) : e ≤ E := by
  by_contra hlt
  exact absurd h (not_le.mpr (hM.mag_lt hm (not_le.mp hlt)))

/-- The order of canonical numbers is that of the exponents, then of the mantissas. -/
theorem Canonical.compare_eq (hm : Canonical spec m e) (hM : Canonical spec M E) :
    (compare e E).then (compare m M) = compare (mag m e) (mag M E) := by
  rcases lt_trichotomy e E with h | rfl | h
  · rw [compare_lt_iff_lt.mpr h, compare_lt_iff_lt.mpr (hm.mag_lt hM h)]
    rfl
  · rw [compare_eq_iff_eq.mpr rfl]
    change compare m M = _
    rcases lt_trichotomy m M with h | rfl | h
    · rw [compare_lt_iff_lt.mpr h, compare_lt_iff_lt.mpr (mag_lt_mag_iff.mpr h)]
    · rw [compare_eq_iff_eq.mpr rfl, compare_eq_iff_eq.mpr rfl]
    · rw [compare_gt_iff_gt.mpr h, compare_gt_iff_gt.mpr (mag_lt_mag_iff.mpr h)]
  · rw [compare_gt_iff_gt.mpr h, compare_gt_iff_gt.mpr (hM.mag_lt hm h)]
    rfl

/-- Shifting right keeps the high part of the mantissa. -/
theorem shiftRight_mantissa (em : ExtendedMantissa) (k : ℕ) :
    (em >>> k).mantissa = em.mantissa / 2 ^ k := by
  induction k with
  | zero => simp [HShiftRight.hShiftRight, Nat.repeat]
  | succ k ih =>
    change (em >>> k).mantissa / 2 = _
    rw [ih, Nat.div_div_eq_div_mul, Nat.pow_succ]

/-- No residual bit is set when the dropped bits are all zero. -/
theorem shiftRight_residue (m k : ℕ) (h : 2 ^ k ∣ m) :
    (ExtendedMantissa.mk m false false >>> k).roundBit = false ∧
      (ExtendedMantissa.mk m false false >>> k).stickyBit = false := by
  induction k with
  | zero => exact ⟨rfl, rfl⟩
  | succ k ih =>
    obtain ⟨n, rfl⟩ := h
    obtain ⟨hround, hsticky⟩ := ih (Dvd.intro (2 * n) (by ring))
    have hm := shiftRight_mantissa (ExtendedMantissa.mk (2 ^ (k + 1) * n) false false) k
    have hdiv : 2 ^ (k + 1) * n / 2 ^ k = 2 * n := by
      rw [pow_succ, mul_assoc, Nat.mul_div_cancel_left _ (by positivity)]
    refine ⟨?_, ?_⟩
    · change ((ExtendedMantissa.mk (2 ^ (k + 1) * n) false false >>> k).mantissa % 2 != 0) = false
      rw [hm]
      simp [hdiv]
    · change ((ExtendedMantissa.mk (2 ^ (k + 1) * n) false false >>> k).roundBit ||
        (ExtendedMantissa.mk (2 ^ (k + 1) * n) false false >>> k).stickyBit) = false
      rw [hround, hsticky]
      rfl

theorem roundedMantissa_bounds (em : ExtendedMantissa) :
    em.mantissa ≤ em.roundedMantissa ∧ em.roundedMantissa ≤ em.mantissa + 1 := by
  obtain ⟨m, round, sticky⟩ := em
  cases round <;> cases sticky <;>
    simp only [ExtendedMantissa.roundedMantissa, ExtendedMantissa.accuracy,
      Accuracy.roundToNearestEven] <;>
    omega

theorem roundedMantissa_exact {em : ExtendedMantissa} (hround : em.roundBit = false)
    (hsticky : em.stickyBit = false) : em.roundedMantissa = em.mantissa := by
  obtain ⟨m, round, sticky⟩ := em
  cases hround
  cases hsticky
  rfl

/-- The mantissa after `k` bits are rounded away. -/
def roundShift (m k : ℕ) : ℕ := (ExtendedMantissa.mk m false false >>> k).roundedMantissa

/-- Rounding does not go above an integer that the number is not above. -/
theorem roundShift_le {k n : ℕ} (h : m ≤ n * 2 ^ k) : roundShift m k ≤ n := by
  have hbound := roundedMantissa_bounds (ExtendedMantissa.mk m false false >>> k)
  rw [shiftRight_mantissa] at hbound
  by_cases hdvd : 2 ^ k ∣ m
  · obtain ⟨hround, hsticky⟩ := shiftRight_residue m k hdvd
    rw [roundShift, roundedMantissa_exact hround hsticky, shiftRight_mantissa]
    exact Nat.div_le_of_le_mul (by rwa [mul_comm])
  · have hlt : m / 2 ^ k < n := by
      apply (Nat.div_lt_iff_lt_mul (by positivity)).mpr
      apply lt_of_le_of_ne h
      rintro rfl
      exact hdvd (Dvd.intro_left n rfl)
    exact hbound.2.trans hlt

/-- Rounding does not go below an integer that the number is not below. -/
theorem le_roundShift {k n : ℕ} (h : n * 2 ^ k ≤ m) : n ≤ roundShift m k := by
  have hbound := roundedMantissa_bounds (ExtendedMantissa.mk m false false >>> k)
  rw [shiftRight_mantissa] at hbound
  exact ((Nat.le_div_iff_mul_le (by positivity)).mpr h).trans hbound.1

/-- The exponent that the format gives a number. -/
def target (spec : Format) (m : ℕ) (e : ℤ) : ℤ := spec.targetExponent (totalExponent m e)

theorem target_eq : target spec m e = max (m.log2 + e - spec.mantissaBitsWithoutImplicit)
    spec.minExponent := by
  rw [target, Format.targetExponent, totalExponent, Format.mantissaBits]
  push_cast
  congr 1
  ring

theorem target_shift (hm : 0 < m) (k : ℕ) : target spec (m * 2 ^ k) (e - k) = target spec m e := by
  have hlog : (m * 2 ^ k).log2 = m.log2 + k := by
    apply (Nat.log2_eq_iff (by positivity)).mpr
    obtain ⟨hle, hlt⟩ := (Nat.log2_eq_iff hm.ne').mp rfl
    rw [Nat.pow_add, Nat.add_right_comm, Nat.pow_add _ _ k]
    exact ⟨Nat.mul_le_mul_right _ hle, Nat.mul_lt_mul_of_pos_right hlt (by positivity)⟩
  rw [target_eq, target_eq, hlog]
  push_cast
  congr 1
  ring

/-- A mantissa within the format stays as it is. -/
theorem shiftToTargetExponent_of_lt (hm : m < 2 ^ spec.mantissaBits) (he : spec.minExponent ≤ e) :
    (shiftToTargetExponent spec m e .exact).1.mantissa = m ∧
      (shiftToTargetExponent spec m e .exact).2 = e := by
  have htarget : target spec m e ≤ e := by
    rw [target_eq]
    by_cases h0 : m = 0
    · subst h0
      rw [Nat.log2_zero]
      omega
    · have := (Nat.log2_lt h0).mpr hm
      rw [Format.mantissaBits] at this
      omega
  have hshift : (target spec m e - e).toNat = 0 := by omega
  change (ExtendedMantissa.mk m false false >>> (target spec m e - e).toNat).mantissa = m ∧
    e + (target spec m e - e).toNat = e
  rw [hshift]
  exact ⟨rfl, add_zero e⟩

/-- A mantissa that rounding has carried over is shifted once. -/
theorem shiftToTargetExponent_carry (he : spec.minExponent ≤ e) :
    (shiftToTargetExponent spec (2 ^ spec.mantissaBits) e .exact).1.mantissa =
        2 ^ spec.mantissaBitsWithoutImplicit ∧
      (shiftToTargetExponent spec (2 ^ spec.mantissaBits) e .exact).2 = e + 1 := by
  have htarget : target spec (2 ^ spec.mantissaBits) e = e + 1 := by
    rw [target_eq, Nat.log2_two_pow, Format.mantissaBits]
    omega
  have hshift : (e + 1 - e).toNat = 1 := by omega
  change (ExtendedMantissa.mk (2 ^ spec.mantissaBits) false false >>>
    (target spec (2 ^ spec.mantissaBits) e - e).toNat).mantissa = _ ∧
    e + (target spec (2 ^ spec.mantissaBits) e - e).toNat = _
  rw [htarget, hshift, shiftRight_mantissa]
  refine ⟨?_, rfl⟩
  change 2 ^ spec.mantissaBits / 2 ^ 1 = _
  rw [Format.mantissaBits, pow_add, Nat.mul_div_cancel_left _ (by positivity)]

/-- A magnitude with a sign; zero keeps the sign. -/
def ofMag (s : Sign) (m : ℕ) (e : ℤ) : UnpackedFloat :=
  if h : m = 0 then .zero s else .finite s m e (Nat.pos_of_ne_zero h)

/-- What rounding away the bits below the target exponent gives. -/
theorem roundWithAccuracy_spec (hm : 0 < m) (he : e ≤ target spec m e) :
    ∃ M E, roundWithAccuracy spec s m e .exact = ofMag s M E ∧ Canonical spec M E ∧
      mag M E = mag (roundShift m (target spec m e - e).toNat) (target spec m e) := by
  set t := target spec m e with ht
  set k := (t - e).toNat with hk
  set r := roundShift m k with hr
  have hfirst : (shiftToTargetExponent spec m e .exact).1.roundedMantissa = r := rfl
  have hexp : (shiftToTargetExponent spec m e .exact).2 = t := by
    change e + ((target spec m e - e).toNat : ℤ) = t
    omega
  have hmin : spec.minExponent ≤ t := by
    rw [ht, target_eq]
    exact le_max_right _ _
  obtain ⟨hlow, hhigh⟩ := (Nat.log2_eq_iff hm.ne').mp rfl
  have hle : r ≤ 2 ^ spec.mantissaBits := by
    apply roundShift_le
    rw [← pow_add]
    apply hhigh.le.trans
    apply Nat.pow_le_pow_right two_pos
    rw [Format.mantissaBits]
    have := @target_eq spec m e
    omega
  have hnormal : spec.minExponent < t → 2 ^ spec.mantissaBitsWithoutImplicit ≤ r := by
    intro hlt
    apply le_roundShift
    rw [← pow_add]
    refine le_trans (Nat.pow_le_pow_right two_pos ?_) hlow
    have := @target_eq spec m e
    omega
  have heq : roundWithAccuracy spec s m e .exact =
      ofMag s (shiftToTargetExponent spec r t .exact).1.mantissa
        (shiftToTargetExponent spec r t .exact).2 := by
    rw [← hfirst, ← hexp]
    rfl
  rw [heq]
  rcases hle.lt_or_eq with hlt | hcarry
  · obtain ⟨hmant, hE⟩ := shiftToTargetExponent_of_lt hlt hmin
    rw [hmant, hE]
    exact ⟨r, t, rfl, ⟨hlt, hmin, hnormal⟩, rfl⟩
  · obtain ⟨hmant, hE⟩ := shiftToTargetExponent_carry hmin
    rw [hcarry, hmant, hE]
    refine ⟨_, _, rfl, ⟨?_, by omega, fun _ => le_rfl⟩, ?_⟩
    · rw [Format.mantissaBits]
      exact Nat.pow_lt_pow_right one_lt_two (by omega)
    · rw [← mag_shift _ 1 (t + 1), Format.mantissaBits, add_comm 1, pow_add]
      simp

/-- A number as a multiple of a smaller power of two. -/
theorem mag_eq_of_le {t : ℤ} (h : t ≤ e) : mag m e = mag (m * 2 ^ (e - t).toNat) t := by
  have ht : e - (e - t).toNat = t := by omega
  rw [← mag_shift m (e - t).toNat e, ht]

/-- Rounding, against the multiples of the power of two that it rounds to. -/
theorem round_multiple (hm : 0 < m) :
    ∃ M E, UnpackedFloat.round spec s m e = ofMag s M E ∧ Canonical spec M E ∧
      ∀ n : ℕ, (mag m e ≤ mag n (target spec m e) → mag M E ≤ mag n (target spec m e)) ∧
        (mag n (target spec m e) ≤ mag m e → mag n (target spec m e) ≤ mag M E) := by
  set t := target spec m e with ht
  set a := (e - t).toNat with ha
  have htarget : target spec (m * 2 ^ a) (e - a) = t := target_shift hm a
  have heq : UnpackedFloat.round spec s m e =
    roundWithAccuracy spec s (m * 2 ^ a) (e - a) .exact := by
    rw [← Nat.shiftLeft_eq]
    rfl
  obtain ⟨M, E, hround, hcanon, hmag⟩ := roundWithAccuracy_spec (s := s)
    (Nat.mul_pos hm (Nat.two_pow_pos a)) (by rw [htarget]; omega : e - a ≤ target spec _ (e - a))
  rw [htarget] at hmag
  set k := (t - (e - a)).toNat with hk
  have hstep : ∀ n : ℕ, mag n t = mag (n * 2 ^ k) (e - a) := fun n => mag_eq_of_le (by omega)
  refine ⟨M, E, heq.trans hround, hcanon, fun n => ?_⟩
  rw [hmag, ← mag_shift m a e, mag_le_mag_iff, mag_le_mag_iff, hstep n, mag_le_mag_iff,
    mag_le_mag_iff]
  exact ⟨roundShift_le, le_roundShift⟩

/-- Rounding to a format gives a number of the format and never crosses one. -/
theorem round_spec (hm : 0 < m) :
    ∃ M E, UnpackedFloat.round spec s m e = ofMag s M E ∧ Canonical spec M E ∧
      ∀ M' E', Canonical spec M' E' →
        (mag m e ≤ mag M' E' → mag M E ≤ mag M' E') ∧
        (mag M' E' ≤ mag m e → mag M' E' ≤ mag M E) := by
  obtain ⟨M, E, hround, hcanon, hmul⟩ := @round_multiple spec s m e hm
  have ht := @target_eq spec m e
  have hlow : (2 : ℝ) ^ (m.log2 + e) ≤ mag m e := two_pow_le_mag (Nat.log2_self_le hm.ne')
  refine ⟨M, E, hround, hcanon, fun M' E' hcanon' => ⟨fun h => ?_, fun h => ?_⟩⟩
  · have hpow := (hlow.trans h).trans_lt (mag_lt_two_pow hcanon'.lt)
    have hexp := (zpow_lt_zpow_iff_right₀ one_lt_two).mp hpow
    have hle : target spec m e ≤ E' := by
      have hmin := hcanon'.min_le
      rw [Format.mantissaBits] at hexp
      omega
    rw [mag_eq_of_le hle] at h ⊢
    exact (hmul _).1 h
  · by_cases hle : target spec m e ≤ E'
    · rw [mag_eq_of_le hle] at h ⊢
      exact (hmul _).2 h
    · -- The number has a larger exponent, so it is rounded to at least a power of two.
      have hmin := hcanon'.min_le
      have hunit : Canonical spec (2 ^ spec.mantissaBitsWithoutImplicit) (target spec m e) := by
        refine ⟨?_, by omega, fun _ => le_rfl⟩
        rw [Format.mantissaBits]
        exact Nat.pow_lt_pow_right one_lt_two (by omega)
      have hreach : mag (2 ^ spec.mantissaBitsWithoutImplicit) (target spec m e) ≤ mag m e := by
        refine le_trans (le_of_eq ?_) hlow
        rw [mag, Nat.cast_pow, Nat.cast_ofNat, ← zpow_natCast, ← zpow_add₀ (two_ne_zero' ℝ)]
        congr 1
        omega
      exact (hcanon'.mag_lt hunit (by omega)).le.trans ((hmul _).2 hreach)

/-- The exponent is not so large that packing gives an infinity. -/
def Fits (spec : Format) (e : ℤ) : Prop :=
  e + spec.exponentBias + spec.mantissaBitsWithoutImplicit + 1 < 2 ^ spec.exponentBits

/-- A number of the format. -/
def WellFormed (spec : Format) : UnpackedFloat → Prop
  | .finite _ m e _ => Canonical spec m e ∧ Fits spec e
  | _ => True

theorem minExponent_eq (spec : Format) :
    spec.minExponent = 1 - spec.exponentBias - spec.mantissaBitsWithoutImplicit := by
  have hpos : 1 ≤ 2 ^ (spec.exponentBits - 1) := Nat.one_le_two_pow
  rw [Format.minExponent, Format.exponentBias, Format.mantissaBits, Nat.cast_sub hpos]
  push_cast
  ring

/-- The signed value of a magnitude. -/
noncomputable def signed (s : Sign) (x : EReal) : EReal :=
  match s with
  | .positive => x
  | .negative => -x

/-- The value of a float; `none` for not a number. -/
noncomputable def val : UnpackedFloat → Option EReal
  | .notANumber => none
  | .infinity s => some (signed s ⊤)
  | .zero _ => some 0
  | .finite s m e _ => some (signed s (mag m e : ℝ))

theorem mag_pos (hm : 0 < m) : 0 < mag m e := by
  unfold mag
  positivity

theorem Canonical.compare_lt_iff {hm : 0 < m} {hM : 0 < M} (h : Canonical spec m e)
    (H : Canonical spec M E) :
    UnpackedFloat.compare (.finite s m e hm) (.finite s M E hM) = some .lt ↔
      signed s (mag m e : ℝ) < signed s (mag M E : ℝ) := by
  cases s with
  | positive =>
    change some ((compare e E).then (compare m M)) = some .lt ↔ _
    rw [h.compare_eq H, Option.some_inj, compare_lt_iff_lt]
    exact EReal.coe_lt_coe_iff.symm
  | negative =>
    change some ((compare e E).then (compare m M)).swap = some .lt ↔ _
    rw [h.compare_eq H, Option.some_inj, Ordering.swap_eq_lt, compare_gt_iff_gt]
    simp [signed]

/-- The order of the numbers of a format is that of their values. -/
theorem lt_iff {a b : UnpackedFloat} (ha : WellFormed spec a) (hb : WellFormed spec b) :
    a.lt b = true ↔ ∃ x ∈ val a, ∃ y ∈ val b, x < y := by
  have hlt : a.lt b = true ↔ a.compare b = some .lt := by simp [UnpackedFloat.lt]
  rw [hlt]
  cases a with
  | notANumber => simp [UnpackedFloat.compare, val]
  | infinity s =>
    cases b with
    | notANumber => cases s <;> simp [UnpackedFloat.compare, val]
    | infinity t => cases s <;> cases t <;> simp [UnpackedFloat.compare, val, signed, compare]
    | zero t => cases s <;> simp [UnpackedFloat.compare, val, signed]
    | finite t M E hM =>
      cases s <;> cases t <;>
        simp [UnpackedFloat.compare, val, signed, ← EReal.coe_neg, EReal.bot_lt_coe]
  | zero s =>
    cases b with
    | notANumber => simp [UnpackedFloat.compare, val]
    | infinity t => cases t <;> simp [UnpackedFloat.compare, val, signed]
    | zero t => simp [UnpackedFloat.compare, val]
    | finite t M E hM =>
      have hpos := mag_pos (e := E) hM
      cases t <;> simp [UnpackedFloat.compare, val, signed, hpos, hpos.le]
  | finite s m e hm =>
    have hpos := mag_pos (e := e) hm
    cases b with
    | notANumber => simp [UnpackedFloat.compare, val]
    | infinity t =>
      cases s <;> cases t <;>
        simp [UnpackedFloat.compare, val, signed, ← EReal.coe_neg, EReal.coe_lt_top]
    | zero t => cases s <;> simp [UnpackedFloat.compare, val, signed, hpos, hpos.le]
    | finite t M E hM =>
      have hpos' := mag_pos (e := E) hM
      have hsame : ∀ s, UnpackedFloat.compare (.finite s m e hm) (.finite s M E hM) =
        some .lt ↔ _ :=
        fun s => ha.1.compare_lt_iff hb.1
      cases s <;> cases t
      · simpa [val] using hsame .negative
      · have : -mag m e < mag M E := by linarith
        simp [UnpackedFloat.compare, val, signed, ← EReal.coe_neg, this]
      · have : -mag M E ≤ mag m e := by linarith
        simp [UnpackedFloat.compare, val, signed, ← EReal.coe_neg, this]
      · simpa [val] using hsame .positive

/-- The comparison the other way round. -/
theorem compare_swap (a b : UnpackedFloat) :
    UnpackedFloat.compare b a = (UnpackedFloat.compare a b).map Ordering.swap := by
  cases a with
  | notANumber => cases b <;> rfl
  | infinity s =>
    cases b with
    | infinity t => cases s <;> cases t <;> rfl
    | notANumber | zero | finite => cases s <;> rfl
  | zero s =>
    cases b with
    | infinity t => cases t <;> rfl
    | finite t => cases t <;> rfl
    | notANumber | zero => rfl
  | finite s m e hm =>
    cases b with
    | notANumber => rfl
    | infinity t => cases t <;> rfl
    | zero t => cases s <;> rfl
    | finite t M E hM =>
      have hthen : (compare E e).then (compare M m) = ((compare e E).then (compare m M)).swap := by
        rw [Ordering.swap_then, ← Std.OrientedCmp.eq_swap, ← Std.OrientedCmp.eq_swap]
      cases s <;> cases t
      · change some ((compare E e).then (compare M m)).swap = some _
        rw [hthen]
      · rfl
      · rfl
      · change some ((compare E e).then (compare M m)) = some _
        rw [hthen]

/-- Two numbers can be compared. -/
theorem compare_ne_none {a b : UnpackedFloat} {x y : EReal} (hx : x ∈ val a) (hy : y ∈ val b) :
    UnpackedFloat.compare a b ≠ none := by
  cases a with
  | notANumber => cases hx
  | infinity s =>
    cases b with
    | notANumber => cases hy
    | infinity t => cases s <;> simp [UnpackedFloat.compare]
    | zero | finite => cases s <;> simp [UnpackedFloat.compare]
  | zero s =>
    cases b with
    | notANumber => cases hy
    | infinity t | finite t => cases t <;> simp [UnpackedFloat.compare]
    | zero => simp [UnpackedFloat.compare]
  | finite s m e hm =>
    cases b with
    | notANumber => cases hy
    | infinity t => cases t <;> simp [UnpackedFloat.compare]
    | zero => cases s <;> simp [UnpackedFloat.compare]
    | finite t => cases s <;> cases t <;> simp [UnpackedFloat.compare]

/-- The order with equality: of two numbers, the one that is not above the other. -/
theorem le_iff {a b : UnpackedFloat} (ha : WellFormed spec a) (hb : WellFormed spec b) :
    a.le b = true ↔ ∃ x ∈ val a, ∃ y ∈ val b, x ≤ y := by
  cases hx : val a with
  | none =>
    have hnan : a = .notANumber := by cases a <;> simp [val] at hx ⊢
    simp [hnan, UnpackedFloat.le, UnpackedFloat.compare]
  | some x =>
    cases hy : val b with
    | none =>
      have hnan : b = .notANumber := by cases b <;> simp [val] at hy ⊢
      have hnone : UnpackedFloat.compare a .notANumber = none := compare_swap .notANumber a
      simp [hnan, UnpackedFloat.le, hnone]
    | some y =>
      obtain ⟨o, ho⟩ := Option.ne_none_iff_exists'.mp (compare_ne_none hx hy)
      have hlt : b.lt a = true ↔ y < x := by
        rw [lt_iff hb ha, hx, hy]
        simp
      have hle : a.le b = true ↔ ¬ b.lt a = true := by
        rw [UnpackedFloat.le, UnpackedFloat.lt, compare_swap a b, ho]
        cases o <;> decide
      rw [hle, hlt]
      simp

/-- Equal numbers are those that are not above each other. -/
theorem beq_eq (a b : UnpackedFloat) : a.beq b = (a.le b && b.le a) := by
  rw [UnpackedFloat.beq, UnpackedFloat.le, UnpackedFloat.le, compare_swap a b]
  cases UnpackedFloat.compare a b with
  | none => rfl
  | some o => cases o <;> rfl

theorem toNat_one_append {n : ℕ} (f : BitVec n) : (1#1 ++ f).toNat = 2 ^ n + f.toNat := by
  rw [BitVec.toNat_append, ← Nat.shiftLeft_add_eq_or_of_lt f.isLt, Nat.shiftLeft_eq]
  simp

theorem exponent_zero_ne (spec : Format) : (0#_ : BitVec spec.exponentBits) ≠ -1#_ := by
  intro h
  have := congrArg BitVec.toNat h
  have hpos := Nat.one_lt_two_pow spec.he.ne'
  simp [BitVec.neg_one_eq_allOnes] at this
  omega

/-- Packing loses nothing of a number of the format. -/
theorem unpack_pack {u : UnpackedFloat} (hu : WellFormed spec u) :
    unpack spec (pack spec u) = u := by
  have hz := exponent_zero_ne spec
  cases u with
  | notANumber =>
    have hf : (1#_ : BitVec spec.mantissaBitsWithoutImplicit) <<<
        (spec.mantissaBitsWithoutImplicit - 1) ≠ 0#_ := by
      have hm := spec.hm
      intro h
      have hnat := congrArg BitVec.toNat h
      rw [BitVec.toNat_shiftLeft, BitVec.toNat_ofNat, Nat.mod_eq_of_lt (Nat.one_lt_two_pow hm.ne'),
        Nat.shiftLeft_eq, one_mul, Nat.mod_eq_of_lt (Nat.pow_lt_pow_right one_lt_two (by omega)),
        BitVec.toNat_zero] at hnat
      exact absurd hnat (by positivity)
    simp [pack, packedNaN, unpack, hf]
  | infinity s => simp [pack, packedInfinity, unpack]
  | zero s => simp [pack, packedZero, unpack, hz]
  | finite s m e hm =>
    obtain ⟨hcanon, hfits⟩ := hu
    have hmin := hcanon.min_le
    have hlt := hcanon.lt
    rw [minExponent_eq] at hmin
    rw [Fits] at hfits
    set b := (e + spec.exponentBias + spec.mantissaBitsWithoutImplicit).toNat with hb
    have hbits : ¬ 2 ^ spec.exponentBits ≤ b + 1 := by
      zify
      omega
    have hx : (BitVec.ofNat spec.exponentBits b).toNat = b := by
      rw [BitVec.toNat_ofNat, Nat.mod_eq_of_lt (by omega)]
    have hpack : pack spec (.finite s m e hm) =
        if m.log2 + 1 = spec.mantissaBits then packComponents spec s (.ofNat _ b) (.ofNat _ m)
        else packComponents spec s 0#_ (.ofNat _ m) := by
      rw [pack, if_neg hbits]
    rw [hpack]
    by_cases hnorm : m.log2 + 1 = spec.mantissaBits
    · rw [if_pos hnorm]
      obtain ⟨hle, -⟩ := (Nat.log2_eq_iff hm.ne').mp rfl
      rw [Format.mantissaBits, Nat.add_comm, Nat.add_left_cancel_iff] at hnorm
      rw [hnorm] at hle
      have hne1 : BitVec.ofNat spec.exponentBits b ≠ -1#_ := by
        intro h
        rw [h, BitVec.neg_one_eq_allOnes, BitVec.toNat_allOnes] at hx
        omega
      have hne0 : BitVec.ofNat spec.exponentBits b ≠ 0#_ := by
        intro h
        rw [h, BitVec.toNat_zero] at hx
        omega
      have hm' : (1#1 ++ BitVec.ofNat spec.mantissaBitsWithoutImplicit m).toNat = m := by
        rw [toNat_one_append, BitVec.toNat_ofNat]
        rw [Format.mantissaBits, pow_add] at hlt
        rw [Nat.mod_eq_sub_mod hle, Nat.mod_eq_of_lt (by omega)]
        omega
      simp only [unpack, unpackExponent_packComponents, unpackMantissa_packComponents,
        unpackSign_packComponents, Sign.ofBitVec_toBitVec, hne1, hne0, if_false, hx, hm',
        UnpackedFloat.finite.injEq, true_and]
      omega
    · rw [if_neg hnorm]
      have hsub : m < 2 ^ spec.mantissaBitsWithoutImplicit := by
        by_contra hge
        apply hnorm
        rw [Format.mantissaBits, Nat.add_comm 1]
        rw [Format.mantissaBits, Nat.add_comm] at hlt
        rw [(Nat.log2_eq_iff hm.ne').mpr ⟨not_lt.mp hge, hlt⟩]
      have he : e = spec.minExponent := by
        by_contra hne
        exact absurd (hcanon.normal (lt_of_le_of_ne hcanon.min_le (Ne.symm hne))) (not_le.mpr hsub)
      have hm' : (BitVec.ofNat spec.mantissaBitsWithoutImplicit m).toNat = m := by
        rw [BitVec.toNat_ofNat, Nat.mod_eq_of_lt hsub]
      have hf : BitVec.ofNat spec.mantissaBitsWithoutImplicit m ≠ 0#_ := by
        intro h
        rw [h, BitVec.toNat_zero] at hm'
        omega
      rw [minExponent_eq] at he
      simp only [unpack, unpackExponent_packComponents, unpackMantissa_packComponents,
        unpackSign_packComponents, Sign.ofBitVec_toBitVec, hz, hf, if_false, if_true,
        dite_false, hm',
        UnpackedFloat.finite.injEq, true_and, BitVec.toNat_zero]
      omega

/-- Packing turns a number beyond the format into an infinity. -/
theorem unpack_pack_overflow {hm : 0 < m} (h : ¬ Fits spec e) :
    unpack spec (pack spec (.finite s m e hm)) = .infinity s := by
  have hbits : 2 ^ spec.exponentBits ≤
      (e + spec.exponentBias + spec.mantissaBitsWithoutImplicit).toNat + 1 := by
    rw [Fits] at h
    zify
    omega
  have hpack : pack spec (.finite s m e hm) = pack spec (.infinity s) := if_pos hbits
  have hinf : WellFormed spec (.infinity s) := trivial
  rw [hpack, unpack_pack hinf]

/-- Whatever the bits, they stand for a number of the format. -/
theorem unpack_wellFormed (hspec : 1 < spec.exponentBits) (b : BitVec spec.numBits) :
    WellFormed spec (unpack spec b) := by
  have hmin := minExponent_eq spec
  have hpow : 2 ^ 2 ≤ 2 ^ spec.exponentBits := Nat.pow_le_pow_right two_pos hspec
  unfold unpack
  dsimp only
  split
  · split <;> trivial
  · next hinf =>
    split
    · next hzero =>
      split
      · trivial
      · refine ⟨⟨?_, ?_, ?_⟩, ?_⟩
        · refine (unpackMantissa b).isLt.trans_le (Nat.pow_le_pow_right two_pos ?_)
          exact Nat.le_add_left _ 1
        · rw [hzero, BitVec.toNat_zero]
          omega
        · intro hlt
          rw [hzero, BitVec.toNat_zero] at hlt
          omega
        · rw [hzero, BitVec.toNat_zero, Fits]
          zify at hpow
          omega
    · next hzero =>
      have hlt := (unpackMantissa b).isLt
      have hx := (unpackExponent b).isLt
      have hx0 : (unpackExponent b).toNat ≠ 0 :=
        fun h => hzero (BitVec.eq_of_toNat_eq (by simpa using h))
      have hx1 : (unpackExponent b).toNat ≠ 2 ^ spec.exponentBits - 1 := by
        intro h
        apply hinf
        apply BitVec.eq_of_toNat_eq
        rw [h, BitVec.neg_one_eq_allOnes, BitVec.toNat_allOnes]
      refine ⟨⟨?_, by omega, fun _ => ?_⟩, ?_⟩
      · rw [toNat_one_append, Format.mantissaBits, pow_add]
        omega
      · rw [toNat_one_append]
        exact Nat.le_add_right _ _
      · have hx' : (unpackExponent b).toNat + 1 < 2 ^ spec.exponentBits := by omega
        rw [Fits]
        zify at hx'
        omega

/-- Packing gives back the bits of a number. -/
theorem pack_unpack_number (hspec : 1 < spec.exponentBits) {b : BitVec spec.numBits}
    (h : unpack spec b ≠ .notANumber) : pack spec (unpack spec b) = b := by
  rw [pack_unpack b hspec, if_neg]
  intro hnan
  obtain ⟨hexponent, hmantissa⟩ := of_decide_eq_true hnan
  refine h ?_
  rw [unpack]
  simp only [hexponent, hmantissa, if_true, if_false]

/-- Numbers of the format with the same value are the same, but for the sign of a zero. -/
theorem val_inj {a b : UnpackedFloat} {x : EReal} (ha : WellFormed spec a) (hb : WellFormed spec b)
    (hx : x ≠ 0) (hva : x ∈ val a) (hvb : x ∈ val b) : a = b := by
  cases a with
  | notANumber => cases hva
  | zero s => exact absurd (Option.some.inj hva).symm hx
  | infinity s =>
    cases hva
    cases b with
    | notANumber => cases hvb
    | zero t => exact absurd (Option.some.inj hvb).symm hx
    | infinity t => cases s <;> cases t <;> simp [val, signed] at hvb ⊢
    | finite t M E hM =>
      cases s <;> cases t <;> simp [val, signed, ← EReal.coe_neg] at hvb
  | finite s m e hm =>
    cases hva
    cases b with
    | notANumber => cases hvb
    | zero t => exact absurd (Option.some.inj hvb).symm hx
    | infinity t => cases s <;> cases t <;> simp [val, signed, ← EReal.coe_neg] at hvb
    | finite t M E hM =>
      have hpos := mag_pos (e := e) hm
      have hpos' := mag_pos (e := E) hM
      have hmag : s = t ∧ mag m e = mag M E := by
        cases s <;> cases t <;> simp only [val, signed, Option.mem_def, Option.some.injEq,
          neg_inj, ← EReal.coe_neg, EReal.coe_eq_coe_iff] at hvb
        · exact ⟨rfl, by linarith⟩
        · linarith
        · linarith
        · exact ⟨rfl, hvb.symm⟩
      obtain ⟨rfl, hmag⟩ := hmag
      have hcompare := ha.1.compare_eq hb.1
      rw [compare_eq_iff_eq.mpr hmag, Ordering.then_eq_eq, compare_eq_iff_eq,
        compare_eq_iff_eq] at hcompare
      obtain ⟨rfl, rfl⟩ := hcompare
      rfl

/-- The magnitude is one of the format. -/
def IsMag (spec : Format) (x : EReal) : Prop :=
  x = ⊤ ∨ ∃ M E, Canonical spec M E ∧ Fits spec E ∧ x = (mag M E : ℝ)

theorem IsMag.nonneg {x : EReal} (h : IsMag spec x) : 0 ≤ x := by
  rcases h with rfl | ⟨M, E, -, -, rfl⟩
  · exact le_top
  · have : 0 ≤ mag M E := by
      unfold mag
      positivity
    exact EReal.coe_nonneg.mpr this

theorem WellFormed.val_eq (hspec : 1 < spec.exponentBits) {u : UnpackedFloat} {x : EReal}
    (hu : WellFormed spec u) (hx : x ∈ val u) : ∃ t y, IsMag spec y ∧ x = signed t y := by
  cases u with
  | notANumber => cases hx
  | infinity s =>
    cases hx
    exact ⟨s, ⊤, .inl rfl, rfl⟩
  | zero s =>
    cases hx
    refine ⟨.positive, 0, .inr ⟨0, spec.minExponent, ⟨by positivity, le_rfl, ?_⟩, ?_, ?_⟩, rfl⟩
    · intro h
      exact absurd h (lt_irrefl _)
    · have hpow : 2 ^ 2 ≤ 2 ^ spec.exponentBits := Nat.pow_le_pow_right two_pos hspec
      rw [Fits, minExponent_eq]
      zify at hpow
      omega
    · simp [mag]
  | finite s m e hm =>
    cases hx
    exact ⟨s, _, .inr ⟨m, e, hu.1, hu.2, rfl⟩, rfl⟩

/-- A number rounded to the format. -/
def toFormat (spec : Format) : UnpackedFloat → UnpackedFloat
  | .finite s m e _ => UnpackedFloat.round spec s m e
  | x => x

/-- A number converted to the format. -/
def convert (spec : Format) (u : UnpackedFloat) : UnpackedFloat :=
  unpack spec (pack spec (toFormat spec u))

/-- Rounding against the magnitudes of the format, infinity among them. -/
theorem cross_isMag {M : ℕ} {E : ℤ} (hcross : ∀ M' E', Canonical spec M' E' →
      (mag m e ≤ mag M' E' → mag M E ≤ mag M' E') ∧ (mag M' E' ≤ mag m e → mag M' E' ≤ mag M E))
    {y : EReal} (hy : IsMag spec y) :
    ((mag m e : ℝ) ≤ y → (mag M E : ℝ) ≤ y) ∧ (y ≤ (mag m e : ℝ) → y ≤ (mag M E : ℝ)) := by
  rcases hy with rfl | ⟨M', E', hcanon', -, rfl⟩
  · exact ⟨fun _ => le_top, fun h => absurd h (not_le.mpr (EReal.coe_lt_top _))⟩
  · simp only [EReal.coe_le_coe_iff]
    exact hcross M' E' hcanon'

/-- The conversion of a finite number never crosses a magnitude of the format. -/
theorem convert_finite (hm : 0 < m) :
    ∃ z : EReal, val (convert spec (.finite s m e hm)) = some (signed s z) ∧ 0 ≤ z ∧
      ∀ y, IsMag spec y → ((mag m e : ℝ) ≤ y → z ≤ y) ∧ (y ≤ (mag m e : ℝ) → y ≤ z) := by
  obtain ⟨M, E, hround, hcanon, hcross⟩ := @round_spec spec s m e hm
  have hconv : convert spec (.finite s m e hm) = unpack spec (pack spec (ofMag s M E)) := by
    rw [← hround]
    rfl
  rw [hconv, ofMag]
  by_cases hM : M = 0
  · subst hM
    have hzero : WellFormed spec (.zero s) := trivial
    rw [dif_pos rfl, unpack_pack hzero]
    refine ⟨(mag 0 E : ℝ), ?_, ?_, fun y hy => cross_isMag hcross hy⟩
    · cases s <;> simp [val, signed, mag]
    · simp [mag]
  · rw [dif_neg hM]
    by_cases hfits : Fits spec E
    · have hfinite : WellFormed spec (.finite s M E (Nat.pos_of_ne_zero hM)) := ⟨hcanon, hfits⟩
      rw [unpack_pack hfinite]
      exact ⟨_, rfl, (EReal.coe_pos.mpr (mag_pos (Nat.pos_of_ne_zero hM))).le,
        fun y hy => cross_isMag hcross hy⟩
    · rw [unpack_pack_overflow hfits]
      refine ⟨⊤, rfl, le_top, fun y hy => ⟨fun h => ?_, fun _ => le_top⟩⟩
      rcases hy with rfl | ⟨M', E', hcanon', hfits', rfl⟩
      · exact le_rfl
      · -- The result is not above a number that fits, so it would fit too.
        have hle := (hcross M' E' hcanon').1 (EReal.coe_le_coe_iff.mp h)
        have hE := hcanon.exponent_le hcanon' hle
        rw [Fits] at hfits hfits'
        omega

theorem convert_notANumber : convert spec .notANumber = .notANumber :=
  unpack_pack (u := .notANumber) trivial

theorem convert_infinity : convert spec (.infinity s) = .infinity s :=
  unpack_pack (u := .infinity s) trivial

theorem convert_zero : convert spec (.zero s) = .zero s :=
  unpack_pack (u := .zero s) trivial

/-- **The conversion to a format never crosses a number of the format.** -/
theorem convert_cross (hspec : 1 < spec.exponentBits) {u : UnpackedFloat} {x : EReal}
    (hx : x ∈ val u) :
    ∃ z ∈ val (convert spec u), ∀ v y, WellFormed spec v → y ∈ val v →
      (x ≤ y → z ≤ y) ∧ (y ≤ x → y ≤ z) := by
  cases u with
  | notANumber => cases hx
  | infinity s =>
    rw [convert_infinity]
    exact ⟨x, hx, fun v y _ _ => ⟨id, id⟩⟩
  | zero s =>
    rw [convert_zero]
    exact ⟨x, hx, fun v y _ _ => ⟨id, id⟩⟩
  | finite s m e hm =>
    cases hx
    obtain ⟨z, hz, hz0, hcross⟩ := @convert_finite spec s m e hm
    refine ⟨signed s z, hz, fun v y hv hy => ?_⟩
    obtain ⟨t, w, hw, rfl⟩ := hv.val_eq hspec hy
    have hw0 := hw.nonneg
    have hpos : (0 : EReal) < (mag m e : ℝ) := EReal.coe_pos.mpr (mag_pos hm)
    cases s <;> cases t
    · refine ⟨fun h => ?_, fun h => ?_⟩
      · exact EReal.neg_le_neg_iff.mpr ((hcross w hw).2 (EReal.neg_le_neg_iff.mp h))
      · exact EReal.neg_le_neg_iff.mpr ((hcross w hw).1 (EReal.neg_le_neg_iff.mp h))
    · refine ⟨fun _ => (EReal.neg_le_zero.mpr hz0).trans hw0, fun h => ?_⟩
      have hneg : -((mag m e : ℝ) : EReal) < 0 := EReal.neg_lt_zero.mpr hpos
      exact absurd (hw0.trans h) (not_le.mpr hneg)
    · refine ⟨fun h => ?_, fun _ => (EReal.neg_le_zero.mpr hw0).trans hz0⟩
      exact absurd (hpos.trans_le h) (not_lt.mpr (EReal.neg_le_zero.mpr hw0))
    · exact hcross w hw

/-- The conversion keeps the value of a number that the format has. -/
theorem convert_exact (hspec : 1 < spec.exponentBits) {u v : UnpackedFloat} {x : EReal}
    (hx : x ∈ val u) (hv : WellFormed spec v) (hval : x ∈ val v) : x ∈ val (convert spec u) := by
  obtain ⟨z, hz, hcross⟩ := convert_cross hspec hx
  obtain ⟨hle, hge⟩ := hcross v x hv hval
  rwa [le_antisymm (hge le_rfl) (hle le_rfl)]

/-- The conversion to an integer drops the fraction. -/
theorem roundToInt_eq : roundToInt s m e = s.apply ⌊mag m e⌋₊ := by
  change s.apply (ExtendedMantissa.mk (m <<< (e - 0).toNat) false false >>>
    (0 - (e - ((e - 0).toNat : ℤ))).toNat).mantissa = _
  rw [shiftRight_mantissa, Nat.shiftLeft_eq]
  congr 2
  dsimp only
  by_cases he : 0 ≤ e
  · have hexp : e = (e - 0).toNat := by omega
    have hmag : mag m e = (m * 2 ^ (e - 0).toNat : ℕ) := by
      rw [mag, hexp, zpow_natCast]
      push_cast
      rfl
    have hzero : (0 - (e - ((e - 0).toNat : ℤ))).toNat = 0 := by omega
    rw [hmag, Nat.floor_natCast, hzero, pow_zero, Nat.div_one]
  · have hzero : (e - 0).toNat = 0 := by omega
    have hexp : e = -((0 - (e - ((e - 0).toNat : ℤ))).toNat : ℤ) := by omega
    have hmag : mag m e = (m : ℝ) / (2 ^ (0 - (e - ((e - 0).toNat : ℤ))).toNat : ℕ) := by
      rw [mag]
      conv_lhs => rw [hexp]
      rw [zpow_neg, zpow_natCast]
      push_cast
      rfl
    rw [hmag, Nat.floor_div_eq_div, hzero, pow_zero, mul_one]

end FloatFormat
