import Mathlib.Algebra.Order.Field.Basic
import Mathlib.Algebra.Order.Group.Unbundled.Abs
import Mathlib.Algebra.Field.Rat
import Mathlib.Algebra.Order.Ring.Rat
import Mathlib.Data.Rat.Cast.Defs

/-!
# Arithmetic of a C floating-point type

A control program compares and combines `float` values, but most of its safety
does not depend on what these operations compute. `FloatArith` names the
operations and assumes nothing about them, so a statement over an arbitrary
`FloatArith` type covers rounding, infinities and NaN. Two families of
instances matter: `Float32`, the arithmetic the hardware performs, and the
exact arithmetic of an ordered field, for statements about pressures and
thresholds as exact numbers.
-/

/-- The operations that C code performs on a `float`: no law is required. -/
class FloatArith (F : Type*) where
  add : F → F → F
  sub : F → F → F
  mul : F → F → F
  div : F → F → F
  lt : F → F → Bool
  le : F → F → Bool
  /-- A decimal literal of the source, as for `OfScientific`. -/
  literal : ℕ → Bool → ℕ → F
  /-- The conversion of an unsigned integer, `(float)n`. -/
  ofUnsigned : ℕ → F
  fabs : F → F
  sqrtf : F → F

namespace FloatArith

section Operations

variable {F : Type*} [FloatArith F]

-- Low priority: other types find their own operations first.
instance (priority := 50) : Add F := ⟨add⟩
instance (priority := 50) : Sub F := ⟨sub⟩
instance (priority := 50) : Mul F := ⟨mul⟩
instance (priority := 50) : Div F := ⟨div⟩
instance (priority := 50) : OfScientific F := ⟨literal⟩
instance (priority := 50) : LT F := ⟨fun x y => lt x y = true⟩
instance (priority := 50) : LE F := ⟨fun x y => le x y = true⟩
instance (priority := 50) : DecidableLT F := fun x y => inferInstanceAs (Decidable (lt x y = true))
instance (priority := 50) : DecidableLE F := fun x y => inferInstanceAs (Decidable (le x y = true))

/-- The conversion of a signed integer, `(float)n`. -/
def ofSigned (n : ℤ) : F :=
  if n < 0 then 0.0 - ofUnsigned n.natAbs else ofUnsigned n.natAbs

end Operations

/-- Single precision, as the target computes it. -/
instance : FloatArith Float32 where
  add := Float32.add
  sub := Float32.sub
  mul := Float32.mul
  div := Float32.div
  lt := Float32.lt
  le := Float32.le
  literal := OfScientific.ofScientific
  ofUnsigned := Float32.ofNat
  fabs := Float32.abs
  sqrtf := Float32.sqrt

/-- A square root on a type that need not have an exact one. -/
class SqrtOp (F : Type*) where
  sqrt : F → F

/-- Exact arithmetic in an ordered field: no rounding, no NaN. Only the square
    root comes from outside, as the field may lack one. -/
instance exact {K : Type*} [Field K] [LinearOrder K] [SqrtOp K] : FloatArith K where
  add x y := x + y
  sub x y := x - y
  mul x y := x * y
  div x y := x / y
  lt x y := decide (x < y)
  le x y := decide (x ≤ y)
  literal m s e := OfScientific.ofScientific m s e
  ofUnsigned n := (n : K)
  fabs x := |x|
  sqrtf := SqrtOp.sqrt

theorem ofSigned_of_nonneg {K : Type*} [Field K] [LinearOrder K] [SqrtOp K] {n : ℤ} (h : 0 ≤ n) :
    (ofSigned n : K) = n := by
  rw [ofSigned, if_neg (not_lt.mpr h)]
  show ((n.natAbs : ℕ) : K) = n
  rw [← Int.cast_natCast, Int.natAbs_of_nonneg h]

/-- A rational square root from below, with the denominator of the argument. -/
instance : SqrtOp ℚ where
  sqrt q := (Nat.sqrt (q.num.toNat * q.den) : ℚ) / q.den

end FloatArith
