import Mathlib.Algebra.Order.Group.Nat
import Mathlib.Data.List.Induction
import Mathlib.Tactic.Ring

/-!
# Numerals

The number that a string of digits stands for, the leading digit first, and what becomes of it
when the digits are read to another base. Decimal texts come from `Nat.repr`.
-/

namespace Numerals

/-- The number that digits stand for, behind what has been read before. -/
def number (base acc : ℕ) (vs : List ℕ) : ℕ := vs.foldl (fun a v => a * base + v) acc

variable {b b' acc : ℕ} {vs : List ℕ} {v : ℕ}

@[simp] theorem number_nil : number b acc [] = acc := rfl

@[simp] theorem number_cons : number b acc (v :: vs) = number b (acc * b + v) vs := rfl

theorem number_append (us : List ℕ) : number b acc (us ++ vs) = number b (number b acc us) vs :=
  List.foldl_append ..

theorem number_concat : number b acc (vs ++ [v]) = number b acc vs * b + v := number_append vs

theorem number_mono {acc' : ℕ} (hb : b ≤ b') (hacc : acc ≤ acc') :
    number b acc vs ≤ number b' acc' vs := by
  induction vs generalizing acc acc' with
  | nil => exact hacc
  | cons v vs ih => exact ih (Nat.add_le_add_right (Nat.mul_le_mul hacc hb) v)

/-- Digits of the base are below its power. -/
theorem number_lt_pow (h : ∀ v ∈ vs, v < b) : number b 0 vs < b ^ vs.length := by
  induction vs using List.reverseRecOn with
  | nil => exact Nat.one_pos
  | append_singleton vs v ih =>
    have hv := h v (by simp)
    have hvs := ih fun w hw => h w (List.mem_append_left _ hw)
    rw [number_concat, List.length_append, List.length_singleton, pow_succ]
    calc number b 0 vs * b + v < number b 0 vs * b + b := by omega
      _ = (number b 0 vs + 1) * b := by ring
      _ ≤ b ^ vs.length * b := Nat.mul_le_mul_right _ hvs

theorem number_eq_zero (hb : 0 < b) : number b 0 vs = 0 ↔ ∀ v ∈ vs, v = 0 := by
  induction vs using List.reverseRecOn with
  | nil => simp
  | append_singleton vs v ih =>
    rw [number_concat, Nat.add_eq_zero_iff, Nat.mul_eq_zero, or_iff_left hb.ne', ih]
    simp [or_imp, forall_and]

/-- Digits read to two bases give the same number only where all but the last are zero. -/
theorem number_eq_iff (h : b < b') :
    number b 0 (vs ++ [v]) = number b' 0 (vs ++ [v]) ↔ ∀ w ∈ vs, w = 0 := by
  have hle := @number_mono b b' 0 vs 0 h.le le_rfl
  rw [number_concat, number_concat, ← number_eq_zero (Nat.zero_lt_of_lt h),
    Nat.add_right_cancel_iff]
  constructor
  · intro heq
    by_contra hne
    have hpos : 0 < number b' 0 vs := Nat.pos_of_ne_zero hne
    have hlt : number b 0 vs * b < number b' 0 vs * b' :=
      lt_of_le_of_lt (Nat.mul_le_mul_right b hle) (Nat.mul_lt_mul_of_pos_left h hpos)
    omega
  · intro hzero
    have hzero' : number b 0 vs = 0 := by omega
    rw [hzero, hzero', Nat.zero_mul, Nat.zero_mul]

/-- Two numbers with one decimal text are one. -/
theorem repr_injective : Function.Injective Nat.repr := by
  intro m n h
  rw [← Nat.ofDigitChars_ten_toDigits (n := m), ← Nat.ofDigitChars_ten_toDigits (n := n),
    ← Nat.toList_repr, ← Nat.toList_repr, h]

theorem isDigit_of_mem_repr {n : ℕ} {c : Char} (hc : c ∈ n.repr.toList) : c.isDigit := by
  rw [Nat.toList_repr] at hc
  exact Nat.isDigit_of_mem_toDigits (by decide) (by decide) hc

/-- The text of an integer has a sign and digits. -/
theorem of_mem_toString_int {n : ℤ} {c : Char} (hc : c ∈ (toString n).toList) :
    c = '-' ∨ c.isDigit := by
  rw [Int.toString_eq_repr, Int.repr_eq_if] at hc
  split_ifs at hc
  · exact .inr (isDigit_of_mem_repr hc)
  · rw [String.toList_append] at hc
    obtain hsign | hdigits := List.mem_append.mp hc
    · exact .inl (List.mem_singleton.mp hsign)
    · exact .inr (isDigit_of_mem_repr hdigits)

/-- The text of an integer below a power of ten has a character for each digit and one more. -/
theorem length_toString_int_le {n : ℤ} {k : ℕ} (hk : 0 < k) (hn : n.natAbs < 10 ^ k) :
    (toString n).toList.length ≤ k + 1 := by
  have hrepr : ∀ m : ℕ, m < 10 ^ k → m.repr.toList.length ≤ k := fun m hm => by
    rw [String.length_toList]
    exact (Nat.length_repr_le_iff hk).mpr hm
  rw [Int.toString_eq_repr, Int.repr_eq_if]
  split_ifs
  · exact (hrepr _ (by omega)).trans (Nat.le_succ k)
  · rw [String.toList_append, List.length_append]
    have hdigits := hrepr (-n).toNat (by omega)
    have hsign : "-".toList.length = 1 := rfl
    omega

theorem toString_int_injective : Function.Injective (toString : ℤ → String) := by
  have hsign : ∀ m n : ℕ, m.repr ≠ "-" ++ n.repr := by
    intro m n h
    have hmem : '-' ∈ m.repr.toList := by
      rw [h, String.toList_append]
      exact List.mem_append_left _ (by decide)
    exact absurd (isDigit_of_mem_repr hmem) (by decide)
  intro m n h
  rw [Int.toString_eq_repr, Int.toString_eq_repr, Int.repr_eq_if, Int.repr_eq_if] at h
  split_ifs at h with hm hn hn
  · have := repr_injective h
    omega
  · exact absurd h (hsign _ _)
  · exact absurd h.symm (hsign _ _)
  · have := repr_injective ((String.append_right_inj _).mp h)
    omega

end Numerals
