import Mathlib.Algebra.BigOperators.Group.List.Basic
import Mathlib.Data.List.Basic
import Mathlib.Logic.Function.Basic

/-!
# Hexadecimal texts

Bytes printed as two digits each. The letters are those of either case, so what a text says of its
bytes is stated for a digit function.
-/

namespace Hex

/-- A digit; the letters begin at `a`. -/
def digit (a n : ℕ) : UInt8 := UInt8.ofNat (if n < 10 then 48 + n else a + (n - 10))

def lowerDigit (n : ℕ) : UInt8 := digit 97 n

def upperDigit (n : ℕ) : UInt8 := digit 65 n

/-- The halves of the bytes, the upper one first. -/
def halves (bs : List UInt8) : List ℕ := bs.flatMap fun b => [b.toNat / 16, b.toNat % 16]

/-- The text of the bytes. -/
def text (digit : ℕ → UInt8) (bs : List UInt8) : List UInt8 :=
  bs.flatMap fun b => [digit (b.toNat / 16), digit (b.toNat % 16)]

variable {digit : ℕ → UInt8} {bs : List UInt8}

theorem halves_lt : ∀ v ∈ halves bs, v < 16 := by
  intro v hv
  obtain ⟨b, -, hb⟩ := List.mem_flatMap.mp hv
  have hlt := b.toNat_lt
  rcases List.mem_pair.mp hb with rfl | rfl <;> omega

theorem text_eq_map : text digit bs = (halves bs).map digit := by
  rw [halves, List.map_flatMap]
  rfl

theorem length_halves : (halves bs).length = 2 * bs.length := by
  simp [halves, List.length_flatMap, Nat.mul_comm]

@[simp] theorem length_text : (text digit bs).length = 2 * bs.length := by
  rw [text_eq_map, List.length_map, length_halves]

/-- A digit function without a zero byte makes texts without one. -/
theorem text_ne_zero (hdigit : ∀ n < 16, digit n ≠ 0) : ∀ c ∈ text digit bs, c ≠ 0 := by
  intro c hc
  rw [text_eq_map] at hc
  obtain ⟨v, hv, rfl⟩ := List.mem_map.mp hc
  exact hdigit v (halves_lt v hv)

theorem upperDigit_ne_zero : ∀ n < 16, upperDigit n ≠ 0 := by
  decide

theorem lowerDigit_inj : ∀ m < 16, ∀ n < 16, lowerDigit m = lowerDigit n → m = n := by
  decide

/-- Different digits make different texts. -/
theorem text_injective (hdigit : ∀ m < 16, ∀ n < 16, digit m = digit n → m = n) :
    Function.Injective (text digit) := by
  intro as bs h
  induction as generalizing bs with
  | nil =>
    cases bs with
    | nil => rfl
    | cons b bs => cases h
  | cons a as ih =>
    cases bs with
    | nil => cases h
    | cons b bs =>
      have ha := a.toNat_lt
      have hb := b.toNat_lt
      obtain ⟨hhigh, hlow, hrest⟩ : digit (a.toNat / 16) = digit (b.toNat / 16) ∧
          digit (a.toNat % 16) = digit (b.toNat % 16) ∧ text digit as = text digit bs := by
        simpa [text] using h
      have hhigh' := hdigit _ (by omega) _ (by omega) hhigh
      have hlow' := hdigit _ (by omega) _ (by omega) hlow
      rw [UInt8.toNat_inj.mp (by omega : a.toNat = b.toNat), ih hrest]

end Hex
