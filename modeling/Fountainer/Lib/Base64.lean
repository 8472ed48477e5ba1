import Mathlib.Data.UInt
import Mathlib.Logic.Function.Basic

/-!
# Base64

The encoding of RFC 4648 with padding. Three bytes become four characters of six bits
each; one or two bytes at the end are padded with `=`. The encoding is injective, and its
characters are printable.
-/

namespace Base64

/-- The code of the character for six bits. -/
def code (n : ℕ) : ℕ :=
  if n < 26 then n + 65
  else if n < 52 then n + 71
  else if n < 62 then n - 4
  else if n = 62 then 43
  else 47

/-- The character for six bits. -/
def char (n : ℕ) : UInt8 := UInt8.ofNat (code n)

/-- The character `=`. -/
def pad : UInt8 := 61

/-- The encoding of a list of bytes. -/
def encode : List UInt8 → List UInt8
  | [] => []
  | [a] => [char (a.toNat / 4), char (a.toNat % 4 * 16), pad, pad]
  | [a, b] =>
    [char (a.toNat / 4), char (a.toNat % 4 * 16 + b.toNat / 16), char (b.toNat % 16 * 4), pad]
  | a :: b :: c :: rest =>
    char (a.toNat / 4) :: char (a.toNat % 4 * 16 + b.toNat / 16) ::
      char (b.toNat % 16 * 4 + c.toNat / 64) :: char (c.toNat % 64) :: encode rest

theorem char_toNat {n : ℕ} (h : n < 64) : (char n).toNat = code n := by
  have hcode : code n < 256 := by
    unfold code
    split_ifs <;> omega
  rw [char, UInt8.toNat_ofNat_of_lt' hcode]

/-- The six bits of a character. -/
def value (c : UInt8) : ℕ :=
  if 97 ≤ c.toNat then c.toNat - 71
  else if 65 ≤ c.toNat then c.toNat - 65
  else if 48 ≤ c.toNat then c.toNat + 4
  else if c.toNat = 43 then 62
  else 63

theorem value_char {n : ℕ} (h : n < 64) : value (char n) = n := by
  rw [value, char_toNat h]
  unfold code
  split_ifs <;> omega

theorem char_ne_pad {n : ℕ} (h : n < 64) : char n ≠ pad := by
  intro heq
  have hcode : code n = 61 := by rw [← char_toNat h, heq]; rfl
  unfold code at hcode
  split_ifs at hcode <;> omega

theorem char_ge {n : ℕ} (h : n < 64) : 43 ≤ (char n).toNat := by
  rw [char_toNat h]
  unfold code
  split_ifs <;> omega

/-- The decoding of an encoding. -/
def decode : List UInt8 → List UInt8
  | w :: x :: y :: z :: rest =>
    let a := UInt8.ofNat (value w * 4 + value x / 16)
    let b := UInt8.ofNat (value x % 16 * 16 + value y / 4)
    let c := UInt8.ofNat (value y % 4 * 64 + value z)
    if y = pad then [a]
    else if z = pad then [a, b]
    else a :: b :: c :: decode rest
  | _ => []

theorem ofNat_toNat {a : UInt8} {n : ℕ} (h : n = a.toNat) : UInt8.ofNat n = a := by
  rw [h, UInt8.ofNat_toNat]

/-- Every character of an encoding is printable. -/
theorem encode_ge (xs : List UInt8) : ∀ x ∈ encode xs, 43 ≤ x.toNat := by
  fun_induction encode xs with
  | case1 => simp
  | case2 a =>
    have := a.toNat_lt
    simp only [List.forall_mem_cons]
    exact ⟨char_ge (by omega), char_ge (by omega), by decide, by decide, by simp⟩
  | case3 a b =>
    have := a.toNat_lt
    have := b.toNat_lt
    simp only [List.forall_mem_cons]
    exact ⟨char_ge (by omega), char_ge (by omega), char_ge (by omega), by decide, by simp⟩
  | case4 a b c rest ih =>
    have := a.toNat_lt
    have := b.toNat_lt
    have := c.toNat_lt
    simp only [List.forall_mem_cons]
    exact ⟨char_ge (by omega), char_ge (by omega), char_ge (by omega), char_ge (by omega), ih⟩

theorem encode_length (xs : List UInt8) : (encode xs).length = 4 * ((xs.length + 2) / 3) := by
  fun_induction encode xs with
  | case1 | case2 | case3 => simp
  | case4 a b c rest ih =>
    simp only [List.length_cons, ih]
    omega

theorem decode_encode (xs : List UInt8) : decode (encode xs) = xs := by
  fun_induction encode xs with
  | case1 => rfl
  | case2 a =>
    have := a.toNat_lt
    rw [decode, if_pos rfl, value_char (by omega), value_char (by omega)]
    rw [ofNat_toNat (a := a) (by omega)]
  | case3 a b =>
    have := a.toNat_lt
    have := b.toNat_lt
    rw [decode, if_neg (char_ne_pad (by omega)), if_pos rfl, value_char (by omega),
      value_char (by omega), value_char (by omega)]
    rw [ofNat_toNat (a := a) (by omega), ofNat_toNat (a := b) (by omega)]
  | case4 a b c rest ih =>
    have := a.toNat_lt
    have := b.toNat_lt
    have := c.toNat_lt
    rw [decode, if_neg (char_ne_pad (by omega)), if_neg (char_ne_pad (by omega)),
      value_char (by omega), value_char (by omega), value_char (by omega),
      value_char (by omega), ih]
    rw [ofNat_toNat (a := a) (by omega), ofNat_toNat (a := b) (by omega),
      ofNat_toNat (a := c) (by omega)]

theorem encode_injective : Function.Injective encode :=
  Function.LeftInverse.injective decode_encode

end Base64
