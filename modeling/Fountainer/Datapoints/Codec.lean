import Fountainer.Datapoints.Catalog
import Fountainer.Lib.CFloat

/-!
# The JSON codec

`dpValueFromJson` parses one JSON value for a point, with the type and range checks of
the source; its result is the bytes of the slot. JSON numbers are `double`s, as in
cJSON, and a 64-bit value travels as a string that `strtoull` reads with base 0.
-/

namespace Fountainer.Datapoints

open Bytes CFloat

/-- A `cJSON` value. -/
inductive Json where
  | null
  | bool (b : Bool)
  | number (x : Float)
  | string (s : CString)
  | array (items : List Json)
  | object (fields : List (String × Json))

/-- The items below a value, in order, each with the key it carries. -/
def Json.children : Json → List (Option String × Json)
  | .array items => items.map (fun v => (none, v))
  | .object fields => fields.map (fun f => (some f.1, f.2))
  | _ => []

/-- The error codes of a rejected write. -/
inductive DpError where
  | unknownName
  | readOnly
  | typeMismatch
  | outOfRange
  | tooLong
  | constraintViolation
  deriving DecidableEq, Repr

/-- The text of the code in the answer. -/
def DpError.text : DpError → String
  | .unknownName => "unknown_name"
  | .readOnly => "read_only"
  | .typeMismatch => "type_mismatch"
  | .outOfRange => "out_of_range"
  | .tooLong => "too_long"
  | .constraintViolation => "constraint_violation"

/-- `isspace`. -/
def isSpace (c : UInt8) : Bool := c == 32 || (9 ≤ c && c ≤ 13)

/-- The value of a digit of any base up to 36. -/
def digitValue (c : UInt8) : Option ℕ :=
  if 48 ≤ c ∧ c ≤ 57 then some (c.toNat - 48)
  else if 65 ≤ c ∧ c ≤ 90 then some (c.toNat - 55)
  else if 97 ≤ c ∧ c ≤ 122 then some (c.toNat - 87)
  else none

/-- The number of the leading digits, and what follows them. -/
def readDigits (base acc : ℕ) : List UInt8 → ℕ × List UInt8
  | [] => (acc, [])
  | c :: cs =>
    match digitValue c with
    | some v => if v < base then readDigits base (acc * base + v) cs else (acc, c :: cs)
    | none => (acc, c :: cs)

/-- The base of a number with base 0, and its digits. -/
def readBase : List UInt8 → ℕ × List UInt8
  | 48 :: x :: c :: cs =>
    if (x = 88 ∨ x = 120) ∧ ((digitValue c).any (· < 16)) then (16, c :: cs)
    else (8, 48 :: x :: c :: cs)
  | 48 :: cs => (8, 48 :: cs)
  | cs => (10, cs)

/-- `strtoull` with base 0: the number and the rest of the string, or `none` when no
    digit stands at the front. A number out of range gives `ULLONG_MAX`. -/
def strtoull (s : List UInt8) : Option (UInt64 × List UInt8) :=
  let t := s.dropWhile isSpace
  let neg := t.head? == some 45
  let t := if t.head? == some 45 || t.head? == some 43 then t.tail else t
  let (base, t) := readBase t
  let (n, rest) := readDigits base 0 t
  if rest.length = t.length then none
  else if 2 ^ 64 ≤ n then some (0xFFFFFFFFFFFFFFFF, rest)
  else if neg then some (0 - UInt64.ofNat n, rest)
  else some (UInt64.ofNat n, rest)

/-- The range check shared by the numeric types. -/
def DpPoint.inRange (d : DpPoint) (num : Float) : Bool :=
  !(d.min.any (fun mn => num < widen mn)) && !(d.max.any (fun mx => num > widen mx))

/-- The bytes of a number converted to the type of the slot. -/
def numberBytes (num : Float) : DpType → Except DpError (List UInt8)
  | .u8 | .enum => .ok [num.toUInt8]
  | .i8 => .ok [(toInt8 num).toUInt8]
  | .u16 => .ok (leU16 num.toUInt16)
  | .i16 => .ok (leU16 (toInt16 num).toUInt16)
  | .u32 => .ok (leU32 num.toUInt32)
  | .i32 => .ok (leU32 (toInt32 num).toUInt32)
  | .f32 => .ok (leU32 (narrow num).toBits)
  | _ => .error .typeMismatch

/-- `dp_value_from_json`: the bytes for the slot, or the error code. -/
def dpValueFromJson (d : DpPoint) (v : Json) : Except DpError (List UInt8) :=
  match d.type, v with
  | .bool, .bool b => .ok [if b then 1 else 0]
  | .bool, _ => .error .typeMismatch
  | .u64, .string s =>
    match strtoull s.bytes with
    | some (x, []) => .ok (leU64 x)
    | _ => .error .typeMismatch
  | .u64, _ => .error .typeMismatch
  | .str, .string s =>
    if dpStrMax ≤ s.bytes.length then .error .tooLong
    else .ok (s.bytes ++ List.replicate (dpStrMax - s.bytes.length) 0)
  | .str, _ => .error .typeMismatch
  | type, .number num =>
    if d.inRange num then numberBytes num type else .error .outOfRange
  | _, _ => .error .typeMismatch

/-- A point of a numeric type takes numbers in range only. -/
theorem dpValueFromJson_number {d : DpPoint} {v : Json} {bs : List UInt8} (hbool : d.type ≠ .bool)
    (hu64 : d.type ≠ .u64) (hstr : d.type ≠ .str) (h : dpValueFromJson d v = .ok bs) :
    ∃ num, v = .number num ∧ d.inRange num = true ∧ numberBytes num d.type = .ok bs := by
  unfold dpValueFromJson at h
  split at h
  · next ht => exact absurd ht hbool
  · next ht _ => exact absurd ht hbool
  · next ht => exact absurd ht hu64
  · next ht _ => exact absurd ht hu64
  · next ht => exact absurd ht hstr
  · next ht _ => exact absurd ht hstr
  · next num _ _ _ =>
    split at h
    · next hrange => exact ⟨num, rfl, hrange, h⟩
    · cases h
  · cases h

theorem numberBytes_length {num : Float} {type : DpType} {bs : List UInt8}
    (h : numberBytes num type = .ok bs) : bs.length = type.size := by
  cases type <;> cases h <;> rfl

/-- An accepted value fills its slot. -/
theorem dpValueFromJson_length {d : DpPoint} {v : Json} {bs : List UInt8}
    (h : dpValueFromJson d v = .ok bs) : bs.length = d.type.size := by
  unfold dpValueFromJson at h
  split at h
  · next ht =>
    cases h
    rw [ht]
    rfl
  · cases h
  · next ht =>
    split at h
    · cases h
      rw [ht]
      rfl
    · cases h
  · cases h
  · next ht =>
    split at h
    · cases h
    · cases h
      rw [ht, List.length_append, List.length_replicate, DpType.size]
      omega
  · cases h
  · split at h
    · exact numberBytes_length h
    · cases h
  · cases h

end Fountainer.Datapoints
