import Fountainer.Datapoints.Bounds
import Fountainer.Lib.Numerals
import Fountainer.Network.TaskCom

/-!
# Values through JSON and back

`dp_value_to_json` and `dp_value_from_json` for any point. Numbers and booleans come back as they
were. A 64-bit value travels as text, and what `strtoull` makes of the text depends on its prefix.
-/

namespace Fountainer.Network

open Bytes CFloat
open Datapoints
open Hex (upperDigit)
open Numerals

-- ════════════════════════════════════════════════════════════════════════
-- Numbers
-- ════════════════════════════════════════════════════════════════════════

section Numbers

variable {type : DpType} {m : Mem} {off : ℕ} {x : Float}

/-- A number read from a slot is stored as the bytes of the slot. -/
theorem numberBytes_slot (hx : dpSlotAsDouble type m off = some x) (hbool : type ≠ .bool)
    (hnan : x.isNaN = false) : numberBytes x type = .ok (read m off type.size) := by
  cases type with
  | bool => exact absurd rfl hbool
  | u64 | str => cases hx
  | u8 | enum =>
    cases hx
    rw [numberBytes, toUInt8_toFloat]
    rfl
  | i8 =>
    cases hx
    rw [numberBytes, toInt8_ofInt, UInt8.toUInt8_toInt8]
    rfl
  | u16 =>
    cases hx
    rw [numberBytes, toUInt16_toFloat, leU16_rdU16]
    rfl
  | i16 =>
    cases hx
    rw [numberBytes, toInt16_ofInt, UInt16.toUInt16_toInt16, leU16_rdU16]
    rfl
  | u32 =>
    cases hx
    rw [numberBytes, toUInt32_toFloat, leU32_rdU32]
    rfl
  | i32 =>
    cases hx
    rw [numberBytes, toInt32_ofInt, UInt32.toUInt32_toInt32, leU32_rdU32]
    rfl
  | f32 =>
    cases hx
    rw [isNaN_widen] at hnan
    rw [numberBytes, toBits_narrow_widen hnan, toBits_ofBits hnan, leU32_rdU32]
    rfl

end Numbers

-- ════════════════════════════════════════════════════════════════════════
-- Digits
-- ════════════════════════════════════════════════════════════════════════

section Digits

variable {base acc : ℕ} {vs : List ℕ}

theorem digitValue_upperDigit : ∀ v < 16, digitValue (upperDigit v) = some v := by
  decide

/-- The reading of digits stops at one that the base does not have. -/
theorem readDigits_upperHex (h : ∀ v ∈ vs, v < 16) :
    (readDigits base acc (vs.map upperDigit)).2 = [] ↔ ∀ v ∈ vs, v < base := by
  induction vs generalizing acc with
  | nil => simp [readDigits]
  | cons v vs ih =>
    obtain ⟨hv, hvs⟩ := List.forall_mem_cons.mp h
    rw [List.map_cons, readDigits, digitValue_upperDigit v hv, List.forall_mem_cons]
    by_cases hlt : v < base
    · simp only [if_pos hlt]
      rw [ih hvs, and_iff_right hlt]
    · simp [hlt]

theorem readDigits_number (h : ∀ v ∈ vs, v < 16) (hbase : ∀ v ∈ vs, v < base) :
    readDigits base acc (vs.map upperDigit) = (number base acc vs, []) := by
  induction vs generalizing acc with
  | nil => rfl
  | cons v vs ih =>
    obtain ⟨hv, hvs⟩ := List.forall_mem_cons.mp h
    obtain ⟨hlt, hlts⟩ := List.forall_mem_cons.mp hbase
    rw [List.map_cons, readDigits, digitValue_upperDigit v hv]
    simp only [if_pos hlt, ih hvs hlts, number_cons]

/-- The halves of the bytes, from the last byte on. -/
def nibbles (bytes : List UInt8) : List ℕ := Hex.halves bytes.reverse

theorem hexString_bytes (bytes : List UInt8) :
    (hexString bytes).bytes = (nibbles bytes).map upperDigit := by
  exact Hex.text_eq_map

theorem nibbles_lt {bytes : List UInt8} : ∀ v ∈ nibbles bytes, v < 16 := Hex.halves_lt

theorem length_nibbles (bytes : List UInt8) : (nibbles bytes).length = 2 * bytes.length := by
  rw [nibbles, Hex.length_halves, List.length_reverse]

/-- The base that `strtoull` takes for digits without a prefix. -/
def plainBase (vs : List ℕ) : ℕ := if vs.head? = some 0 then 8 else 10

/-- Sixteen digits keep their meaning without a prefix only where they stand for less than 8. -/
theorem number_plain_iff (h : ∀ v ∈ vs, v < 16) (hlen : vs.length = 16) :
    ((∀ v ∈ vs, v < plainBase vs) ∧ number (plainBase vs) 0 vs = number 16 0 vs) ↔
      number 16 0 vs < 8 := by
  have hne : vs ≠ [] := List.ne_nil_of_length_pos (by omega)
  obtain ⟨us, v, rfl⟩ : ∃ us v, vs = us ++ [v] :=
    ⟨_, _, (List.dropLast_append_getLast hne).symm⟩
  have hus : us ≠ [] := by
    rintro rfl
    simp at hlen
  have hbase : plainBase (us ++ [v]) < 16 := by
    rw [plainBase]
    split <;> omega
  -- With leading zeros the base is 8.
  have hoctal : (∀ w ∈ us, w = 0) → plainBase (us ++ [v]) = 8 := by
    intro hzero
    obtain ⟨u, us, rfl⟩ := List.exists_cons_of_ne_nil hus
    rw [hzero u List.mem_cons_self]
    rfl
  rw [number_eq_iff hbase, number_concat]
  constructor
  · intro ⟨hall, hzero⟩
    have hv := hall v (by simp)
    rw [hoctal hzero] at hv
    rw [(number_eq_zero (by decide)).mpr hzero]
    omega
  · intro hlt
    have hzero : ∀ w ∈ us, w = 0 := (number_eq_zero (b := 16) (by decide)).mp (by omega)
    rw [hoctal hzero]
    refine ⟨fun w hw => ?_, hzero⟩
    rcases List.mem_append.mp hw with hw | hw
    · rw [hzero w hw]
      decide
    · rw [List.mem_singleton.mp hw]
      omega

/-- The number that the halves of eight bytes stand for has these bytes. -/
theorem leU64_nibbles {bytes : List UInt8} (h : bytes.length = 8) :
    leU64 (UInt64.ofNat (number 16 0 (nibbles bytes))) = bytes := by
  match bytes, h with
  | [b0, b1, b2, b3, b4, b5, b6, b7], _ =>
    have h0 := b0.toNat_lt
    have h1 := b1.toNat_lt
    have h2 := b2.toNat_lt
    have h3 := b3.toNat_lt
    have h4 := b4.toNat_lt
    have h5 := b5.toNat_lt
    have h6 := b6.toNat_lt
    have h7 := b7.toNat_lt
    have hnumber : number 16 0 (nibbles [b0, b1, b2, b3, b4, b5, b6, b7]) = b0.toNat +
        b1.toNat * 256 + b2.toNat * 65536 + b3.toNat * 16777216 + b4.toNat * 4294967296 +
        b5.toNat * 1099511627776 + b6.toNat * 281474976710656 +
        b7.toNat * 72057594037927936 := by
      simp only [nibbles, Hex.halves, List.reverse_cons, List.reverse_nil, List.nil_append,
        List.cons_append, List.flatMap_cons, List.flatMap_nil, number_cons, number_nil]
      omega
    rw [hnumber, leU64_eq_ofNat, UInt64.toNat_ofNat', Nat.mod_eq_of_lt (by omega)]
    simp only [List.cons.injEq, and_true]
    refine ⟨?_, ?_, ?_, ?_, ?_, ?_, ?_, ?_⟩ <;> apply UInt8.toNat_inj.mp <;>
      rw [UInt8.toNat_ofNat'] <;> omega

/-- A string that starts with neither a space nor a sign is read from its base on. -/
theorem strtoull_cons {c : UInt8} {cs : List UInt8} (hspace : isSpace c = false) (hminus : c ≠ 45)
    (hplus : c ≠ 43) :
    strtoull (c :: cs) =
      let t := readBase (c :: cs)
      let r := readDigits t.1 0 t.2
      if r.2.length = t.2.length then none
      else if 2 ^ 64 ≤ r.1 then some (0xFFFFFFFFFFFFFFFF, r.2)
      else some (UInt64.ofNat r.1, r.2) := by
  have hminus' : (c == 45) = false := beq_false_of_ne hminus
  have hplus' : (c == 43) = false := beq_false_of_ne hplus
  simp [strtoull, hspace, hminus', hplus']

theorem upperDigit_start : ∀ v < 16, isSpace (upperDigit v) = false ∧
    upperDigit v ≠ 45 ∧ upperDigit v ≠ 43 ∧ upperDigit v ≠ 88 ∧ upperDigit v ≠ 120 ∧
    (upperDigit v = 48 ↔ v = 0) := by
  decide

/-- With the prefix `0x`, digits are read to the base 16. -/
theorem strtoull_prefixed (h : ∀ v ∈ vs, v < 16) (hne : vs ≠ []) (hfit : number 16 0 vs < 2 ^ 64) :
    strtoull (48 :: 120 :: vs.map upperDigit) = some (UInt64.ofNat (number 16 0 vs), []) := by
  obtain ⟨v, us, rfl⟩ := List.exists_cons_of_ne_nil hne
  have hv := h v List.mem_cons_self
  have hbase : readBase (48 :: 120 :: (v :: us).map upperDigit) =
      (16, (v :: us).map upperDigit) := by
    simp [readBase, digitValue_upperDigit v hv, hv]
  rw [strtoull_cons (by decide) (by decide) (by decide), hbase]
  simp only [readDigits_number h h]
  rw [if_neg (by simp), if_neg (not_le.mpr hfit)]

theorem readBase_plain (h : ∀ v ∈ vs, v < 16) :
    readBase (vs.map upperDigit) = (plainBase vs, vs.map upperDigit) := by
  match vs, h with
  | [], _ => rfl
  | v :: us, h =>
    obtain ⟨hv, hus⟩ := List.forall_mem_cons.mp h
    obtain ⟨-, -, -, -, -, hzero⟩ := upperDigit_start v hv
    by_cases hv0 : v = 0
    · subst hv0
      match us, hus with
      | [], _ => rfl
      | [u], _ => rfl
      | u :: w :: ws, hus =>
        obtain ⟨-, -, -, hupper, hlower, -⟩ := upperDigit_start u (hus u List.mem_cons_self)
        change (if _ then _ else _) = _
        rw [if_neg fun hx => hx.1.elim hupper hlower]
        rfl
    · have hne : upperDigit v ≠ 48 := fun heq => hv0 (hzero.mp heq)
      rw [plainBase, if_neg (by simpa using hv0), List.map_cons]
      unfold readBase
      split
      · next heq => exact absurd (List.cons.inj heq).1 hne
      · next heq => exact absurd (List.cons.inj heq).1 hne
      · rfl

/-- Digits without a prefix are read to the base that the first one suggests. -/
theorem strtoull_plain (h : ∀ v ∈ vs, v < 16) (hne : vs ≠ [])
    (hfit : number (plainBase vs) 0 vs < 2 ^ 64) (x : UInt64) :
    strtoull (vs.map upperDigit) = some (x, []) ↔
      (∀ v ∈ vs, v < plainBase vs) ∧ x = UInt64.ofNat (number (plainBase vs) 0 vs) := by
  have hbase := readBase_plain h
  obtain ⟨v, us, hcons⟩ := List.exists_cons_of_ne_nil hne
  obtain ⟨hspace, hminus, hplus, -⟩ := upperDigit_start v (h v (hcons ▸ List.mem_cons_self))
  have hdigits : vs.map upperDigit = upperDigit v :: us.map upperDigit := by
    rw [hcons, List.map_cons]
  rw [hdigits, strtoull_cons hspace hminus hplus, ← hdigits, hbase]
  dsimp only
  by_cases hall : ∀ v ∈ vs, v < plainBase vs
  · have hlen : ([] : List UInt8).length ≠ (vs.map upperDigit).length := by
      rw [List.length_map]
      exact (List.length_pos_iff.mpr hne).ne
    rw [readDigits_number h hall, if_neg hlen, if_neg (not_le.mpr hfit), and_iff_right hall]
    simp [eq_comm]
  · have hrest := mt (@readDigits_upperHex _ 0 _ h).mp hall
    simp only [hall, false_and, iff_false]
    split
    · simp
    · split <;> simp [hrest]

end Digits

-- ════════════════════════════════════════════════════════════════════════
-- The codec
-- ════════════════════════════════════════════════════════════════════════

/-- The string at an offset of the image, which ends inside of its slot. -/
def stringAt (img : Mem) (off : ℕ) : CString where
  bytes := (read img off (dpStrMax - 1)).takeWhile (· ≠ 0)
  nonzero b hb := by simpa using List.mem_takeWhile_imp hb

/-- `dp_value_to_json`, for a point of any catalogue. -/
def dpValueToJsonAt (d : DpDesc) (img : Mem) : Json :=
  match d.type with
  | .bool => .bool (img d.off != 0)
  | .u64 => .string (hexString (d.slot img))
  | .str => .string (stringAt img d.off)
  | type => .number ((dpSlotAsDouble type img d.off).getD 0)

/-- For a point of the product's catalogue this is the conversion of the answers. -/
theorem dpValueToJsonAt_eq {d : DpDesc} (h : dpFind dpList d.name = some d) (img : Mem) :
    dpValueToJsonAt d img = dpValueToJson d img := by
  have hoff : imgOff d.name = d.off := by rw [imgOff, h, Option.map_some, Option.getD_some]
  have hfield : fieldString img d.name = stringAt img (imgOff d.name) := rfl
  cases htype : d.type <;> simp only [dpValueToJson, dpValueToJsonAt, htype, hfield, hoff]

/-- What a slot holds that the firmware has filled: a boolean is 0 or 1, a `float` is a number,
    a string is terminated and padded with zeros, and a number is within the bounds. -/
structure SlotFilled (d : DpDesc) (img : Mem) : Prop where
  bool : d.type = .bool → img d.off = 0 ∨ img d.off = 1
  float : d.type = .f32 → (Float32.ofBits (rdU32 img d.off)).isNaN = false
  str : d.type = .str → ∃ s : CString, s.bytes.length < dpStrMax ∧
    d.slot img = s.bytes ++ List.replicate (dpStrMax - s.bytes.length) 0
  bounds : d.type ≠ .bool → ∀ x ∈ dpSlotAsDouble d.type img d.off, d.within x = true

/-- A number within its bounds is taken. -/
theorem inRange_of_within {d : DpPoint} {x : Float} (h : d.within x = true) :
    d.inRange x = true := by
  obtain ⟨hmin, hmax⟩ := DpPoint.within_iff.mp h
  refine DpPoint.inRange_iff.mpr ⟨fun mn hmn hlt => ?_, fun mx hmx hlt => ?_⟩
  · exact (le_iff_not_lt (isNaN_of_le (hmin mn hmn)).1 (isNaN_of_le (hmin mn hmn)).2).mp
      (hmin mn hmn) hlt
  · exact (le_iff_not_lt (isNaN_of_le (hmax mx hmx)).1 (isNaN_of_le (hmax mx hmx)).2).mp
      (hmax mx hmx) hlt

section Codec

variable {d : DpDesc} {img : Mem}

/-- A point of a numeric type takes a number in range. -/
theorem dpValueFromJson_inRange {p : DpPoint} {x : Float} (hbool : p.type ≠ .bool)
    (hu64 : p.type ≠ .u64) (hstr : p.type ≠ .str) (hrange : p.inRange x = true) :
    dpValueFromJson p (.number x) = numberBytes x p.type := by
  cases htype : p.type with
  | bool => exact absurd htype hbool
  | u64 => exact absurd htype hu64
  | str => exact absurd htype hstr
  | u8 | u16 | u32 | i8 | i16 | i32 | f32 | enum =>
    simp only [dpValueFromJson, htype, hrange, if_true]

theorem dpSlotAsDouble_isSome {type : DpType} (hu64 : type ≠ .u64) (hstr : type ≠ .str) (m : Mem)
    (off : ℕ) : ∃ x, dpSlotAsDouble type m off = some x := by
  cases type with
  | u64 => exact absurd rfl hu64
  | str => exact absurd rfl hstr
  | bool | u8 | u16 | u32 | i8 | i16 | i32 | f32 | enum => exact ⟨_, rfl⟩

theorem isNaN_of_slot {type : DpType} {m : Mem} {off : ℕ} {x : Float}
    (hx : dpSlotAsDouble type m off = some x)
    (hfloat : type = .f32 → (Float32.ofBits (rdU32 m off)).isNaN = false) : x.isNaN = false := by
  refine Bool.eq_false_iff.mpr fun hnan => ?_
  obtain ⟨htype, hbits⟩ := (isNaN_dpSlotAsDouble hx).mp hnan
  rw [hfloat htype] at hbits
  cases hbits

theorem roundTrip_number (hbool : d.type ≠ .bool) (hu64 : d.type ≠ .u64) (hstr : d.type ≠ .str)
    (h : SlotFilled d img) :
    dpValueFromJson d.toDpPoint (dpValueToJsonAt d img) = .ok (d.slot img) := by
  obtain ⟨x, hx⟩ := dpSlotAsDouble_isSome hu64 hstr img d.off
  have hjson : dpValueToJsonAt d img = .number x := by
    cases htype : d.type with
    | bool => exact absurd htype hbool
    | u64 => exact absurd htype hu64
    | str => exact absurd htype hstr
    | u8 | u16 | u32 | i8 | i16 | i32 | f32 | enum =>
      rw [htype] at hx
      simp only [dpValueToJsonAt, htype, hx, Option.getD_some]
  rw [hjson, dpValueFromJson_inRange hbool hu64 hstr (inRange_of_within (h.bounds hbool x hx)),
    numberBytes_slot hx hbool (isNaN_of_slot hx h.float)]
  rfl

theorem roundTrip_bool (htype : d.type = .bool) (h : SlotFilled d img) :
    dpValueFromJson d.toDpPoint (dpValueToJsonAt d img) = .ok (d.slot img) := by
  have hslot : d.slot img = [img d.off] := by
    rw [DpDesc.slot, DpDesc.size, htype]
    rfl
  simp only [hslot, dpValueToJsonAt, dpValueFromJson, htype]
  rcases h.bool htype with hzero | hone
  · rw [hzero]
    rfl
  · rw [hone]
    rfl

/-- A slot that is padded behind its string holds that string. -/
theorem stringAt_eq {off : ℕ} {s : CString} (hlen : s.bytes.length < dpStrMax)
    (hslot : read img off dpStrMax =
      s.bytes ++ List.replicate (dpStrMax - s.bytes.length) 0) :
    (stringAt img off).bytes = s.bytes := by
  have hread : read img off (dpStrMax - 1) =
      s.bytes ++ List.replicate (dpStrMax - 1 - s.bytes.length) 0 := by
    have htake := take_read img off dpStrMax (dpStrMax - 1)
    rw [hslot, List.take_append, List.take_of_length_le (by omega), List.take_replicate] at htake
    rw [Nat.min_eq_left (Nat.sub_le _ _)] at htake
    rw [← htake]
    congr 2
    omega
  have hs : ∀ b ∈ s.bytes, decide (b ≠ 0) = true := fun b hb => decide_eq_true (s.nonzero b hb)
  have hbytes : (stringAt img off).bytes =
      (read img off (dpStrMax - 1)).takeWhile (fun b => decide (b ≠ 0)) := rfl
  rw [hbytes, hread, List.takeWhile_append_of_pos hs]
  cases dpStrMax - 1 - s.bytes.length with
  | zero => simp
  | succ k => simp [List.replicate_succ]

theorem roundTrip_str (htype : d.type = .str) (h : SlotFilled d img) :
    dpValueFromJson d.toDpPoint (dpValueToJsonAt d img) = .ok (d.slot img) := by
  obtain ⟨s, hlen, hslot⟩ := h.str htype
  have hread : read img d.off dpStrMax =
      s.bytes ++ List.replicate (dpStrMax - s.bytes.length) 0 := by
    rw [← hslot, DpDesc.slot, DpDesc.size, htype]
    rfl
  simp only [dpValueToJsonAt, dpValueFromJson, htype, stringAt_eq hlen hread]
  rw [if_neg (not_le.mpr hlen), hslot]

/-- The value of bytes, the lowest one first. -/
def leValue (bytes : List UInt8) : ℕ := bytes.foldr (fun b n => n * 256 + b.toNat) 0

theorem number_nibbles (bytes : List UInt8) : number 16 0 (nibbles bytes) = leValue bytes := by
  induction bytes with
  | nil => rfl
  | cons b bs ih =>
    have hsplit : nibbles (b :: bs) = nibbles bs ++ [b.toNat / 16, b.toNat % 16] := by
      simp [nibbles, Hex.halves]
    rw [hsplit, number_append, ih]
    show (leValue bs * 16 + b.toNat / 16) * 16 + b.toNat % 16 = leValue bs * 256 + b.toNat
    omega

theorem roundTrip_u64_iff (htype : d.type = .u64) :
    dpValueFromJson d.toDpPoint (dpValueToJsonAt d img) = .ok (d.slot img) ↔
      leValue (d.slot img) < 8 := by
  have hlen : (d.slot img).length = 8 := by
    rw [DpDesc.slot, length_read, DpDesc.size, htype]
    rfl
  have hnibbles : (nibbles (d.slot img)).length = 16 := by rw [length_nibbles, hlen]
  have hbytes := leU64_nibbles hlen
  rw [← number_nibbles]
  have hlt := @nibbles_lt (d.slot img)
  generalize hvs : nibbles (d.slot img) = vs at hnibbles hbytes hlt ⊢
  have hne : vs ≠ [] := List.ne_nil_of_length_pos (by omega)
  have hfit : ∀ b ≤ 16, number b 0 vs < 2 ^ 64 := by
    intro b hb
    calc number b 0 vs ≤ number 16 0 vs := number_mono hb le_rfl
      _ < 16 ^ vs.length := number_lt_pow hlt
      _ = 2 ^ 64 := by rw [hnibbles]; norm_num
  have hbase : plainBase vs < 16 := by
    rw [plainBase]
    split <;> omega
  have hread := strtoull_plain hlt hne (hfit _ hbase.le)
  have hcodec : dpValueFromJson d.toDpPoint (dpValueToJsonAt d img) = .ok (d.slot img) ↔
      ∃ x, strtoull (vs.map upperDigit) = some (x, []) ∧ leU64 x = d.slot img := by
    simp only [dpValueFromJson, dpValueToJsonAt, htype, hexString_bytes, hvs]
    rcases hstr : strtoull (vs.map upperDigit) with _ | ⟨x, rest⟩
    · simp
    · cases rest with
      | nil => simp
      | cons c cs => simp
  rw [hcodec, ← number_plain_iff hlt hnibbles]
  constructor
  · rintro ⟨x, hx, hslot⟩
    obtain ⟨hall, rfl⟩ := (hread x).mp hx
    refine ⟨hall, ?_⟩
    have heq := leU64_inj (hslot.trans hbytes.symm)
    have hnat := congrArg UInt64.toNat heq
    rwa [UInt64.toNat_ofNat', UInt64.toNat_ofNat', Nat.mod_eq_of_lt (hfit _ hbase.le),
      Nat.mod_eq_of_lt (hfit _ le_rfl)] at hnat
  · rintro ⟨hall, heq⟩
    exact ⟨_, (hread _).mpr ⟨hall, rfl⟩, by rw [heq, hbytes]⟩

/-- `dp_value_to_json` and back: the bytes of a slot are reproduced unless it holds a 64-bit value
    from 8 on, whose sixteen digits are read as an octal or a decimal number. -/
theorem roundTrip_iff (d : DpDesc) (img : Mem) (h : SlotFilled d img) :
    dpValueFromJson d.toDpPoint (dpValueToJsonAt d img) = .ok (d.slot img) ↔
      (d.type = .u64 → leValue (d.slot img) < 8) := by
  by_cases hu64 : d.type = .u64
  · simp only [hu64, forall_const, roundTrip_u64_iff hu64]
  · simp only [hu64, IsEmpty.forall_iff, iff_true]
    by_cases hbool : d.type = .bool
    · exact roundTrip_bool hbool h
    by_cases hstr : d.type = .str
    · exact roundTrip_str hstr h
    · exact roundTrip_number hbool hu64 hstr h

end Codec

/-- A 64-bit point. -/
def examplePoint : DpDesc := { dp "Total" .u64 .rw .nvs 9 (.int 0) none none 0.0 with off := 0 }

theorem filled_examplePoint (img : Mem) : SlotFilled examplePoint img where
  bool h := nomatch h
  float h := nomatch h
  str h := nomatch h
  bounds _ _ hx := nomatch hx

/-- The image whose first byte is `b`. -/
def exampleImage (b : UInt8) : Mem := write (fun _ => 0) 0 [b]

theorem roundTrip_iff_seven :
    SlotFilled examplePoint (exampleImage 7) ∧
      (dpValueFromJson examplePoint.toDpPoint (dpValueToJsonAt examplePoint (exampleImage 7)) =
          .ok (examplePoint.slot (exampleImage 7)) ↔
        (examplePoint.type = .u64 → leValue (examplePoint.slot (exampleImage 7)) < 8)) :=
  ⟨filled_examplePoint _, roundTrip_iff examplePoint (exampleImage 7) (filled_examplePoint _)⟩

/-- The value 16 is written as `0000000000000010` and read as 8. -/
theorem roundTrip_sixteen :
    SlotFilled examplePoint (exampleImage 16) ∧
      dpValueFromJson examplePoint.toDpPoint (dpValueToJsonAt examplePoint (exampleImage 16)) =
        .ok [8, 0, 0, 0, 0, 0, 0, 0] ∧
      examplePoint.slot (exampleImage 16) ≠ [8, 0, 0, 0, 0, 0, 0, 0] :=
  ⟨filled_examplePoint _, by rfl, by decide⟩

end Fountainer.Network
