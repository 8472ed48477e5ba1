import Fountainer.Lib.CFloat
import Fountainer.Lib.Delimited
import Fountainer.Lib.Numerals
import Fountainer.Protocol.Replay
import Mathlib.Data.List.Sort

/-!
# The canonical form

What `fp_auth_canon_build` writes for a cJSON value, whose keys are byte strings like its other
strings. Every word of it can be told apart from what follows: a string by its closing quote, the
other values by their brackets or by the comma or bracket behind them. So two values are written
alike only when they are equal up to the order of the keys, at every depth.
-/

namespace Fountainer.Protocol

open Bytes (CString)
open CFloat Delimited
open Datapoints (Json)

/-- A value of cJSON. -/
inductive CJson where
  | null
  | bool (b : Bool)
  | number (d : Float)
  | string (s : CString)
  | array (items : List CJson)
  | object (fields : List (CString × CJson))

namespace CJson

/-- The order of `cmp_name`. -/
def keyLe {α : Type*} (a b : CString × α) : Bool := !decide (b.1.bytes < a.1.bytes)

/-- A field of an object: the key, and what has been written for its value. -/
def writeField (f : CString × List UInt8) : List UInt8 := emitString f.1.bytes ++ [58] ++ f.2

section

variable (P : Primitives)

mutual

/-- `canon_write`. -/
def canonWrite : CJson → List UInt8
  | .object fields =>
    [123] ++ [44].intercalate (((canonFields fields).mergeSort keyLe).map writeField) ++ [125]
  | .array items => [91] ++ [44].intercalate (canonItems items) ++ [93]
  | .string s => emitString s.bytes
  | .number d => emitNumber P d
  | .bool true => text "true"
  | .bool false => text "false"
  | .null => text "null"

/-- The items of an array in canonical form. -/
def canonItems : List CJson → List (List UInt8)
  | [] => []
  | v :: vs => canonWrite v :: canonItems vs

/-- The fields of an object in canonical form, not yet sorted. -/
def canonFields : List (CString × CJson) → List (CString × List UInt8)
  | [] => []
  | (k, v) :: fs => (k, canonWrite v) :: canonFields fs

end

/-- `fp_auth_canon_build`. -/
def fpAuthCanonBuild (x : CJson) : List UInt8 := canonWrite P x

theorem canonItems_eq (vs : List CJson) : canonItems P vs = vs.map (canonWrite P) := by
  induction vs with
  | nil => rfl
  | cons v vs ih => rw [canonItems, ih, List.map_cons]

theorem canonFields_eq (fs : List (CString × CJson)) :
    canonFields P fs = fs.map fun f => (f.1, canonWrite P f.2) := by
  induction fs with
  | nil => rfl
  | cons f fs ih => rw [canonFields, ih, List.map_cons]

end

/-- The values are equal but for the order of the keys of their objects, at every depth. -/
inductive Same : CJson → CJson → Prop
  | null : Same .null .null
  | bool (b : Bool) : Same (.bool b) (.bool b)
  | number {d e : Float} (h : value d = value e) : Same (.number d) (.number e)
  | string (s : CString) : Same (.string s) (.string s)
  | array {xs ys : List CJson} (h : List.Forall₂ Same xs ys) : Same (.array xs) (.array ys)
  | object {fs fs' gs gs' : List (CString × CJson)} (hfs : fs.Perm fs') (hgs : gs.Perm gs')
      (hkeys : fs'.map Prod.fst = gs'.map Prod.fst)
      (h : List.Forall₂ Same (fs'.map Prod.snd) (gs'.map Prod.snd)) : Same (.object fs) (.object gs)

/-- The numbers are integers of at most 9·10¹⁵, and the keys of each object are different. -/
inductive InRange : CJson → Prop
  | null : InRange .null
  | bool (b : Bool) : InRange (.bool b)
  | number {d : Float} {n : ℤ} (hd : value d = some ((n : ℝ) : EReal)) (hn : |n| ≤ 9 * 10 ^ 15) :
      InRange (.number d)
  | string (s : CString) : InRange (.string s)
  | array {xs : List CJson} (h : ∀ x ∈ xs, InRange x) : InRange (.array xs)
  | object {fs : List (CString × CJson)} (hkeys : (fs.map Prod.fst).Nodup)
      (h : ∀ f ∈ fs, InRange f.2) : InRange (.object fs)

-- ════════════════════════════════════════════════════════════════════════
-- Strings
-- ════════════════════════════════════════════════════════════════════════

/-- The byte that a two-symbol escape stands for. -/
def unescape (c : UInt8) : UInt8 :=
  if c = 98 then 8
  else if c = 102 then 12
  else if c = 110 then 10
  else if c = 114 then 13
  else if c = 116 then 9
  else c

/-- The byte that two hexadecimal digits stand for, up to the 32 control characters. -/
def unhex (hi lo : UInt8) : UInt8 :=
  (if hi = 48 then 0 else 16) + if lo < 58 then lo - 48 else lo - 87

/-- The three forms of a byte in a string: itself, an escape of two symbols, or of six. -/
theorem emitByte_cases (b : UInt8) :
    (emitByte b = [b] ∧ b ≠ 92 ∧ b ≠ 34) ∨
      (∃ c, emitByte b = [92, c] ∧ c ≠ 117 ∧ unescape c = b) ∨
      ∃ hi lo, emitByte b = [92, 117, 48, 48, hi, lo] ∧ unhex hi lo = b := by
  rw [emitByte]
  split_ifs with h34 h92 h8 h12 h10 h13 h9 hctl
  · exact .inr (.inl ⟨34, rfl, by decide, h34.symm⟩)
  · exact .inr (.inl ⟨92, rfl, by decide, h92.symm⟩)
  · exact .inr (.inl ⟨98, rfl, by decide, h8.symm⟩)
  · exact .inr (.inl ⟨102, rfl, by decide, h12.symm⟩)
  · exact .inr (.inl ⟨110, rfl, by decide, h10.symm⟩)
  · exact .inr (.inl ⟨114, rfl, by decide, h13.symm⟩)
  · exact .inr (.inl ⟨116, rfl, by decide, h9.symm⟩)
  · refine .inr (.inr ⟨_, _, rfl, ?_⟩)
    have hdigits : ∀ n < 32, unhex (Hex.lowerDigit (n / 16)) (Hex.lowerDigit (n % 16)) =
      UInt8.ofNat n := by
      decide
    have hlt : b.toNat < 32 := hctl
    rw [hdigits _ hlt, UInt8.ofNat_toNat]
  · exact .inl ⟨rfl, h92, h34⟩

/-- A byte of a string ends by itself. -/
theorem delimits_emitByte (b : UInt8) : Delimits Anything Anything (· = ·) emitByte b := by
  intro c r s _ _ _ heq
  obtain ⟨hb, hb92, -⟩ | ⟨x, hb, hx, rfl⟩ | ⟨hi, lo, hb, rfl⟩ := emitByte_cases b <;>
    obtain ⟨hc, hc92, -⟩ | ⟨y, hc, hy, rfl⟩ | ⟨hi', lo', hc, rfl⟩ := emitByte_cases c <;>
    rw [hb, hc] at heq <;> simp_all

theorem emitByte_head (b : UInt8) (r : List UInt8) : (emitByte b ++ r).head? ≠ some 34 := by
  obtain ⟨hb, -, hb34⟩ | ⟨c, hb, -⟩ | ⟨hi, lo, hb, -⟩ := emitByte_cases b
  · rw [hb]
    exact fun h => hb34 (Option.some.inj h)
  · rw [hb]
    exact fun h => by simp at h
  · rw [hb]
    exact fun h => by simp at h

/-- A string ends at its closing quote. -/
theorem delimits_emitString (s : List UInt8) :
    Delimits Anything Anything (· = ·) emitString s := by
  have hbytes : Delimits (fun t => ∀ b ∈ t, Anything b) Anything (List.Forall₂ (· = ·))
      (fun t => t.flatMap emitByte ++ [34]) s :=
    delimits_flatMap (E := Anything) (fun b _ => delimits_emitByte b) (fun _ _ => trivial)
      (fun _ => trivial) (fun _ _ _ => trivial) fun b r _ => emitByte_head b r
  intro t r u _ hr hu heq
  obtain ⟨hst, hru⟩ := hbytes.cons 34 t r u (fun _ _ => trivial) hr hu heq
  exact ⟨List.forall₂_eq_eq_eq ▸ hst, hru⟩

-- ════════════════════════════════════════════════════════════════════════
-- Numbers
-- ════════════════════════════════════════════════════════════════════════

theorem text_injective : Function.Injective text := by
  intro s t h
  have harray : s.toUTF8.data = t.toUTF8.data := Array.toList_inj.mp h
  exact String.toByteArray_inj.mp (ByteArray.ext harray)

/-- A byte of a text belongs to a character of it. -/
theorem mem_text {s : String} {b : UInt8} (hb : b ∈ text s) :
    ∃ c ∈ s.toList, b ∈ String.utf8EncodeChar c := by
  rw [text, String.toUTF8, ← String.utf8Encode_toList, List.utf8Encode] at hb
  simpa using hb

/-- A digit or a sign. -/
def Numeric (b : UInt8) : Prop := b = 45 ∨ 48 ≤ b ∧ b ≤ 57

/-- A digit takes one byte. -/
theorem utf8Size_of_isDigit {c : Char} (h : c.isDigit) : c.utf8Size = 1 := by
  obtain ⟨-, hhi⟩ : 48 ≤ c.val ∧ c.val ≤ 57 := by simpa [Char.isDigit] using h
  have hhi' : c.val.toNat ≤ 57 := hhi
  exact if_pos (show c.val.toNat ≤ 127 by omega)

theorem numeric_printInt (n : ℤ) : ∀ b ∈ printInt n, Numeric b := by
  intro b hb
  obtain ⟨c, hc, hbc⟩ := mem_text hb
  obtain rfl | hdigit := Numerals.of_mem_toString_int hc
  · exact .inl (List.mem_singleton.mp hbc)
  · rw [String.utf8EncodeChar_eq_singleton (utf8Size_of_isDigit hdigit), List.mem_singleton] at hbc
    obtain ⟨hlo, hhi⟩ : 48 ≤ c.val ∧ c.val ≤ 57 := by simpa [Char.isDigit] using hdigit
    have hlo' : 48 ≤ c.val.toNat := hlo
    have hhi' : c.val.toNat ≤ 57 := hhi
    have hnat : b.toNat = c.val.toNat := by
      rw [hbc, UInt32.toNat_toUInt8]
      omega
    refine .inr ⟨?_, ?_⟩
    · change 48 ≤ b.toNat
      omega
    · change b.toNat ≤ 57
      omega

theorem printInt_injective : Function.Injective printInt :=
  text_injective.comp Numerals.toString_int_injective

/-- An integer is truncated to itself. -/
theorem truncate_of_value {d : Float} {n : ℤ} (h : value d = some ((n : ℝ) : EReal)) :
    truncate d = n := by
  have hint := @toInt_of_value d (min n 0) (max n 0) n h (min_le_left _ _) (le_max_left _ _)
  rw [truncate]
  rw [value] at h
  cases hu : d.toModel.unpack with
  | notANumber =>
    rw [hu] at h
    cases h
  | infinity s =>
    rw [hu] at h
    cases s <;> cases h
  | zero s => rw [hu] at hint; exact hint
  | finite s m e hm => rw [hu] at hint; exact hint

theorem value_limit : value 9.0e15 = some (((9 * 10 ^ 15 : ℤ) : ℝ) : EReal) := by
  have hlimit : (9.0e15 : Float) = Float.ofInt (9 * 10 ^ 15) := by decide +kernel
  rw [hlimit]
  exact value_ofInt (by decide)

/-- An integer of the range is written in decimal. -/
theorem emitNumber_of_value (P : Primitives) {d : Float} {n : ℤ}
    (hd : value d = some ((n : ℝ) : EReal)) (hn : |n| ≤ 9 * 10 ^ 15) :
    emitNumber P d = printInt n := by
  obtain ⟨hlow, hhigh⟩ := abs_le.mp hn
  have heq : (d == Float.ofInt n) = true :=
    beq_iff_value.mpr ⟨_, hd, value_ofInt (by omega)⟩
  have hge : d ≥ -9.0e15 := by
    refine le_iff_value.mpr ⟨_, ?_, _, hd, EReal.coe_le_coe_iff.mpr (Int.cast_le.mpr hlow)⟩
    change value (Float.neg 9.0e15) = _
    rw [value_neg, value_limit, Option.map_some, ← EReal.coe_neg, ← Int.cast_neg]
  have hle : d ≤ 9.0e15 :=
    le_iff_value.mpr ⟨_, hd, _, value_limit, EReal.coe_le_coe_iff.mpr (Int.cast_le.mpr hhigh)⟩
  rw [emitNumber, truncate_of_value hd, heq, decide_eq_true hge, decide_eq_true hle]
  rfl

-- ════════════════════════════════════════════════════════════════════════
-- The order of the keys
-- ════════════════════════════════════════════════════════════════════════

section Order

variable {α : Type*}

theorem keyLe_iff {a b : CString × α} : keyLe a b = true ↔ a.1.bytes ≤ b.1.bytes := by
  rw [keyLe, Bool.not_eq_true', decide_eq_false_iff_not, List.not_lt]

theorem pairwise_mergeSort_keyLe (fs : List (CString × α)) :
    (fs.mergeSort keyLe).Pairwise fun a b => keyLe a b = true := by
  refine List.pairwise_mergeSort (fun a b c hab hbc => ?_) (fun a b => ?_) fs
  · exact keyLe_iff.mpr (List.le_trans (keyLe_iff.mp hab) (keyLe_iff.mp hbc))
  · rw [Bool.or_eq_true, keyLe_iff, keyLe_iff]
    exact List.le_total _ _

/-- Fields of different keys have one sorted order. -/
theorem mergeSort_eq_of_perm {fs gs : List (CString × α)} (h : fs.Perm gs)
    (hkeys : (fs.map Prod.fst).Nodup) : fs.mergeSort keyLe = gs.mergeSort keyLe := by
  have hperm : (fs.mergeSort keyLe).Perm (gs.mergeSort keyLe) :=
    (List.mergeSort_perm fs keyLe).trans (h.trans (List.mergeSort_perm gs keyLe).symm)
  refine List.Perm.eq_of_pairwise (fun a b ha hb hab hba => ?_) (pairwise_mergeSort_keyLe fs)
    (pairwise_mergeSort_keyLe gs) hperm
  have hkey : a.1 = b.1 :=
    CString.ext (List.le_antisymm (keyLe_iff.mp hab) (keyLe_iff.mp hba))
  have ha' : a ∈ fs := List.mem_mergeSort.mp ha
  have hb' : b ∈ fs := h.mem_iff.mpr (List.mem_mergeSort.mp hb)
  exact List.inj_on_of_nodup_map hkeys ha' hb' hkey

end Order

-- ════════════════════════════════════════════════════════════════════════
-- Values
-- ════════════════════════════════════════════════════════════════════════

section Values

variable {P : Primitives} {x y : CJson}

/-- A field as it stands in the text of its object. -/
def fieldWord (P : Primitives) (f : CString × CJson) : List UInt8 :=
  emitString f.1.bytes ++ 58 :: canonWrite P f.2

/-- The text of an object: its fields in the order of their keys. -/
theorem canonWrite_object (fs : List (CString × CJson)) :
    canonWrite P (.object fs) =
      123 :: ([44].intercalate ((fs.mergeSort keyLe).map (fieldWord P)) ++ [125]) := by
  have hsort : (canonFields P fs).mergeSort keyLe =
      (fs.mergeSort keyLe).map fun f => (f.1, canonWrite P f.2) := by
    rw [canonFields_eq]
    exact (List.map_mergeSort (r := keyLe) (s := keyLe)
      (f := fun f : CString × CJson => (f.1, canonWrite P f.2)) fun _ _ _ _ => rfl).symm
  have hword : writeField ∘ (fun f : CString × CJson => (f.1, canonWrite P f.2)) =
      fieldWord P := by
    funext f
    exact List.append_assoc ..
  rw [canonWrite, hsort, List.map_map, hword]
  rfl

theorem canonWrite_array (xs : List CJson) :
    canonWrite P (.array xs) = 91 :: ([44].intercalate (xs.map (canonWrite P)) ++ [93]) := by
  rw [canonWrite, canonItems_eq]
  rfl

/-- The kind of a value, by what its text starts with. -/
def kind : CJson → ℕ
  | .object _ => 0
  | .array _ => 1
  | .string _ => 2
  | .number _ => 3
  | .bool true => 4
  | .bool false => 5
  | .null => 6

/-- The kind of the values whose text starts with the byte. -/
def kindOf (b : UInt8) : ℕ :=
  if b = 123 then 0
  else if b = 91 then 1
  else if b = 34 then 2
  else if b = 45 ∨ 48 ≤ b ∧ b ≤ 57 then 3
  else if b = 116 then 4
  else if b = 102 then 5
  else if b = 110 then 6
  else 7

theorem printInt_ne_nil (n : ℤ) : printInt n ≠ [] := by
  intro h
  have hempty : toString n = "" := text_injective h
  rw [Int.toString_eq_repr, Int.repr_eq_if] at hempty
  split_ifs at hempty
  · exact Nat.repr_ne_empty hempty
  · have := congrArg String.toList hempty
    rw [String.toList_append] at this
    exact absurd this (by simp)

theorem kindOf_of_numeric {b : UInt8} (h : Numeric b) : kindOf b = 3 := by
  have hne : ∀ c, ¬ Numeric c → b ≠ c := fun c hc hbc => hc (hbc ▸ h)
  have hother : ¬ Numeric 123 ∧ ¬ Numeric 91 ∧ ¬ Numeric 34 := by
    simp only [Numeric]
    decide
  rw [kindOf, if_neg (hne _ hother.1), if_neg (hne _ hother.2.1), if_neg (hne _ hother.2.2)]
  exact if_pos h

/-- The first byte tells the kind. -/
theorem kindOf_head (hx : x.InRange) (r : List UInt8) :
    ((canonWrite P x ++ r).head?).map kindOf = some x.kind := by
  cases hx with
  | null => rfl
  | bool b => cases b <;> rfl
  | string s => rfl
  | array h => rw [canonWrite_array]; rfl
  | object hkeys h => rw [canonWrite_object]; rfl
  | @number d n hd hn =>
    rw [canonWrite, emitNumber_of_value P hd hn]
    obtain ⟨b, bs, hbs⟩ := List.exists_cons_of_ne_nil (printInt_ne_nil n)
    have hb : Numeric b := numeric_printInt n b (hbs ▸ List.mem_cons_self)
    rw [hbs, List.cons_append, List.head?_cons, Option.map_some, kindOf_of_numeric hb]
    rfl

theorem kind_eq (hx : x.InRange) (hy : y.InRange) {r s : List UInt8}
    (h : canonWrite P x ++ r = canonWrite P y ++ s) : x.kind = y.kind := by
  have hhead := kindOf_head (P := P) hx r
  rw [h, kindOf_head hy s] at hhead
  exact (Option.some.inj hhead).symm

/-- No text starts with a closing bracket. -/
theorem head_ne (hx : x.InRange) {b : UInt8} (hb : kindOf b = 7) (r : List UInt8) :
    (canonWrite P x ++ r).head? ≠ some b := by
  intro h
  have hhead := kindOf_head (P := P) hx r
  rw [h, Option.map_some, hb] at hhead
  have := Option.some.inj hhead
  cases x with
  | bool b => cases b <;> cases this
  | null | number | string | array | object => cases this

theorem not_numeric {b : UInt8} (h : kindOf b ≠ 3) : ¬ Numeric b :=
  fun hb => h (kindOf_of_numeric hb)

theorem delimits_printInt (n : ℤ) : Delimits Anything (Ends Numeric) (· = ·) printInt n :=
  delimits_of_alphabet (fun m _ => numeric_printInt m) trivial
    fun _ _ h => printInt_injective h

/-- A field ends where its value ends. -/
theorem delimits_fieldWord {f : CString × CJson}
    (h : Delimits InRange (Ends Numeric) Same (canonWrite P) f.2) :
    Delimits (fun f => f.2.InRange) (Ends Numeric) (fun f g => f.1 = g.1 ∧ Same f.2 g.2)
      (fieldWord P) f := by
  intro g r s hg hr hs heq
  have hkey : Delimits Anything Anything (fun a b : CString => a = b)
      (fun k => emitString k.bytes) f.1 := by
    intro k r s _ hr hs heq
    obtain ⟨hbytes, hrs⟩ := delimits_emitString f.1.bytes k.bytes r s trivial hr hs heq
    exact ⟨CString.ext hbytes, hrs⟩
  exact (hkey.pair (h.cons 58) fun _ _ => trivial) g r s ⟨trivial, hg⟩ hr hs heq

/-- An array ends at its bracket. -/
theorem delimits_array {xs : List CJson} (h : ∀ x ∈ xs, x.InRange)
    (ih : ∀ x ∈ xs, Delimits InRange (Ends Numeric) Same (canonWrite P) x) :
    Delimits InRange (Ends Numeric) Same (canonWrite P) (.array xs) := by
  intro y r s hy hr hs heq
  have hkind := kind_eq (.array h) hy heq
  cases hy with
  | @array ys hys =>
    have hitems := (delimits_intercalate 44 93 ih h (ends_cons (not_numeric (by decide)))
      (ends_cons (not_numeric (by decide))) (by decide) fun x r hx => head_ne hx rfl r).cons 91
    rw [canonWrite_array, canonWrite_array] at heq
    obtain ⟨hsame, hrs⟩ := hitems ys r s hys trivial trivial heq
    exact ⟨.array hsame, hrs⟩
  | bool c => cases c <;> cases hkind
  | null | number | string | object => cases hkind

/-- An object ends at its bracket, and its fields are read in the order of their keys. -/
theorem delimits_object {fs : List (CString × CJson)} (hkeys : (fs.map Prod.fst).Nodup)
    (h : ∀ f ∈ fs, f.2.InRange)
    (ih : ∀ f ∈ fs, Delimits InRange (Ends Numeric) Same (canonWrite P) f.2) :
    Delimits InRange (Ends Numeric) Same (canonWrite P) (.object fs) := by
  intro y r s hy hr hs heq
  have hkind := kind_eq (.object hkeys h) hy heq
  cases hy with
  | @object gs _ hgs =>
    have hmem : ∀ f ∈ fs.mergeSort keyLe, f ∈ fs := fun f hf => List.mem_mergeSort.mp hf
    have hfields := (delimits_intercalate 44 125
      (fun f hf => delimits_fieldWord (ih f (hmem f hf))) (fun f hf => h f (hmem f hf))
      (ends_cons (not_numeric (by decide))) (ends_cons (not_numeric (by decide))) (by decide)
      fun f r _ h => by cases h).cons 123
    rw [canonWrite_object, canonWrite_object] at heq
    obtain ⟨hsame, hrs⟩ :=
      hfields _ r s (fun g hg => hgs g (List.mem_mergeSort.mp hg)) trivial trivial heq
    refine ⟨.object (List.mergeSort_perm fs keyLe).symm (List.mergeSort_perm gs keyLe).symm
      ?_ ?_, hrs⟩
    · exact List.forall₂_eq_eq_eq ▸ (List.forall₂_map_left_iff.mpr
        (List.forall₂_map_right_iff.mpr (hsame.imp fun _ _ h => h.1)))
    · exact List.forall₂_map_left_iff.mpr
        (List.forall₂_map_right_iff.mpr (hsame.imp fun _ _ h => h.2))
  | bool c => cases c <;> cases hkind
  | null | number | string | array => cases hkind

/-- **Canonical form**: where no digit follows, the text of a value is told apart from every
    other text, up to the order of keys. -/
theorem delimits_canonWrite (hx : x.InRange) :
    Delimits InRange (Ends Numeric) Same (canonWrite P) x := by
  induction hx with
  | null =>
    intro y r s hy hr hs heq
    have hkind := kind_eq .null hy heq
    cases y with
    | null => exact ⟨.null, List.append_cancel_left heq⟩
    | bool b => cases b <;> cases hkind
    | number | string | array | object => cases hkind
  | bool b =>
    intro y r s hy hr hs heq
    have hkind := kind_eq (.bool b) hy heq
    cases y with
    | bool c =>
      obtain rfl : b = c := by cases b <;> cases c <;> first | rfl | cases hkind
      exact ⟨.bool b, List.append_cancel_left heq⟩
    | null | number | string | array | object => cases b <;> cases hkind
  | @number d n hd hn =>
    intro y r s hy hr hs heq
    have hkind := kind_eq (.number hd hn) hy heq
    cases hy with
    | @number e m he hm =>
      rw [canonWrite, canonWrite, emitNumber_of_value P hd hn, emitNumber_of_value P he hm] at heq
      obtain ⟨rfl, hrs⟩ := delimits_printInt n m r s trivial hr hs heq
      exact ⟨.number (hd.trans he.symm), hrs⟩
    | bool c => cases c <;> cases hkind
    | null | string | array | object => cases hkind
  | string t =>
    intro y r s hy hr hs heq
    have hkind := kind_eq (.string t) hy heq
    cases y with
    | string u =>
      obtain ⟨hbytes, hrs⟩ := delimits_emitString t.bytes u.bytes r s trivial trivial trivial heq
      rw [CString.ext hbytes]
      exact ⟨.string u, hrs⟩
    | bool c => cases c <;> cases hkind
    | null | number | array | object => cases hkind
  | array h ih => exact delimits_array h ih
  | object hkeys h ih => exact delimits_object hkeys h ih

theorem map_eq_of_forall₂ {R : CJson → CJson → Prop} {f : CJson → List UInt8} {xs ys : List CJson}
    (h : List.Forall₂ R xs ys) (hf : ∀ x ∈ xs, ∀ y, R x y → f x = f y) : xs.map f = ys.map f := by
  induction h with
  | nil => rfl
  | @cons x y xs ys hxy _ ih =>
    obtain ⟨hx, hxs⟩ := List.forall_mem_cons.mp hf
    rw [List.map_cons, List.map_cons, hx y hxy, ih hxs]

theorem canonFields_zip (fs : List (CString × CJson)) :
    canonFields P fs = (fs.map Prod.fst).zip ((fs.map Prod.snd).map (canonWrite P)) := by
  induction fs with
  | nil => rfl
  | cons f fs ih => rw [canonFields, ih]; rfl

/-- Fields in another order are sorted to the same text. -/
theorem canonFields_sorted {fs fs' : List (CString × CJson)} (h : fs.Perm fs')
    (hkeys : (fs.map Prod.fst).Nodup) :
    (canonFields P fs).mergeSort keyLe = (canonFields P fs').mergeSort keyLe := by
  rw [canonFields_eq, canonFields_eq]
  refine mergeSort_eq_of_perm (h.map _) ?_
  rw [List.map_map]
  exact hkeys

/-- Values that are equal up to the order of keys have one text. -/
theorem canonWrite_same (hx : x.InRange) (h : Same x y) : canonWrite P x = canonWrite P y := by
  induction hx generalizing y with
  | null => cases h; rfl
  | bool b => cases h; rfl
  | string s => cases h; rfl
  | @number d n hd hn =>
    cases h with
    | number hvalue =>
      rw [canonWrite, canonWrite, emitNumber_of_value P hd hn,
        emitNumber_of_value P (hvalue.symm.trans hd) hn]
  | @array xs _ ih =>
    cases h with
    | @array _ ys hsame =>
      rw [canonWrite_array, canonWrite_array,
        map_eq_of_forall₂ hsame fun x hx y hxy => ih x hx hxy]
  | @object fs hkeys _ ih =>
    cases h with
    | @object _ fs' gs gs' hfs hgs hnames hsame =>
      have hkeys' : (fs'.map Prod.fst).Nodup := (hfs.map Prod.fst).nodup_iff.mp hkeys
      have hfields : canonFields P fs' = canonFields P gs' := by
        rw [canonFields_zip, canonFields_zip, hnames,
          map_eq_of_forall₂ hsame fun x hx y hxy => ?_]
        obtain ⟨f, hf, rfl⟩ := List.mem_map.mp hx
        exact ih f (hfs.mem_iff.mpr hf) hxy
      rw [canonWrite, canonWrite, canonFields_sorted hfs hkeys, hfields,
        canonFields_sorted hgs.symm (hnames ▸ hkeys')]

/-- **Canonical form is exact**: two values are written alike exactly when they are equal up to
    the order of the keys of their objects. -/
theorem fpAuthCanonBuild_eq_iff (hx : x.InRange) (hy : y.InRange) :
    fpAuthCanonBuild P x = fpAuthCanonBuild P y ↔ Same x y :=
  ⟨(delimits_canonWrite hx).of_eq (ends_nil Numeric) hy, canonWrite_same hx⟩

end Values

-- ════════════════════════════════════════════════════════════════════════
-- Values whose keys are texts
-- ════════════════════════════════════════════════════════════════════════

/-- A text as cJSON keeps it for a key. -/
def keyString (k : String) : CString where
  bytes := (text k).takeWhile (· ≠ 0)
  nonzero b hb := by simpa using List.mem_takeWhile_imp hb

mutual

/-- The value with its keys as byte strings. -/
def ofJson : Json → CJson
  | .object fields => .object (ofFields fields)
  | .array items => .array (ofItems items)
  | .string s => .string s
  | .number d => .number d
  | .bool b => .bool b
  | .null => .null

def ofItems : List Json → List CJson
  | [] => []
  | v :: vs => ofJson v :: ofItems vs

def ofFields : List (String × Json) → List (CString × CJson)
  | [] => []
  | (k, v) :: fs => (keyString k, ofJson v) :: ofFields fs

end

mutual

/-- No key has a zero in it, at any depth. -/
def NoZeroKeys : Json → Prop
  | .object fields => NoZeroFields fields
  | .array items => NoZeroItems items
  | _ => True

def NoZeroItems : List Json → Prop
  | [] => True
  | v :: vs => NoZeroKeys v ∧ NoZeroItems vs

def NoZeroFields : List (String × Json) → Prop
  | [] => True
  | (k, v) :: fs => 0 ∉ text k ∧ NoZeroKeys v ∧ NoZeroFields fs

end

theorem keyString_bytes {k : String} (h : 0 ∉ text k) : (keyString k).bytes = text k :=
  List.takeWhile_eq_self_iff.mpr fun b hb => decide_eq_true fun hzero : b = 0 => h (hzero ▸ hb)

section OfJson

variable {P : Primitives}

theorem NoZeroFields.mem_canonFields {fs : List (String × Json)} (h : NoZeroFields fs) :
    ∀ f ∈ Protocol.canonFields P fs, 0 ∉ text f.1 := by
  induction fs with
  | nil => exact fun f hf => nomatch hf
  | cons f fs ih => exact List.forall_mem_cons.mpr ⟨h.1, ih h.2.2⟩

/-- Sorted and written, fields are what they are with their keys as texts. -/
theorem writeFields_keyString {fs : List (String × List UInt8)} (h : ∀ f ∈ fs, 0 ∉ text f.1) :
    ((fs.map fun f => (keyString f.1, f.2)).mergeSort keyLe).map writeField =
      (fs.mergeSort Protocol.keyLe).map fun f => emitString (text f.1) ++ [58] ++ f.2 := by
  have hsort : (fs.map fun f => (keyString f.1, f.2)).mergeSort keyLe =
      (fs.mergeSort Protocol.keyLe).map fun f => (keyString f.1, f.2) := by
    refine (List.map_mergeSort (r := Protocol.keyLe) (s := keyLe)
      (f := fun f : String × List UInt8 => (keyString f.1, f.2)) fun a ha b hb => ?_).symm
    rw [Protocol.keyLe, keyLe, keyString_bytes (h a ha), keyString_bytes (h b hb)]
  rw [hsort, List.map_map]
  refine List.map_congr_left fun f hf => ?_
  rw [Function.comp_apply, writeField, keyString_bytes (h f (List.mem_mergeSort.mp hf))]

mutual

/-- The canonical form of a value whose keys are texts. -/
theorem canonWrite_ofJson : ∀ v, NoZeroKeys v → canonWrite P (ofJson v) = Protocol.canonWrite P v
  | .object fields, h => by
    rw [ofJson, canonWrite, Protocol.canonWrite, canonFields_ofFields fields h,
      writeFields_keyString (NoZeroFields.mem_canonFields h)]
  | .array items, h => by
    rw [ofJson, canonWrite, Protocol.canonWrite, canonItems_ofItems items h]
  | .string s, _ => by rw [ofJson, canonWrite, Protocol.canonWrite]
  | .number d, _ => by rw [ofJson, canonWrite, Protocol.canonWrite]
  | .bool b, _ => by cases b <;> rfl
  | .null, _ => rfl

theorem canonItems_ofItems : ∀ vs, NoZeroItems vs →
    canonItems P (ofItems vs) = Protocol.canonItems P vs
  | [], _ => rfl
  | v :: vs, h => by
    rw [ofItems, canonItems, Protocol.canonItems, canonWrite_ofJson v h.1,
      canonItems_ofItems vs h.2]

theorem canonFields_ofFields : ∀ fs, NoZeroFields fs →
    canonFields P (ofFields fs) = (Protocol.canonFields P fs).map fun f => (keyString f.1, f.2)
  | [], _ => rfl
  | (k, v) :: fs, h => by
    rw [ofFields, canonFields, Protocol.canonFields, canonWrite_ofJson v h.2.1,
      canonFields_ofFields fs h.2.2, List.map_cons]

end

end OfJson

/-- `a` and `b` as keys. -/
def keyA : CString := literal "a"

def keyB : CString := literal "b"

/-- The number 7. -/
def seven : CJson := .number (Float.ofInt 7)

theorem inRange_seven : seven.InRange :=
  .number (value_ofInt (by decide)) (by decide)

theorem inRange_fields {k l : CString} {x y : CJson} (hkl : k ≠ l) (hx : x.InRange)
    (hy : y.InRange) : (CJson.object [(k, x), (l, y)]).InRange :=
  .object (by simpa using hkl)
  (List.forall_mem_cons.mpr ⟨hx, List.forall_mem_cons.mpr ⟨hy, by simp⟩⟩)

theorem fpAuthCanonBuild_eq_iff_swapped :
    fpAuthCanonBuild examplePrimitives (.object [(keyA, seven), (keyB, .null)]) =
      fpAuthCanonBuild examplePrimitives (.object [(keyB, .null), (keyA, seven)]) :=
  (fpAuthCanonBuild_eq_iff (inRange_fields (by decide +kernel) inRange_seven .null)
    (inRange_fields (by decide +kernel) .null inRange_seven)).mpr
    (.object (List.Perm.swap _ _ _) (List.Perm.refl _) rfl (.cons .null (.cons (.number rfl) .nil)))

end CJson

end Fountainer.Protocol
