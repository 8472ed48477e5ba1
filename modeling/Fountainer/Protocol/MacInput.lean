import Fountainer.Protocol.BodyHash

/-!
# What the MAC covers

`compute_mac` joins thirteen texts with 0x1F between them, without a length or an escape. Six of
the texts are fields of the message, and `field_str` writes several values alike. So the input of
the MAC determines the hash of the body, and the other texts where no separator stands in them; of
a field of the message it determines what `field_str` makes of it.
-/

namespace Fountainer.Protocol.CJson

open Bytes (CString)
open Datapoints (Json)
open Delimited CFloat

/-- `cJSON_GetObjectItemCaseSensitive`. -/
def get? (m : CJson) (key : CString) : Option CJson :=
  match m with
  | .object fields => fields.lookup key
  | _ => none

/-- What `field_str` makes of a field. -/
def fieldText : Option CJson → List UInt8
  | some (.string s) => s.bytes
  | some (.number d) => printInt (truncate d)
  | _ => []

/-- `field_str`. -/
def fieldStr (m : CJson) (key : String) : List UInt8 := fieldText (get? m (keyString key))

section

variable (P : Primitives)

/-- The thirteen texts of `compute_mac`. -/
def macTexts (m : CJson) (c : MacContext) (kid : List UInt8) (seq : Int64) : List (List UInt8) :=
  [fieldStr m "v", fieldStr m "type", c.direction, c.deviceId, fieldStr m "serial",
    fieldStr m "ts", fieldStr m "msg_id", fieldStr m "in_reply_to", kid, printSeq seq.toInt,
    c.serverNonce, c.clientNonce, fpAuthBodyHashBuild P m]

/-- The input of the MAC. -/
def macInput (m : CJson) (c : MacContext) (kid : List UInt8) (seq : Int64) : List UInt8 :=
  [unitSeparator].intercalate (macTexts P m c kid seq)

end

/-- The fields of the message in the input of the MAC. -/
def macKeys : List String := ["v", "type", "serial", "ts", "msg_id", "in_reply_to"]

/-- The field is absent, an empty string, or neither a string nor a number. -/
def Blank : Option CJson → Prop
  | some (.string s) => s.bytes = []
  | some (.number _) => False
  | _ => True

/-- The fields have one text. -/
inductive ReadAlike : Option CJson → Option CJson → Prop
  | blank {a b : Option CJson} (ha : Blank a) (hb : Blank b) : ReadAlike a b
  | string (s : CString) : ReadAlike (some (.string s)) (some (.string s))
  | number {d e : Float} (h : truncate d = truncate e) :
      ReadAlike (some (.number d)) (some (.number e))
  | numeral {s : CString} {d : Float} (h : s.bytes = printInt (truncate d)) :
      ReadAlike (some (.string s)) (some (.number d))
  | numeral' {s : CString} {d : Float} (h : s.bytes = printInt (truncate d)) :
      ReadAlike (some (.number d)) (some (.string s))

/-- The field is absent, a nonempty string that is no decimal integer, or an integer. -/
def Plain : Option CJson → Prop
  | none => True
  | some (.string s) => s.bytes ≠ [] ∧ ∀ n, s.bytes ≠ printInt n
  | some (.number d) => ∃ n : ℤ, value d = some ((n : ℝ) : EReal)
  | _ => False

/-- The thirteen fields agree, the fields of the messages by their texts. -/
structure FieldsAgree (P : Primitives) (m m' : CJson) (c c' : MacContext) (kid kid' : List UInt8)
    (seq seq' : Int64) : Prop where
  envelope : ∀ key ∈ macKeys, ReadAlike (get? m (keyString key)) (get? m' (keyString key))
  context : c = c'
  kid : kid = kid'
  seq : seq = seq'
  bodyHash : fpAuthBodyHashBuild P m = fpAuthBodyHashBuild P m'

-- ════════════════════════════════════════════════════════════════════════
-- The texts
-- ════════════════════════════════════════════════════════════════════════

section Texts

variable {a b : Option CJson}

theorem fieldText_eq_nil : fieldText a = [] ↔ Blank a := by
  cases a with
  | none => exact iff_of_true rfl trivial
  | some v =>
    cases v with
    | string s => rfl
    | number d => exact iff_of_false (printInt_ne_nil _) id
    | null | bool | array | object => exact iff_of_true rfl trivial

/-- A field that is not blank is a string or a number. -/
theorem of_not_blank (h : ¬ Blank a) :
    (∃ s, a = some (.string s)) ∨ ∃ d, a = some (.number d) := by
  cases a with
  | none => exact absurd trivial h
  | some v =>
    cases v with
    | string s => exact .inl ⟨s, rfl⟩
    | number d => exact .inr ⟨d, rfl⟩
    | null | bool | array | object => exact absurd trivial h

/-- Which values `field_str` does not tell apart. -/
theorem fieldText_eq_iff : fieldText a = fieldText b ↔ ReadAlike a b := by
  constructor
  · intro h
    by_cases ha : Blank a
    · have hb : fieldText b = [] := h ▸ fieldText_eq_nil.mpr ha
      exact .blank ha (fieldText_eq_nil.mp hb)
    · have hb : ¬ Blank b := fun hb => ha (fieldText_eq_nil.mp (h.trans (fieldText_eq_nil.mpr hb)))
      obtain ⟨s, rfl⟩ | ⟨d, rfl⟩ := of_not_blank ha
      · obtain ⟨t, rfl⟩ | ⟨e, rfl⟩ := of_not_blank hb
        · obtain rfl : s = t := CString.ext h
          exact .string s
        · exact .numeral h
      · obtain ⟨t, rfl⟩ | ⟨e, rfl⟩ := of_not_blank hb
        · exact .numeral' h.symm
        · exact .number (printInt_injective h)
  · intro h
    cases h with
    | blank ha hb => rw [fieldText_eq_nil.mpr ha, fieldText_eq_nil.mpr hb]
    | string s => rfl
    | number h => exact congrArg printInt h
    | numeral h => exact h
    | numeral' h => exact h.symm

/-- A plain field is blank only where it is absent. -/
theorem Blank.eq_none (h : Blank a) (hplain : Plain a) : a = none := by
  cases a with
  | none => rfl
  | some v =>
    cases v with
    | string s => exact absurd h hplain.1
    | number d => cases h
    | null | bool | array | object => cases hplain

/-- Plain fields with one text are both absent or have equal values. -/
theorem ReadAlike.rel (h : ReadAlike a b) (ha : Plain a) (hb : Plain b) : Option.Rel Same a b := by
  cases h with
  | blank ha' hb' =>
    rw [ha'.eq_none ha, hb'.eq_none hb]
    exact .none
  | string s => exact .some (.string s)
  | @number d e h =>
    obtain ⟨n, hn⟩ := ha
    obtain ⟨n', hn'⟩ := hb
    rw [truncate_of_value hn, truncate_of_value hn'] at h
    exact .some (.number (by rw [hn, hn', h]))
  | numeral h => exact absurd h (ha.2 _)
  | numeral' h => exact absurd h (hb.2 _)

end Texts

-- ════════════════════════════════════════════════════════════════════════
-- The sequence number
-- ════════════════════════════════════════════════════════════════════════

theorem length_text {s : String} (h : ∀ c ∈ s.toList, c.utf8Size = 1) :
    (text s).length = s.toList.length := by
  rw [text_eq_flatMap, List.length_flatMap]
  have hsizes : s.toList.map (fun c => (String.utf8EncodeChar c).length) =
      List.replicate s.toList.length 1 := by
    refine List.eq_replicate_iff.mpr ⟨List.length_map _, fun n hn => ?_⟩
    obtain ⟨c, hc, rfl⟩ := List.mem_map.mp hn
    rw [String.length_utf8EncodeChar, h c hc]
  rw [hsizes, List.sum_replicate_nat, Nat.mul_one]

theorem length_printInt (n : ℤ) : (printInt n).length = (toString n).toList.length := by
  refine length_text fun c hc => ?_
  obtain rfl | hdigit := Numerals.of_mem_toString_int hc
  · rfl
  · exact utf8Size_of_isDigit hdigit

/-- The buffer of 24 bytes holds every number of 64 bits. -/
theorem printSeq_toInt (n : Int64) : printSeq n.toInt = printInt n.toInt := by
  have hlow := Int64.le_toInt n
  have hhigh := Int64.toInt_lt n
  refine List.take_of_length_le ?_
  rw [length_printInt]
  exact (Numerals.length_toString_int_le (k := 20) (by omega) (by omega)).trans (by omega)

-- ════════════════════════════════════════════════════════════════════════
-- The input
-- ════════════════════════════════════════════════════════════════════════

section Input

variable {P : Primitives} {m m' : CJson} {c c' : MacContext} {kid kid' : List UInt8}
  {seq seq' : Int64}

theorem macTexts_eq_iff : macTexts P m c kid seq = macTexts P m' c' kid' seq' ↔
    FieldsAgree P m m' c c' kid kid' seq seq' := by
  constructor
  · intro h
    simp only [macTexts, List.cons.injEq, and_true] at h
    obtain ⟨hv, htype, hdirection, hdevice, hserial, hts, hmsgId, hreply, hkid, hseq,
      hserver, hclient,
      hhash⟩ := h
    refine ⟨?_, ?_, hkid, ?_, hhash⟩
    · have hall : ∀ key ∈ macKeys, fieldStr m key = fieldStr m' key := by
        simp only [macKeys, List.forall_mem_cons]
        exact ⟨hv, htype, hserial, hts, hmsgId, hreply, List.forall_mem_nil _⟩
      exact fun key hkey => fieldText_eq_iff.mp (hall key hkey)
    · cases c
      cases c'
      cases hdirection
      cases hdevice
      cases hserver
      cases hclient
      rfl
    · rw [printSeq_toInt, printSeq_toInt] at hseq
      exact Int64.toInt_inj.mp (printInt_injective hseq)
  · rintro ⟨henvelope, rfl, rfl, rfl, hhash⟩
    have hfield : ∀ key ∈ macKeys, fieldStr m key = fieldStr m' key :=
      fun key hkey => fieldText_eq_iff.mpr (henvelope key hkey)
    simp only [macKeys, List.forall_mem_cons] at hfield
    obtain ⟨hv, htype, hserial, hts, hmsgId, hreply, -⟩ := hfield
    rw [macTexts, macTexts, hv, htype, hserial, hts, hmsgId, hreply, hhash]

theorem fpAuthBodyHashBuild_length (m : CJson) : (fpAuthBodyHashBuild P m).length = 64 := by
  simp [fpAuthBodyHashBuild, fpAuthSha256Hex]

/-- The input of the MAC ends in the hash of the body. -/
theorem macInput_suffix (m : CJson) (c : MacContext) (kid : List UInt8) (seq : Int64) :
    ∃ front, macInput P m c kid seq = front ++ fpAuthBodyHashBuild P m := by
  refine ⟨[unitSeparator].intercalate [fieldStr m "v", fieldStr m "type", c.direction, c.deviceId,
    fieldStr m "serial", fieldStr m "ts", fieldStr m "msg_id", fieldStr m "in_reply_to", kid,
    printSeq seq.toInt, c.serverNonce, c.clientNonce] ++ [unitSeparator], ?_⟩
  simp [macInput, macTexts, List.intercalate]

/-- **MAC input**: equal inputs have the same hash of the body. The other fields agree exactly when
    each of the texts has as many separators as its counterpart, so they do if one of the two
    messages and contexts has none. Fields of the messages agree by their texts: plain ones are
    then both absent or have equal values. -/
theorem macInput_covers (h : macInput P m c kid seq = macInput P m' c' kid' seq') :
    fpAuthBodyHashBuild P m = fpAuthBodyHashBuild P m' ∧
      (FieldsAgree P m m' c c' kid kid' seq seq' ↔
        (macTexts P m c kid seq).map (List.count unitSeparator) =
          (macTexts P m' c' kid' seq').map (List.count unitSeparator)) ∧
      ((∀ t ∈ macTexts P m c kid seq, unitSeparator ∉ t) →
        FieldsAgree P m m' c c' kid kid' seq seq') ∧
      (FieldsAgree P m m' c c' kid kid' seq seq' → ∀ key ∈ macKeys,
        Plain (get? m (keyString key)) → Plain (get? m' (keyString key)) →
          Option.Rel Same (get? m (keyString key)) (get? m' (keyString key))) := by
  have hcounts : (macTexts P m c kid seq).map (List.count unitSeparator) =
      (macTexts P m' c' kid' seq').map (List.count unitSeparator) →
        FieldsAgree P m m' c c' kid kid' seq seq' :=
    fun hcount => macTexts_eq_iff.mp (intercalate_inj hcount h)
  refine ⟨?_, ⟨fun hagree => ?_, hcounts⟩, fun hfree => ?_, fun hagree key hkey => ?_⟩
  · obtain ⟨front, hfront⟩ := macInput_suffix (P := P) m c kid seq
    obtain ⟨front', hfront'⟩ := macInput_suffix (P := P) m' c' kid' seq'
    rw [hfront, hfront'] at h
    exact List.append_inj_right' h
      ((fpAuthBodyHashBuild_length m).trans (fpAuthBodyHashBuild_length m').symm)
  · rw [macTexts_eq_iff.mpr hagree]
  · exact hcounts (counts_eq_of_free rfl hfree h)
  · exact (hagree.envelope key hkey).rel

end Input

/-- A server's context. -/
def exampleContext : MacContext where
  direction := text "s2c"
  deviceId := text "dev1"
  serverNonce := text "c2Vy"
  clientNonce := text "AAAA"

/-- A message of version `v` and a type. -/
def exampleMessage (v : CJson) (type : CString) : CJson :=
  .object [(literal "v", v), (literal "type", .string type)]

theorem get?_exampleMessage (v : CJson) (type : CString) :
    get? (exampleMessage v type) (keyString "v") = some v := by
  have hkey : keyString "v" = literal "v" := CString.ext (by decide +kernel)
  rw [hkey, exampleMessage, get?]
  exact List.lookup_cons_self

/-- A message and the same fields in another order. -/
theorem macInput_covers_swapped :
    FieldsAgree examplePrimitives (exampleMessage seven (literal "command"))
      (.object [(literal "type", .string (literal "command")), (literal "v", seven)])
      exampleContext exampleContext (text "k1") (text "k1") 1 1 := by
  have hfree : ∀ t ∈ macTexts examplePrimitives (exampleMessage seven (literal "command"))
      exampleContext (text "k1") 1, unitSeparator ∉ t :=
    List.all_iff_forall_prop.mp (by decide +kernel)
  exact (macInput_covers (by decide +kernel)).2.2.1 hfree

/-- Messages with different versions and one input of the MAC: a separator in the text, an empty
    string for an absent field, a fraction, and a string of digits for a number. -/
theorem macInput_collides :
    let input (m : CJson) := macInput examplePrimitives m exampleContext (text "k1") 1
    let differ (m m' : CJson) :=
      ¬ Option.Rel Same (get? m (keyString "v")) (get? m' (keyString "v"))
    let shifted := exampleMessage (.string (literal "a\x1fb")) (literal "c")
    let shifted' := exampleMessage (.string (literal "a")) (literal "b\x1fc")
    (input shifted = input shifted' ∧ differ shifted shifted') ∧
      (input (.object []) = input (exampleMessage (.string (literal "")) (literal "")) ∧
        differ (.object []) (exampleMessage (.string (literal "")) (literal ""))) ∧
      (input (exampleMessage seven (literal "")) =
        input (exampleMessage (.number 7.5) (literal "")) ∧
        differ (exampleMessage seven (literal "")) (exampleMessage (.number 7.5) (literal ""))) ∧
      (input (exampleMessage seven (literal "")) =
          input (exampleMessage (.string (literal "7")) (literal "")) ∧
        differ (exampleMessage seven (literal ""))
          (exampleMessage (.string (literal "7")) (literal ""))) := by
  intro input differ shifted shifted'
  have hv : ∀ v w t u, differ (exampleMessage v t) (exampleMessage w u) ↔ ¬ Same v w := by
    intro v w t u
    have hv := get?_exampleMessage v t
    have hw := get?_exampleMessage w u
    simp only [differ, hv, hw, Option.rel_some_some]
  refine ⟨⟨by decide +kernel, ?_⟩, ⟨by decide +kernel, ?_⟩, ⟨by decide +kernel, ?_⟩,
    by decide +kernel, ?_⟩
  · refine (hv _ _ _ _).mpr fun h => ?_
    have hbytes : (literal "a\x1fb").bytes = (literal "a").bytes := by
      generalize literal "a\x1fb" = s, literal "a" = t at h
      cases h
      rfl
    exact absurd hbytes (by decide +kernel)
  · intro h
    rw [get?_exampleMessage] at h
    cases h
  · refine (hv _ _ _ _).mpr fun h => ?_
    cases h with
    | number h =>
      have hbeq : (Float.ofInt 7 == 7.5) = true :=
        beq_iff_value.mpr ⟨_, value_ofInt (by decide), h ▸ value_ofInt (by decide)⟩
      exact absurd hbeq (by decide +kernel)
  · refine (hv _ _ _ _).mpr fun h => ?_
    cases h

-- ════════════════════════════════════════════════════════════════════════
-- Messages whose keys are texts
-- ════════════════════════════════════════════════════════════════════════

theorem keyString_beq {a b : String} (ha : 0 ∉ text a) (hb : 0 ∉ text b) :
    (keyString a == keyString b) = (a == b) := by
  rw [Bool.eq_iff_iff, beq_iff_eq, beq_iff_eq]
  constructor
  · intro h
    have hbytes := congrArg CString.bytes h
    rw [keyString_bytes ha, keyString_bytes hb] at hbytes
    exact text_injective hbytes
  · exact congrArg keyString

theorem lookup_ofFields {fields : List (String × Json)} (h : NoZeroFields fields) {key : String}
    (hkey : 0 ∉ text key) :
    (ofFields fields).lookup (keyString key) = (fields.lookup key).map ofJson := by
  induction fields with
  | nil => rfl
  | cons f fs ih =>
    rw [ofFields, List.lookup_cons, List.lookup_cons, keyString_beq hkey h.1, ih h.2.2]
    cases key == f.1 with
    | true => rfl
    | false => rfl

theorem get?_ofJson {m : Json} (h : NoZeroKeys m) {key : String} (hkey : 0 ∉ text key) :
    get? (ofJson m) (keyString key) = (Json.get? m key).map ofJson := by
  cases m with
  | object fields => exact lookup_ofFields h hkey
  | null | bool | number | string | array => rfl

theorem fieldStr_ofJson {m : Json} (h : NoZeroKeys m) {key : String} (hkey : 0 ∉ text key) :
    fieldStr (ofJson m) key = Protocol.fieldStr m key := by
  rw [fieldStr, get?_ofJson h hkey, Protocol.fieldStr]
  cases Json.get? m key with
  | none => rfl
  | some v => cases v <;> rfl

/-- The input of the MAC of a message whose keys are texts. -/
theorem macInput_ofJson {P : Primitives} {m : Json} (h : NoZeroKeys m) (c : MacContext)
    (kid : List UInt8) (seq : Int64) :
    macInput P (ofJson m) c kid seq = Protocol.macInput P m c kid seq.toInt := by
  have hkeys : ∀ key ∈ macKeys, 0 ∉ text key :=
    List.all_iff_forall_prop.mp (by decide +kernel)
  have hfield : ∀ key ∈ macKeys, fieldStr (ofJson m) key = Protocol.fieldStr m key :=
    fun key hkey => fieldStr_ofJson h (hkeys key hkey)
  simp only [macKeys, List.forall_mem_cons] at hfield
  obtain ⟨hv, htype, hserial, hts, hmsgId, hreply, -⟩ := hfield
  rw [macInput, macTexts, Protocol.macInput, hv, htype, hserial, hts, hmsgId, hreply,
    fpAuthBodyHashBuild_ofJson h]

end Fountainer.Protocol.CJson
