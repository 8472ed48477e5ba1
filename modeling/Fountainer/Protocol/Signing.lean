import Fountainer.Protocol.MacInput

/-!
# Signed messages

`fp_auth_message_sign` computes the MAC of a message as it stands and then puts `auth` into it, in
the place of the one that it had. `fp_auth_message_verify` computes the MAC of what has arrived.
Both leave `auth` out of what they hash, and the sequence number comes back from the `double` that
carries it; so what has been signed is accepted.
-/

namespace Fountainer.Protocol.CJson

open Bytes (CString)
open Datapoints (Json)
open CFloat

/-- The `auth` object of a message. -/
def authObject (kid : CString) (seq : Int64) (mac : CString) : CJson :=
  .object [(keyString "kid", .string kid), (keyString "seq", .number (Float.ofInt seq.toInt)),
    (keyString "mac", .string mac)]

section

variable (P : Primitives)

/-- `fp_auth_message_verify`. -/
def fpAuthMessageVerify (m : CJson) (key : List UInt8) (expectedKid : List UInt8) (c : MacContext) :
    Except AuthError Unit :=
  match get? m (keyString "auth") with
  | some (.object auth) =>
    let a := CJson.object auth
    match get? a (keyString "kid") with
    | some (.string kid) =>
      if kid.bytes ≠ expectedKid then .error .kidMismatch
      else
        match get? a (keyString "seq"), get? a (keyString "mac") with
        | some (.number seq), some (.string mac) =>
          let input := macInput P m c kid.bytes (Int64.ofInt (truncate seq))
          if (computeMac P key input).bytes = mac.bytes then .ok () else .error .macMismatch
        | some (.number _), _ => .error .badMac
        | _, _ => .error .badSeq
    | _ => .error .kidMismatch
  | _ => .error .missingAuth

/-- `fp_auth_message_sign`: the fields of the message with `auth` appended. -/
def fpAuthMessageSign (fields : List (CString × CJson)) (key : List UInt8) (kid : CString)
    (seq : Int64) (c : MacContext) : List (CString × CJson) :=
  let mac := computeMac P key (macInput P (.object fields) c kid.bytes seq)
  deleteItem fields (keyString "auth") ++ [(keyString "auth", authObject kid seq mac)]

end

-- ════════════════════════════════════════════════════════════════════════
-- One field replaced
-- ════════════════════════════════════════════════════════════════════════

section Replaced

variable {fs : List (CString × CJson)} {k e : CString} {a : CJson}

theorem deleteItem_cons_pos {f : CString × CJson} (h : sameKey f.1 e = true) :
    deleteItem (f :: fs) e = fs := List.eraseP_cons_of_pos h

theorem deleteItem_cons_neg {f : CString × CJson} (h : ¬ sameKey f.1 e = true) :
    deleteItem (f :: fs) e = f :: deleteItem fs e := List.eraseP_cons_of_neg h

/-- The keys are different, also where the case is ignored. -/
def DistinctKeys (fs : List (CString × CJson)) : Prop :=
  (fs.map fun f => f.1.bytes.map lower).Nodup

/-- With the first match, every match is deleted. -/
theorem DistinctKeys.not_sameKey (h : DistinctKeys fs) {f : CString × CJson}
    (hf : f ∈ deleteItem fs e) : ¬ sameKey f.1 e = true := by
  intro hfe
  obtain hself | ⟨g, l₁, l₂, -, hge, rfl, herase⟩ :=
    List.exists_or_eq_self_of_eraseP (fun f : CString × CJson => sameKey f.1 e) fs
  · rw [deleteItem] at hf
    exact List.eraseP_eq_self_iff.mp hself f (List.mem_of_mem_eraseP hf) hfe
  · rw [deleteItem, herase] at hf
    have hnodup :=
      (List.perm_middle.map fun f : CString × CJson => f.1.bytes.map lower).nodup_iff.mp h
    rw [List.map_cons, List.nodup_cons] at hnodup
    have hlower : f.1.bytes.map lower = g.1.bytes.map lower :=
      (beq_iff_eq.mp hfe).trans (beq_iff_eq.mp hge).symm
    exact hnodup.1 (hlower ▸ List.mem_map_of_mem hf)

/-- A field of another key is found as before. -/
theorem lookup_deleteItem (hk : ¬ sameKey k e = true) :
    (deleteItem fs e).lookup k = fs.lookup k := by
  induction fs with
  | nil => rfl
  | cons f fs ih =>
    by_cases hf : sameKey f.1 e = true
    · have hne : (k == f.1) = false := beq_false_of_ne fun heq => hk (heq ▸ hf)
      rw [deleteItem_cons_pos hf, List.lookup_cons, hne]
    · rw [deleteItem_cons_neg hf, List.lookup_cons, List.lookup_cons, ih]

theorem lookup_replaced (hk : ¬ sameKey k e = true) :
    (deleteItem fs e ++ [(e, a)]).lookup k = fs.lookup k := by
  have hne : (k == e) = false := beq_false_of_ne fun heq => hk (heq ▸ beq_self_eq_true _)
  rw [List.lookup_append, lookup_deleteItem hk, List.lookup_cons, hne, List.lookup_nil,
    Option.or_none]

/-- The new field is found. -/
theorem DistinctKeys.lookup_new (h : DistinctKeys fs) :
    (deleteItem fs e ++ [(e, a)]).lookup e = some a := by
  have hnone : (deleteItem fs e).lookup e = none := by
    refine List.lookup_eq_none_iff.mpr fun f hf => ?_
    exact bne_iff_ne.mpr fun heq => h.not_sameKey hf (heq ▸ beq_self_eq_true _)
  rw [List.lookup_append, hnone, List.lookup_cons_self, Option.none_or]

/-- A field of the envelope is not in the body, whatever it is. -/
theorem DistinctKeys.strip_replaced (h : DistinctKeys fs) (he : e ∈ envelope) :
    strip (deleteItem fs e ++ [(e, a)]) = strip fs := by
  have hself : sameKey e e = true := beq_self_eq_true _
  have hdelete : deleteItem (deleteItem fs e ++ [(e, a)]) e = deleteItem fs e := by
    rw [deleteItem, List.eraseP_append_right _ fun f hf => h.not_sameKey hf]
    exact (congrArg (deleteItem fs e ++ ·) (deleteItem_cons_pos hself)).trans (List.append_nil _)
  rw [strip_eq he, strip_eq he, hdelete]

/-- The other fields stay, where nothing else is taken for the one that is replaced. -/
theorem filter_replaced (h : ∀ f ∈ fs, sameKey f.1 e = true → f.1 = e) :
    (deleteItem fs e ++ [(e, a)]).filter (fun f => f.1 ≠ e) = fs.filter fun f => f.1 ≠ e := by
  have hold : (deleteItem fs e).filter (fun f => f.1 ≠ e) = fs.filter fun f => f.1 ≠ e := by
    induction fs with
    | nil => rfl
    | cons f fs ih =>
      obtain ⟨hfe, hfs⟩ := List.forall_mem_cons.mp h
      by_cases hf : sameKey f.1 e = true
      · rw [deleteItem_cons_pos hf, List.filter_cons_of_neg (by simp [hfe hf])]
      · rw [deleteItem_cons_neg hf, List.filter_cons, List.filter_cons, ih hfs]
  rw [List.filter_append, hold, List.filter_cons_of_neg (by simp), List.filter_nil,
    List.append_nil]

end Replaced

-- ════════════════════════════════════════════════════════════════════════
-- Sign and verify
-- ════════════════════════════════════════════════════════════════════════

theorem authObject_fields (kid : CString) (seq : Int64) (mac : CString) :
    get? (authObject kid seq mac) (keyString "kid") = some (.string kid) ∧
      get? (authObject kid seq mac) (keyString "seq") = some (.number (Float.ofInt seq.toInt)) ∧
      get? (authObject kid seq mac) (keyString "mac") = some (.string mac) := by
  have hseq : (keyString "seq" == keyString "kid") = false := by decide +kernel
  have hmac : (keyString "mac" == keyString "kid") = false := by decide +kernel
  have hmac' : (keyString "mac" == keyString "seq") = false := by decide +kernel
  refine ⟨?_, ?_, ?_⟩
  · rw [authObject, get?]
    exact List.lookup_cons_self
  · rw [authObject, get?, List.lookup_cons, hseq]
    exact List.lookup_cons_self
  · rw [authObject, get?, List.lookup_cons, hmac, List.lookup_cons, hmac']
    exact List.lookup_cons_self

/-- The sequence number that a `double` carries comes back. -/
theorem truncate_ofInt {seq : Int64} (hseq : seq.toInt.natAbs < 2 ^ 53) :
    Int64.ofInt (truncate (Float.ofInt seq.toInt)) = seq := by
  rw [truncate_of_value (value_ofInt hseq), Int64.ofInt_toInt]

section Sign

variable {P : Primitives} {fields : List (CString × CJson)} {key : List UInt8} {kid : CString}
  {seq : Int64} {c : MacContext}

theorem auth_mem_envelope : keyString "auth" ∈ envelope :=
  List.mem_map_of_mem (by decide)

/-- No other field of the MAC is taken for `auth`. -/
theorem not_sameKey_auth : ∀ k ∈ macKeys, ¬ sameKey (keyString k) (keyString "auth") = true :=
  List.all_iff_forall_prop.mp (by decide +kernel)

/-- The MAC of the message with its new `auth` is that of the message. -/
theorem macInput_replaced (h : DistinctKeys fields) (a : CJson) (kid : List UInt8) :
    macInput P (.object (deleteItem fields (keyString "auth") ++ [(keyString "auth", a)]))
        c kid seq =
      macInput P (.object fields) c kid seq := by
  refine congrArg ([unitSeparator].intercalate)
    (macTexts_eq_iff.mpr ⟨fun k hk => ?_, rfl, rfl, rfl, ?_⟩)
  · refine fieldText_eq_iff.mp (congrArg fieldText ?_)
    exact lookup_replaced (not_sameKey_auth k hk)
  · rw [fpAuthBodyHashBuild, body, h.strip_replaced auth_mem_envelope]
    rfl

/-- **Sign and verify**: what has been signed is accepted in the same context, for every message
    whose keys are different also where the case is ignored, with or without an `auth` of its own,
    and for every number that a `double` carries exactly. If nothing is written like `auth` in
    another case, every other field stays. -/
theorem fpAuthMessageVerify_sign (P : Primitives) (fields : List (CString × CJson))
    (key : List UInt8) (kid : CString) (seq : Int64) (c : MacContext) (hkeys : DistinctKeys fields)
    (hcase : ∀ f ∈ fields, ∀ e ∈ envelope, sameKey f.1 e = true → f.1 = e)
    (hseq : seq.toInt.natAbs < 2 ^ 53) :
    fpAuthMessageVerify P (.object (fpAuthMessageSign P fields key kid seq c)) key kid.bytes c =
        .ok () ∧
      (fpAuthMessageSign P fields key kid seq c).filter (fun f => f.1 ≠ keyString "auth") =
        fields.filter fun f => f.1 ≠ keyString "auth" := by
  refine ⟨?_, filter_replaced fun f hf => hcase f hf _ auth_mem_envelope⟩
  have hauth : get? (.object (fpAuthMessageSign P fields key kid seq c)) (keyString "auth") =
      some (authObject kid seq (computeMac P key (macInput P (.object fields) c kid.bytes seq))) :=
    hkeys.lookup_new
  obtain ⟨hkid, hnumber, hmac⟩ := authObject_fields kid seq
    (computeMac P key (macInput P (.object fields) c kid.bytes seq))
  rw [fpAuthMessageVerify, hauth]
  simp only [authObject] at hkid hnumber hmac ⊢
  rw [hkid, hnumber, hmac]
  simp only [ne_eq, not_true_eq_false, if_false, truncate_ofInt hseq]
  exact if_pos (by rw [fpAuthMessageSign, macInput_replaced hkeys])

end Sign

/-- A message that carries an `auth` already. -/
def carriesAuth : List (CString × CJson) :=
  [(keyString "v", seven), (keyString "auth", authObject (keyString "k0") 1 (keyString "")),
    (keyString "command", .string (keyString "reboot"))]

theorem fpAuthMessageVerify_sign_again :
    fpAuthMessageVerify examplePrimitives
        (.object (fpAuthMessageSign examplePrimitives carriesAuth (text "key") (literal "k1")
          2147483647 exampleContext)) (text "key") (literal "k1").bytes exampleContext =
      .ok () := by
  have hkeys : DistinctKeys carriesAuth := by
    rw [DistinctKeys]
    decide +kernel
  have hcase : ∀ f ∈ carriesAuth,
      (envelope.all fun e => sameKey f.1 e = true → f.1 = e) = true :=
    List.all_iff_forall_prop.mp (by decide +kernel)
  exact (fpAuthMessageVerify_sign examplePrimitives carriesAuth (text "key") (literal "k1")
    2147483647 exampleContext hkeys (fun f hf => List.all_iff_forall_prop.mp (hcase f hf))
    (by decide)).1

-- ════════════════════════════════════════════════════════════════════════
-- Messages whose keys are texts
-- ════════════════════════════════════════════════════════════════════════

section OfJson

variable {P : Primitives} {m : Json} {fields : List (String × Json)}

theorem ofFields_append (gs : List (String × Json)) :
    ofFields (fields ++ gs) = ofFields fields ++ ofFields gs := by
  induction fields with
  | nil => rfl
  | cons f fs ih => rw [List.cons_append, ofFields, ofFields, ih, List.cons_append]

theorem NoZeroFields.of_lookup (h : NoZeroFields fields) {key : String} {v : Json}
    (hv : fields.lookup key = some v) : NoZeroKeys v := by
  induction fields with
  | nil => cases hv
  | cons f fs ih =>
    rw [List.lookup_cons] at hv
    cases hkey : key == f.1 with
    | true =>
      rw [hkey] at hv
      cases hv
      exact h.2.1
    | false =>
      rw [hkey] at hv
      exact ih h.2.2 hv

/-- Signing a message whose keys are texts. -/
theorem fpAuthMessageSign_ofFields (h : NoZeroFields fields) (key : List UInt8) (kid : CString)
    (seq : Int64) (c : MacContext) :
    fpAuthMessageSign P (ofFields fields) key kid seq c =
      ofFields (Protocol.fpAuthMessageSign P fields key kid seq.toInt c) := by
  have hmac : macInput P (.object (ofFields fields)) c kid.bytes seq =
      Protocol.macInput P (.object fields) c kid.bytes seq.toInt :=
    macInput_ofJson (m := .object fields) h c kid.bytes seq
  have hauth : 0 ∉ text "auth" := by decide +kernel
  rw [fpAuthMessageSign, Protocol.fpAuthMessageSign, hmac, ofFields_append,
    (deleteItem_ofFields h hauth).1]
  rfl

/-- Checking a message whose keys are texts. -/
theorem fpAuthMessageVerify_ofJson (h : NoZeroKeys m) (hlow : -2 ^ 63 ≤ Json.seq m)
    (hhigh : Json.seq m < 2 ^ 63) (key expectedKid : List UInt8) (c : MacContext) :
    fpAuthMessageVerify P (ofJson m) key expectedKid c =
      Protocol.fpAuthMessageVerify P m key expectedKid c := by
  have hauth : 0 ∉ text "auth" := by decide +kernel
  have hkid : 0 ∉ text "kid" := by decide +kernel
  have hseq : 0 ∉ text "seq" := by decide +kernel
  have hmac : 0 ∉ text "mac" := by decide +kernel
  rw [fpAuthMessageVerify, Protocol.fpAuthMessageVerify, get?_ofJson h hauth]
  cases hget : Json.get? m "auth" with
  | none => rfl
  | some v =>
    cases v with
    | null | bool | number | string | array => rfl
    | object auth =>
      have hzero : NoZeroKeys (.object auth) := by
        cases m with
        | object fields => exact NoZeroFields.of_lookup h hget
        | null | bool | number | string | array => cases hget
      have hkid' := get?_ofJson hzero hkid
      have hseq' := get?_ofJson hzero hseq
      have hmac' := get?_ofJson hzero hmac
      simp only [Option.map_some, ofJson] at hkid' hseq' hmac' ⊢
      rw [hkid', hseq', hmac']
      cases Json.get? (.object auth) "kid" with
      | none => rfl
      | some k =>
        cases k with
        | null | bool | number | array | object => rfl
        | string kid =>
          cases hnumber : Json.get? (.object auth) "seq" with
          | none => rfl
          | some n =>
            cases n with
            | null | bool | string | array | object => rfl
            | number x =>
              cases Json.get? (.object auth) "mac" with
              | none => rfl
              | some t =>
                cases t with
                | null | bool | number | array | object => rfl
                | string mac =>
                  -- The number of the message is the one that is converted.
                  have hx : Json.seq m = truncate x := by
                    rw [Json.seq, hget, Option.bind_some, hnumber]
                  rw [hx] at hlow hhigh
                  simp only [Option.map_some, ofJson]
                  rw [macInput_ofJson h, Int64.toInt_ofInt_of_le hlow hhigh]

end OfJson

end Fountainer.Protocol.CJson
