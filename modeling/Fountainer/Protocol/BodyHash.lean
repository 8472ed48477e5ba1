import Fountainer.Protocol.Canonical
import Mathlib.Data.Bool.AllAny

/-!
# The hash of the body

`fp_auth_body_hash_build` deletes the fields of the envelope and hashes the canonical form of what
is left. `cJSON_DeleteItemFromObject` deletes the first field whose key is the one it is given up
to case, while the message is read with the case taken into account. So a field that only looks
like one of the envelope can be taken for it, and is not in the hash then.
-/

namespace Fountainer.Protocol.CJson

open Bytes (CString)
open Datapoints (Json)
open Delimited

/-- `tolower`. -/
def lower (b : UInt8) : UInt8 := if 65 ≤ b ∧ b ≤ 90 then b + 32 else b

/-- The keys are equal up to the case of ASCII letters. -/
def sameKey (a b : CString) : Bool := a.bytes.map lower == b.bytes.map lower

/-- `cJSON_DeleteItemFromObject`: the first item whose key matches ignoring case. -/
def deleteItem (fields : List (CString × CJson)) (key : CString) : List (CString × CJson) :=
  fields.eraseP fun f => sameKey f.1 key

/-- `ENVELOPE`. -/
def envelope : List CString := Protocol.envelope.map keyString

/-- The fields without those of the envelope. -/
def strip (fields : List (CString × CJson)) : List (CString × CJson) :=
  envelope.foldl deleteItem fields

/-- The message without its envelope. -/
def body : CJson → CJson
  | .object fields => .object (strip fields)
  | m => m

/-- `fp_auth_body_hash_build`. -/
def fpAuthBodyHashBuild (P : Primitives) (m : CJson) : List UInt8 :=
  fpAuthSha256Hex P (fpAuthCanonBuild P (body m))

-- ════════════════════════════════════════════════════════════════════════
-- What is deleted
-- ════════════════════════════════════════════════════════════════════════

section Strip

variable {fs : List (CString × CJson)} {e : CString}

/-- No two keys of the envelope are equal up to case. -/
theorem envelope_nodup : (envelope.map fun e => e.bytes.map lower).Nodup := by
  decide +kernel

/-- A key is taken for one key of the envelope at most. -/
theorem eq_of_sameKey {k e' : CString} (he : e ∈ envelope) (he' : e' ∈ envelope)
    (h : sameKey k e = true) (h' : sameKey k e' = true) : e = e' := by
  have hlower : e.bytes.map lower = e'.bytes.map lower :=
    (beq_iff_eq.mp h).symm.trans (beq_iff_eq.mp h')
  exact List.inj_on_of_nodup_map envelope_nodup he he' hlower

/-- Any key of the envelope can be deleted first. -/
theorem strip_eq (he : e ∈ envelope) :
    strip fs = (envelope.erase e).foldl deleteItem (deleteItem fs e) := by
  refine (List.perm_cons_erase he).foldl_eq' (fun a ha b hb gs => ?_) fs
  by_cases hab : a = b
  · rw [hab]
  · refine List.eraseP_comm fun f _ => ?_
    by_cases h : sameKey f.1 a = true
    · exact .inr fun h' => hab (eq_of_sameKey ha hb h h')
    · exact .inl h

/-- A field that matches none of the keys stays. -/
theorem mem_foldl_deleteItem {f : CString × CJson} {keys : List CString}
    (h : ∀ e ∈ keys, ¬ sameKey f.1 e = true) : f ∈ keys.foldl deleteItem fs ↔ f ∈ fs := by
  induction keys generalizing fs with
  | nil => rfl
  | cons e keys ih =>
    obtain ⟨hf, hkeys⟩ := List.forall_mem_cons.mp h
    rw [List.foldl_cons, ih hkeys]
    exact List.mem_eraseP_of_neg (p := fun f : CString × CJson => sameKey f.1 e) hf

/-- A field that matches one key of the envelope stays if the deletion of this one leaves it. -/
theorem mem_strip {f : CString × CJson} (he : e ∈ envelope) (hf : sameKey f.1 e = true) :
    f ∈ strip fs ↔ f ∈ deleteItem fs e := by
  have hnodup : envelope.Nodup := List.Nodup.of_map _ envelope_nodup
  rw [strip_eq he]
  refine mem_foldl_deleteItem fun e' he' h => ?_
  obtain ⟨hne, hmem⟩ := hnodup.mem_erase_iff.mp he'
  exact hne (eq_of_sameKey hmem he h hf)

theorem strip_sublist (fs : List (CString × CJson)) : (strip fs).Sublist fs := by
  have hfold : ∀ (keys : List CString) gs, (keys.foldl deleteItem gs).Sublist gs := by
    intro keys
    induction keys with
    | nil => exact fun gs => .refl gs
    | cons e keys ih => exact fun gs => (ih _).trans List.eraseP_sublist
  exact hfold envelope fs

/-- The body of a message in the range is in it. -/
theorem inRange_body {m : CJson} (h : m.InRange) : (body m).InRange := by
  cases h with
  | @object fs hkeys hvalues =>
    exact .object (hkeys.sublist ((strip_sublist fs).map _))
      fun f hf => hvalues f ((strip_sublist fs).subset hf)
  | null => exact .null
  | bool b => exact .bool b
  | number hd hn => exact .number hd hn
  | string s => exact .string s
  | array h => exact .array h

end Strip

-- ════════════════════════════════════════════════════════════════════════
-- Equal objects
-- ════════════════════════════════════════════════════════════════════════

section Objects

variable {fs gs : List (CString × CJson)}

/-- Equal objects have the same keys. -/
theorem Same.keys (h : Same (.object fs) (.object gs)) :
    (fs.map Prod.fst).Perm (gs.map Prod.fst) := by
  cases h with
  | object hfs hgs hkeys h => exact ((hfs.map _).trans (hkeys ▸ (hgs.map _).symm))

theorem exists_mem_of_forall₂ (hkeys : fs.map Prod.fst = gs.map Prod.fst)
    (h : List.Forall₂ Same (fs.map Prod.snd) (gs.map Prod.snd)) {f : CString × CJson}
    (hf : f ∈ fs) : ∃ g ∈ gs, f.1 = g.1 ∧ Same f.2 g.2 := by
  induction fs generalizing gs with
  | nil => cases hf
  | cons f' fs ih =>
    cases gs with
    | nil => cases h
    | cons g gs =>
      obtain ⟨hkey, hkeys⟩ := List.cons.inj hkeys
      obtain ⟨hvalue, h⟩ := List.forall₂_cons.mp h
      cases hf with
      | head => exact ⟨g, List.mem_cons_self, hkey, hvalue⟩
      | tail _ hf =>
        obtain ⟨g', hg', hfield⟩ := ih hkeys h hf
        exact ⟨g', List.mem_cons_of_mem _ hg', hfield⟩

/-- Equal objects have equal values under a key. -/
theorem Same.value {k : CString} {x y : CJson} (h : Same (.object fs) (.object gs))
    (hkeys : (gs.map Prod.fst).Nodup) (hx : (k, x) ∈ fs) (hy : (k, y) ∈ gs) : Same x y := by
  cases h with
  | @object _ fs' _ gs' hfs hgs hnames hsame =>
    obtain ⟨g, hg, hkey, hvalue⟩ :=
      exists_mem_of_forall₂ hnames hsame (hfs.mem_iff.mp hx)
    have hgy : g = (k, y) :=
      List.inj_on_of_nodup_map hkeys (hgs.mem_iff.mpr hg) hy hkey.symm
    rw [hgy] at hvalue
    exact hvalue

end Objects

-- ════════════════════════════════════════════════════════════════════════
-- One field edited
-- ════════════════════════════════════════════════════════════════════════

/-- The fields of a message with `x` under the key `k`, or without this key. -/
def fieldsWith (pre : List (CString × CJson)) (k : CString) (x : Option CJson)
    (post : List (CString × CJson)) : List (CString × CJson) :=
  pre ++ x.toList.map (k, ·) ++ post

/-- The deletion takes `k` for a key of the envelope, whatever its value is and where it is
    missing: it is the first to match one, and if it is missing then no other field matches. -/
def TakenForEnvelope (pre : List (CString × CJson)) (k : CString) (x y : Option CJson)
    (post : List (CString × CJson)) : Prop :=
  ∃ e ∈ envelope, sameKey k e = true ∧ (∀ f ∈ pre, ¬ sameKey f.1 e = true) ∧
    (x ≠ none ∧ y ≠ none ∨ ∀ f ∈ post, ¬ sameKey f.1 e = true)

section Edit

variable {P : Primitives} {pre post : List (CString × CJson)} {k e : CString}
  {x y : Option CJson} {v : CJson}

/-- The first match is deleted, if there is one. -/
theorem deleteItem_fieldsWith (hk : sameKey k e = true) (hpre : ∀ f ∈ pre, ¬ sameKey f.1 e = true)
    (h : x ≠ none ∨ ∀ f ∈ post, ¬ sameKey f.1 e = true) :
    deleteItem (fieldsWith pre k x post) e = pre ++ post := by
  rw [deleteItem, fieldsWith, List.append_assoc, List.eraseP_append_right _ hpre]
  cases x with
  | some v => exact congrArg (pre ++ ·) (List.eraseP_cons_of_pos hk)
  | none => exact congrArg (pre ++ ·) (List.eraseP_of_forall_not (h.resolve_left fun h => h rfl))

theorem strip_of_takenForEnvelope (h : TakenForEnvelope pre k x y post) :
    strip (fieldsWith pre k x post) = strip (fieldsWith pre k y post) := by
  obtain ⟨e, he, hk, hpre, hpost⟩ := h
  rw [strip_eq he, strip_eq he, deleteItem_fieldsWith hk hpre (hpost.imp_left And.left),
    deleteItem_fieldsWith hk hpre (hpost.imp_left And.right)]

/-- A field stays that is not the first to match. -/
theorem mem_strip_fieldsWith
    (h : ∀ e ∈ envelope, sameKey k e = true → ∃ f ∈ pre, sameKey f.1 e = true) :
    (k, v) ∈ strip (fieldsWith pre k (some v) post) := by
  have hmem : (k, v) ∈ [(k, v)] ++ post := List.mem_cons_self
  by_cases hk : ∃ e ∈ envelope, sameKey k e = true
  · obtain ⟨e, he, hk⟩ := hk
    obtain ⟨f, hf, hfe⟩ := h e he hk
    rw [mem_strip he hk, deleteItem, fieldsWith, List.append_assoc,
      List.eraseP_append_left (p := fun f : CString × CJson => sameKey f.1 e) hfe _ hf]
    exact List.mem_append_right _ hmem
  · rw [strip, mem_foldl_deleteItem fun e he hke => hk ⟨e, he, hke⟩, fieldsWith, List.append_assoc]
    exact List.mem_append_right _ hmem

theorem deleteItem_none (hpre : ∀ f ∈ pre, ¬ sameKey f.1 e = true) :
    deleteItem (fieldsWith pre k none post) e =
      pre ++ post.eraseP fun f => sameKey f.1 e := by
  rw [deleteItem, fieldsWith, List.append_assoc, List.eraseP_append_right _ hpre]
  rfl

/-- A field that stays is in one body only if it is missing from the other message. -/
theorem not_perm_of_stays (hkeys : ((fieldsWith pre k (some v) post).map Prod.fst).Nodup)
    (hstays : (k, v) ∈ strip (fieldsWith pre k (some v) post)) :
    ¬ ((strip (fieldsWith pre k (some v) post)).map Prod.fst).Perm
      ((strip (fieldsWith pre k none post)).map Prod.fst) := by
  intro hperm
  have hmem : k ∈ (fieldsWith pre k none post).map Prod.fst :=
    ((strip_sublist _).map _).subset (hperm.mem_iff.mp (List.mem_map_of_mem hstays))
  rw [fieldsWith, List.append_assoc] at hkeys hmem
  have hnodup := (List.perm_middle.map Prod.fst).nodup_iff.mp hkeys
  exact (List.nodup_cons.mp hnodup).1 hmem

/-- A field that is deleted in place of the missing one is in one body only. -/
theorem not_perm_of_match (hkeys : ((fieldsWith pre k (some v) post).map Prod.fst).Nodup)
    (he : e ∈ envelope) (hk : sameKey k e = true) (hpre : ∀ f ∈ pre, ¬ sameKey f.1 e = true)
    {g : CString × CJson} (hg : g ∈ post) (hge : sameKey g.1 e = true) :
    ¬ ((strip (fieldsWith pre k (some v) post)).map Prod.fst).Perm
      ((strip (fieldsWith pre k none post)).map Prod.fst) := by
  intro hperm
  obtain ⟨g, l₁, l₂, -, hge, rfl, herase⟩ :=
    List.exists_of_eraseP (p := fun f : CString × CJson => sameKey f.1 e) hg hge
  have hmem : g ∈ strip (fieldsWith pre k (some v) (l₁ ++ g :: l₂)) := by
    rw [mem_strip he hge, deleteItem_fieldsWith hk hpre (.inl (Option.some_ne_none v))]
    simp
  obtain ⟨f, hf, hfg⟩ := List.mem_map.mp (hperm.mem_iff.mp (List.mem_map_of_mem hmem))
  rw [mem_strip he (hfg ▸ hge), deleteItem_none hpre, herase] at hf
  have hsub : (pre ++ l₁ ++ g :: l₂).Sublist (fieldsWith pre k (some v) (l₁ ++ g :: l₂)) := by
    rw [fieldsWith, List.append_assoc, List.append_assoc]
    exact (List.sublist_append_right _ _).append_left _
  have hnodup := ((List.perm_middle.map Prod.fst).nodup_iff.mp (hkeys.sublist (hsub.map _)))
  rw [List.map_cons, List.nodup_cons] at hnodup
  exact hnodup.1 (hfg ▸ List.mem_map_of_mem (by rwa [List.append_assoc]))

/-- Equal bodies have equal values of a field that is not taken for the envelope's. -/
theorem rel_of_same (hx : ((fieldsWith pre k x post).map Prod.fst).Nodup)
    (hy : ((fieldsWith pre k y post).map Prod.fst).Nodup)
    (h : Same (.object (strip (fieldsWith pre k x post)))
      (.object (strip (fieldsWith pre k y post))))
    (hnot : ¬ TakenForEnvelope pre k x y post) : Option.Rel Same x y := by
  by_cases htaken : ∃ e ∈ envelope, sameKey k e = true ∧ ∀ f ∈ pre, ¬ sameKey f.1 e = true
  · obtain ⟨e, he, hk, hpre⟩ := htaken
    have hpost : ¬ (x ≠ none ∧ y ≠ none) ∧ ∃ g ∈ post, sameKey g.1 e = true := by
      by_contra hcon
      refine hnot ⟨e, he, hk, hpre, ?_⟩
      by_cases hboth : x ≠ none ∧ y ≠ none
      · exact .inl hboth
      · exact .inr fun g hg hge => hcon ⟨hboth, g, hg, hge⟩
    obtain ⟨hboth, g, hg, hge⟩ := hpost
    cases x with
    | none =>
      cases y with
      | none => exact .none
      | some w => exact (not_perm_of_match hy he hk hpre hg hge h.keys.symm).elim
    | some v =>
      cases y with
      | none => exact (not_perm_of_match hx he hk hpre hg hge h.keys).elim
      | some w => exact (hboth ⟨Option.some_ne_none v, Option.some_ne_none w⟩).elim
  · have hfree : ∀ e ∈ envelope, sameKey k e = true → ∃ f ∈ pre, sameKey f.1 e = true := by
      intro e he hk
      by_contra hcon
      exact htaken ⟨e, he, hk, fun f hf hfe => hcon ⟨f, hf, hfe⟩⟩
    cases x with
    | none =>
      cases y with
      | none => exact .none
      | some w => exact (not_perm_of_stays hy (mem_strip_fieldsWith hfree) h.keys.symm).elim
    | some v =>
      cases y with
      | none => exact (not_perm_of_stays hx (mem_strip_fieldsWith hfree) h.keys).elim
      | some w =>
        exact .some (h.value (hy.sublist ((strip_sublist _).map _)) (mem_strip_fieldsWith hfree)
          (mem_strip_fieldsWith hfree))

end Edit

-- ════════════════════════════════════════════════════════════════════════
-- The hash
-- ════════════════════════════════════════════════════════════════════════

section Hash

variable {P : Primitives} {pre post : List (CString × CJson)} {k : CString} {x y : Option CJson}
  {m m' : CJson}

/-- The hash tells bodies apart up to the order of keys, if SHA-256 tells their texts apart. -/
theorem fpAuthBodyHashBuild_eq_iff (hm : m.InRange) (hm' : m'.InRange)
    (hsha : Set.InjOn P.sha256 {fpAuthCanonBuild P (body m), fpAuthCanonBuild P (body m')}) :
    fpAuthBodyHashBuild P m = fpAuthBodyHashBuild P m' ↔ Same (body m) (body m') := by
  constructor
  · intro h
    have hsum : P.sha256 (fpAuthCanonBuild P (body m)) = P.sha256 (fpAuthCanonBuild P (body m')) :=
      Vector.toList_inj.mp (Hex.text_injective Hex.lowerDigit_inj h)
    have htext := hsha (Set.mem_insert _ _) (Set.mem_insert_of_mem _ rfl) hsum
    exact (delimits_canonWrite (inRange_body hm)).of_eq (ends_nil Numeric) (inRange_body hm') htext
  · intro h
    exact congrArg (fpAuthSha256Hex P) (canonWrite_same (inRange_body hm) h)

/-- **Body hash**: adding, removing or changing a field changes the hash exactly when the field is
    not taken for one of the envelope's, if SHA-256 tells the texts of the two bodies apart. -/
theorem bodyHash_covers_iff (hm : CJson.InRange (.object (fieldsWith pre k x post)))
    (hm' : CJson.InRange (.object (fieldsWith pre k y post))) (hedit : ¬ Option.Rel Same x y)
    (hsha : Set.InjOn P.sha256 {fpAuthCanonBuild P (body (.object (fieldsWith pre k x post))),
      fpAuthCanonBuild P (body (.object (fieldsWith pre k y post)))}) :
    fpAuthBodyHashBuild P (.object (fieldsWith pre k x post)) ≠
        fpAuthBodyHashBuild P (.object (fieldsWith pre k y post)) ↔
      ¬ TakenForEnvelope pre k x y post := by
  refine not_congr ⟨fun h => ?_, fun h => ?_⟩
  · have hsame := (fpAuthBodyHashBuild_eq_iff hm hm' hsha).mp h
    cases hm with
    | object hkeys _ =>
      cases hm' with
      | object hkeys' _ => exact of_not_not fun hnot => hedit (rel_of_same hkeys hkeys' hsame hnot)
  · rw [fpAuthBodyHashBuild, body, strip_of_takenForEnvelope h]
    rfl

end Hash

/-- The message with a field, and without it. -/
theorem inRange_fieldsWith {v : CJson} (k : CString) (hv : v.InRange) :
    CJson.InRange (.object (fieldsWith [] k (some v) [])) ∧
      CJson.InRange (.object (fieldsWith [] k none [])) :=
  ⟨.object (List.nodup_singleton k) (List.forall_mem_cons.mpr ⟨hv, nofun⟩),
    .object List.nodup_nil nofun⟩

theorem bodyHash_covers_iff_command :
    fpAuthBodyHashBuild examplePrimitives
        (.object (fieldsWith [] (literal "command") (some (.string (literal "reboot"))) [])) ≠
      fpAuthBodyHashBuild examplePrimitives
      (.object (fieldsWith [] (literal "command") none [])) := by
  have hrange := inRange_fieldsWith (literal "command") (.string (literal "reboot"))
  refine (bodyHash_covers_iff hrange.1 hrange.2 nofun (Set.injOn_pair.mpr fun h => ?_)).mpr ?_
  · exact absurd h (by decide +kernel)
  · rintro ⟨e, he, hk, -⟩
    have hnone : ∀ e ∈ envelope, ¬ sameKey (literal "command") e = true :=
      List.all_iff_forall_prop.mp (by decide +kernel)
    exact hnone e he hk

/-- A field `V` is not in the hash, with whatever value. -/
theorem upperCase_not_covered :
    literal "V" ∉ envelope ∧ (CJson.object [(literal "V", seven)]).InRange ∧
      fpAuthBodyHashBuild examplePrimitives (.object [(literal "V", seven)]) =
        fpAuthBodyHashBuild examplePrimitives (.object []) ∧
      fpAuthBodyHashBuild examplePrimitives (.object [(literal "V", seven)]) =
        fpAuthBodyHashBuild examplePrimitives (.object [(literal "V", .null)]) := by
  have hbody : ∀ v : CJson, body (.object [(literal "V", v)]) = .object [] := by
    intro v
    have htaken : TakenForEnvelope [] (literal "V") (some v) none [] :=
      ⟨keyString "v", List.mem_cons_self, by decide +kernel, nofun, .inr nofun⟩
    exact congrArg CJson.object (strip_of_takenForEnvelope htaken)
  refine ⟨by decide +kernel, (inRange_fieldsWith _ inRange_seven).1, ?_, ?_⟩
  · rw [fpAuthBodyHashBuild, hbody]
    rfl
  · rw [fpAuthBodyHashBuild, hbody, fpAuthBodyHashBuild, hbody]

-- ════════════════════════════════════════════════════════════════════════
-- Messages whose keys are texts
-- ════════════════════════════════════════════════════════════════════════

theorem text_eq_flatMap (s : String) : text s = s.toList.flatMap String.utf8EncodeChar := by
  rw [text, String.toUTF8, ← String.utf8Encode_toList, List.utf8Encode]
  simp

/-- `tolower` on the code of a character. -/
def lowerNat (n : ℕ) : ℕ := if 65 ≤ n ∧ n ≤ 90 then n + 32 else n

theorem toLower_toNat (c : Char) : c.toLower.val.toNat = lowerNat c.val.toNat := by
  rw [Char.toLower, lowerNat]
  split_ifs with h hn hn
  · obtain ⟨hlo, hhi⟩ := h
    have hhi' : c.val.toNat ≤ 90 := hhi
    change (c.val + 32).toNat = _
    rw [UInt32.toNat_add]
    exact Nat.mod_eq_of_lt (show c.val.toNat + 32 < _ by omega)
  · exact absurd h hn
  · exact absurd hn h
  · rfl

/-- A byte of a letter outside ASCII has no case. -/
theorem lower_ofNat {n : ℕ} (hlo : 128 ≤ n) (hhi : n < 256) :
    lower (UInt8.ofNat n) = UInt8.ofNat n := by
  refine if_neg fun h => ?_
  have hle : (UInt8.ofNat n).toNat ≤ 90 := h.2
  rw [UInt8.toNat_ofNat', Nat.mod_eq_of_lt hhi] at hle
  omega

theorem map_lower_utf8EncodeChar (c : Char) :
    (String.utf8EncodeChar c).map lower = String.utf8EncodeChar c.toLower := by
  have hascii : ∀ n < 128, lower (UInt8.ofNat n) = UInt8.ofNat (lowerNat n) := by decide
  have hnat := toLower_toNat c
  rw [String.utf8EncodeChar, String.utf8EncodeChar, hnat]
  generalize c.val.toNat = n
  by_cases h : n ≤ 0x7f
  · rw [if_pos h, if_pos (by rw [lowerNat]; split_ifs <;> omega)]
    exact congrArg (fun b => [b]) (hascii n (by omega))
  · have hsame : lowerNat n = n := if_neg (by omega)
    rw [hsame]
    split_ifs <;> simp (disch := omega) only [List.map_cons, List.map_nil, lower_ofNat]

theorem map_lower_text (s : String) : (text s).map lower = text s.toLower := by
  rw [text_eq_flatMap, text_eq_flatMap, String.toLower, String.toList_map, List.map_flatMap,
    List.flatMap_map]
  exact List.flatMap_congr fun c _ => map_lower_utf8EncodeChar c

theorem sameKey_keyString {a b : String} (ha : 0 ∉ text a) (hb : 0 ∉ text b) :
    sameKey (keyString a) (keyString b) = Protocol.sameKey a b := by
  rw [sameKey, Protocol.sameKey, keyString_bytes ha, keyString_bytes hb, map_lower_text,
    map_lower_text, Bool.eq_iff_iff, beq_iff_eq, beq_iff_eq, text_injective.eq_iff]

theorem deleteItem_ofFields {fields : List (String × Json)} (h : NoZeroFields fields) {key : String}
    (hkey : 0 ∉ text key) :
    deleteItem (ofFields fields) (keyString key) = ofFields (Protocol.deleteItem fields key) ∧
      NoZeroFields (Protocol.deleteItem fields key) := by
  induction fields with
  | nil => exact ⟨rfl, trivial⟩
  | cons f fs ih =>
    obtain ⟨hf, hv, hfs⟩ := h
    obtain ⟨hdelete, hzero⟩ := ih hfs
    have hsame := sameKey_keyString hf hkey
    rw [Protocol.deleteItem] at hdelete hzero ⊢
    rw [deleteItem, ofFields, List.eraseP_cons, List.eraseP_cons, hsame]
    cases Protocol.sameKey f.1 key with
    | true => exact ⟨rfl, hfs⟩
    | false => exact ⟨congrArg ((keyString f.1, ofJson f.2) :: ·) hdelete, hf, hv, hzero⟩

theorem foldl_deleteItem_ofFields {keys : List String} (hkeys : ∀ k ∈ keys, 0 ∉ text k)
    {fields : List (String × Json)} (h : NoZeroFields fields) :
    (keys.map keyString).foldl deleteItem (ofFields fields) =
        ofFields (keys.foldl Protocol.deleteItem fields) ∧
      NoZeroFields (keys.foldl Protocol.deleteItem fields) := by
  induction keys generalizing fields with
  | nil => exact ⟨rfl, h⟩
  | cons key keys ih =>
    obtain ⟨hkey, hkeys⟩ := List.forall_mem_cons.mp hkeys
    obtain ⟨hdelete, hzero⟩ := deleteItem_ofFields h hkey
    rw [List.map_cons, List.foldl_cons, List.foldl_cons, hdelete]
    exact ih hkeys hzero

/-- The body of a message whose keys are texts. -/
theorem body_ofJson {m : Json} (h : NoZeroKeys m) :
    body (ofJson m) = ofJson (Json.body m) ∧ NoZeroKeys (Json.body m) := by
  cases m with
  | object fields =>
    have hkeys : ∀ k ∈ Protocol.envelope, 0 ∉ text k :=
      List.all_iff_forall_prop.mp (by decide +kernel)
    obtain ⟨hstrip, hzero⟩ := foldl_deleteItem_ofFields hkeys h
    exact ⟨congrArg CJson.object hstrip, hzero⟩
  | null | bool | number | string | array => exact ⟨rfl, h⟩

/-- The hash of a message whose keys are texts. -/
theorem fpAuthBodyHashBuild_ofJson {P : Primitives} {m : Json} (h : NoZeroKeys m) :
    fpAuthBodyHashBuild P (ofJson m) = Protocol.fpAuthBodyHashBuild P m := by
  obtain ⟨hbody, hzero⟩ := body_ofJson h
  rw [fpAuthBodyHashBuild, hbody, fpAuthCanonBuild, canonWrite_ofJson _ hzero]
  rfl

end Fountainer.Protocol.CJson
