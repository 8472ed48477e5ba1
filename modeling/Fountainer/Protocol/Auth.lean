import Fountainer.Datapoints.Codec
import Fountainer.Lib.Base64
import Fountainer.Lib.Hex

/-!
# Message authentication

`fp_auth.c`: the canonical form of a JSON value, the hash of a message body, the MAC over
thirteen fields, and the check of a received message. What the code takes from mbedTLS,
from cJSON's parser and from C's formatted output of a `double` are parameters, collected
in `Primitives`; the results below hold whatever they compute. Allocations succeed.
-/

namespace Fountainer.Protocol

open Bytes (CString)
open Datapoints (Json)

/-- The functions that the code calls and does not define. `hmac128` is the HMAC-SHA-256 cut
    to its first 128 bits. -/
structure Primitives where
  parse : List UInt8 → Option Json
  sha256 : List UInt8 → Vector UInt8 32
  hmac128 : List UInt8 → List UInt8 → List UInt8
  /-- `snprintf("%.*g")`. -/
  formatG : ℕ → Float → List UInt8
  strtod : List UInt8 → Float

/-- The bytes of a string literal of the source. -/
def text (s : String) : List UInt8 := s.toUTF8.data.toList

/-- `%lld`. -/
def printInt (n : ℤ) : List UInt8 := text (toString n)

/-- The integer part of a `double`, toward zero. -/
def truncate (x : Float) : ℤ :=
  match x.toModel.unpack with
  | .finite s m e _ => Float.Model.UnpackedFloat.roundToInt s m e
  | _ => 0

/-- `cJSON_GetObjectItemCaseSensitive`. -/
def Json.get? (m : Json) (key : String) : Option Json :=
  match m with
  | .object fields => fields.lookup key
  | _ => none

/-- The keys are equal up to the case of ASCII letters. -/
def sameKey (a b : String) : Bool := a.toLower == b.toLower

/-- `cJSON_DeleteItemFromObject`: the first item whose key matches ignoring case. -/
def deleteItem (fields : List (String × Json)) (key : String) : List (String × Json) :=
  fields.eraseP (fun f => sameKey f.1 key)

-- ════════════════════════════════════════════════════════════════════════
-- Canonical form
-- ════════════════════════════════════════════════════════════════════════

/-- One byte of `emit_string`. -/
def emitByte (b : UInt8) : List UInt8 :=
  if b = 34 then [92, 34]
  else if b = 92 then [92, 92]
  else if b = 8 then [92, 98]
  else if b = 12 then [92, 102]
  else if b = 10 then [92, 110]
  else if b = 13 then [92, 114]
  else if b = 9 then [92, 116]
  else if b < 0x20 then [92, 117, 48, 48] ++ Hex.text Hex.lowerDigit [b]
  else [b]

/-- `emit_string`. -/
def emitString (s : List UInt8) : List UInt8 := [34] ++ s.flatMap emitByte ++ [34]

section Auth

variable (P : Primitives)

/-- The loop of `emit_number` over 15 to 17 significant digits: the first form that
    `strtod` reads back, or the last one. -/
def shortest (d : Float) : List UInt8 :=
  let forms := [P.formatG 15 d, P.formatG 16 d, P.formatG 17 d]
  (forms.find? (fun b => P.strtod b == d)).getD (P.formatG 17 d)

/-- `emit_number`. -/
def emitNumber (d : Float) : List UInt8 :=
  if d == Float.ofInt (truncate d) && d ≥ -9.0e15 && d ≤ 9.0e15 then printInt (truncate d)
  else shortest P d

/-- The order of `cmp_name`. -/
def keyLe (a b : String × List UInt8) : Bool := !decide (text b.1 < text a.1)

mutual

/-- `canon_write`. -/
def canonWrite : Json → List UInt8
  | .object fields =>
    [123] ++ [44].intercalate (((canonFields fields).mergeSort keyLe).map
      (fun f => emitString (text f.1) ++ [58] ++ f.2)) ++ [125]
  | .array items => [91] ++ [44].intercalate (canonItems items) ++ [93]
  | .string s => emitString s.bytes
  | .number d => emitNumber P d
  | .bool true => text "true"
  | .bool false => text "false"
  | .null => text "null"

/-- The items of an array in canonical form. -/
def canonItems : List Json → List (List UInt8)
  | [] => []
  | v :: vs => canonWrite v :: canonItems vs

/-- The fields of an object in canonical form, not yet sorted. -/
def canonFields : List (String × Json) → List (String × List UInt8)
  | [] => []
  | (k, v) :: fs => (k, canonWrite v) :: canonFields fs

end

/-- `fp_auth_canon_build`. -/
def fpAuthCanonBuild (m : Json) : List UInt8 := canonWrite P m

/-- `fp_auth_sha256_hex`. -/
def fpAuthSha256Hex (data : List UInt8) : List UInt8 :=
  Hex.text Hex.lowerDigit (P.sha256 data).toList

/-- `ENVELOPE`. -/
def envelope : List String := ["v", "type", "serial", "ts", "msg_id", "in_reply_to", "auth"]

/-- The message without its envelope. -/
def Json.body : Json → Json
  | .object fields => .object (envelope.foldl deleteItem fields)
  | m => m

/-- `fp_auth_body_hash_build`. -/
def fpAuthBodyHashBuild (m : Json) : List UInt8 :=
  fpAuthSha256Hex P (fpAuthCanonBuild P (Json.body m))

-- ════════════════════════════════════════════════════════════════════════
-- The MAC
-- ════════════════════════════════════════════════════════════════════════

/-- `field_str`. -/
def fieldStr (m : Json) (key : String) : List UInt8 :=
  match Json.get? m key with
  | some (.string s) => s.bytes
  | some (.number x) => printInt (truncate x)
  | _ => []

/-- What a MAC is computed for: the direction, the device and the session. -/
structure MacContext where
  direction : List UInt8
  deviceId : List UInt8
  serverNonce : List UInt8
  clientNonce : List UInt8

/-- The separator 0x1F. -/
def unitSeparator : UInt8 := 0x1F

/-- The text of the sequence number, in a buffer of 24 bytes. -/
def printSeq (seq : ℤ) : List UInt8 := (printInt seq).take 23

/-- The input of the MAC: thirteen fields. -/
def macInput (m : Json) (c : MacContext) (kid : List UInt8) (seq : ℤ) : List UInt8 :=
  [unitSeparator].intercalate
    [fieldStr m "v", fieldStr m "type", c.direction, c.deviceId, fieldStr m "serial",
      fieldStr m "ts",
      fieldStr m "msg_id", fieldStr m "in_reply_to", kid, printSeq seq, c.serverNonce,
      c.clientNonce,
      fpAuthBodyHashBuild P m]

/-- `fp_auth_base64_encode`. -/
def fpAuthBase64Encode (data : List UInt8) : CString where
  bytes := Base64.encode data
  nonzero b hb h := by
    have hge := Base64.encode_ge data b hb
    rw [h] at hge
    exact absurd hge (by decide)

/-- `compute_mac`. -/
def computeMac (key : List UInt8) (input : List UInt8) : CString :=
  fpAuthBase64Encode (P.hmac128 key input)

/-- The reasons of `fp_auth_message_verify`. -/
inductive AuthError where
  | missingAuth
  | kidMismatch
  | badSeq
  | badMac
  | macMismatch
  deriving DecidableEq, Repr

/-- The text of a reason. -/
def AuthError.text : AuthError → String
  | .missingAuth => "missing_auth"
  | .kidMismatch => "kid_mismatch"
  | .badSeq => "bad_seq"
  | .badMac => "bad_mac"
  | .macMismatch => "mac_mismatch"

/-- `fp_auth_message_verify`. -/
def fpAuthMessageVerify (m : Json) (key : List UInt8) (expectedKid : List UInt8) (c : MacContext) :
    Except AuthError Unit :=
  match Json.get? m "auth" with
  | some (.object auth) =>
    let a := Json.object auth
    match Json.get? a "kid" with
    | some (.string kid) =>
      if kid.bytes ≠ expectedKid then .error .kidMismatch
      else
        match Json.get? a "seq", Json.get? a "mac" with
        | some (.number seq), some (.string mac) =>
          if (computeMac P key (macInput P m c kid.bytes (truncate seq))).bytes =
            mac.bytes then .ok ()
          else .error .macMismatch
        | some (.number _), _ => .error .badMac
        | _, _ => .error .badSeq
    | _ => .error .kidMismatch
  | _ => .error .missingAuth

/-- `fp_auth_message_sign`: the fields of the message with `auth` appended. -/
def fpAuthMessageSign (fields : List (String × Json)) (key : List UInt8) (kid : CString) (seq : ℤ)
    (c : MacContext) : List (String × Json) :=
  deleteItem fields "auth" ++ [("auth", .object [("kid", .string kid),
    ("seq", .number (Float.ofInt seq)),
    ("mac", .string (computeMac P key (macInput P (.object fields) c kid.bytes seq)))])]

/-- The sequence number in a message, truncated. -/
def Json.seq (m : Json) : ℤ :=
  match (Json.get? m "auth").bind (Json.get? · "seq") with
  | some (.number x) => truncate x
  | _ => 0

/-- The MAC in a message. -/
def Json.mac (m : Json) : List UInt8 :=
  match (Json.get? m "auth").bind (Json.get? · "mac") with
  | some (.string s) => s.bytes
  | _ => []

end Auth

/-- `fp_replay_check` on the window `last`. -/
def fpReplayCheck (last : ℤ) (seq : ℤ) : Bool × ℤ :=
  if seq ≤ last then (false, last) else (true, seq)

end Fountainer.Protocol
