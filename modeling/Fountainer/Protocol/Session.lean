import Fountainer.Protocol.Auth
import Fountainer.Lib.Runs

/-!
# The session

`fp_session.c` with the envelopes of `fp_envelope.c`: the state machine of one connection.
The application's callbacks work on a state `σ` of their own and may be absent, as in
`fp_config_t`; `out` records the callbacks that a step invokes and the messages that it
sends. The sequence numbers are unbounded.
-/

namespace Fountainer.Protocol

open Bytes (CString)
open Datapoints (Json)

/-- `fp_msg_type_t`. -/
inductive FpMsgType where
  | hello
  | helloAck
  | protocolMismatch
  | otaCheck
  | otaAvailable
  | otaNone
  | otaCancel
  | otaStatus
  | heartbeat
  | dpReport
  | dpRead
  | dpWrite
  | dpWriteResult
  | command
  | commandResult
  | errorReport
  | deviceAlert
  | logRead
  | logBatch
  | logReadPrev
  | logAckPrev
  | logAckResult
  | historyRead
  | historyBatch
  deriving DecidableEq, Repr

/-- The name and the envelope version of a message type in `s_meta`. -/
def FpMsgType.meta : FpMsgType → String × ℕ
  | .hello => ("hello", 1)
  | .helloAck => ("hello_ack", 1)
  | .protocolMismatch => ("protocol_mismatch", 1)
  | .otaCheck => ("ota_check", 2)
  | .otaAvailable => ("ota_available", 2)
  | .otaNone => ("ota_none", 2)
  | .otaCancel => ("ota_cancel", 2)
  | .otaStatus => ("ota_status", 2)
  | .heartbeat => ("heartbeat", 2)
  | .dpReport => ("dp_report", 2)
  | .dpRead => ("dp_read", 2)
  | .dpWrite => ("dp_write", 2)
  | .dpWriteResult => ("dp_write_result", 2)
  | .command => ("command", 2)
  | .commandResult => ("command_result", 2)
  | .errorReport => ("error_report", 2)
  | .deviceAlert => ("device_alert", 2)
  | .logRead => ("log_read", 2)
  | .logBatch => ("log_batch", 2)
  | .logReadPrev => ("log_read_prev", 2)
  | .logAckPrev => ("log_ack_prev", 2)
  | .logAckResult => ("log_ack_result", 2)
  | .historyRead => ("history_read", 2)
  | .historyBatch => ("history_batch", 2)

/-- `s_meta`, in order. -/
def fpMsgTypes : List FpMsgType :=
  [.hello, .helloAck, .protocolMismatch, .otaCheck, .otaAvailable, .otaNone, .otaCancel, .otaStatus,
    .heartbeat, .dpReport, .dpRead, .dpWrite, .dpWriteResult, .command,
    .commandResult, .errorReport,
    .deviceAlert, .logRead, .logBatch, .logReadPrev, .logAckPrev, .logAckResult, .historyRead,
    .historyBatch]

/-- `fp_msg_type_from_name`; `none` stands for `FP_MSG_COUNT`. -/
def fpMsgTypeFromName (name : List UInt8) : Option FpMsgType :=
  fpMsgTypes.find? (fun t => text t.meta.1 == name)

/-- `fp_envelope_type`. -/
def fpEnvelopeType (m : Json) : Option FpMsgType :=
  match Json.get? m "type" with
  | some (.string s) => fpMsgTypeFromName s.bytes
  | _ => none

/-- `str_of`. -/
def strOf (m : Json) (key : String) : Option CString :=
  match Json.get? m key with
  | some (.string s) => some s
  | _ => none

/-- A number of the message, when it is one. -/
def numberOf (m : Json) (key : String) : Option Float :=
  match Json.get? m key with
  | some (.number x) => some x
  | _ => none

/-- The part of `fp_config_t` that the session uses, without the callbacks. -/
structure FpConfig where
  deviceId : CString
  serial : CString
  fwVersion : CString
  hwRev : Option CString
  authKid : CString
  authKey : List UInt8

/-- The callbacks of `fp_config_t`. Those that fill an answer return its fields. -/
structure FpApp (σ : Type*) where
  fillSnapshot : Option (σ → Option Json → List (String × Json) × σ)
  onCommand : Option (σ → Json → List (String × Json) × σ)
  onDpWrite : Option (σ → Option Json → List (String × Json) × σ)
  onReady : Option (σ → σ)
  onOta : Option (σ → Json → σ)
  fillLogBatch : Option (σ → UInt32 → UInt8 → UInt16 → Bool → List (String × Json) × σ)
  onLogAckPrev : Option (σ → UInt32 → Bool × σ)
  fillHistoryBatch : Option (σ → UInt32 → UInt32 → List (String × Json) × σ)

/-- An invocation of a callback. -/
inductive Callback where
  | fillSnapshot (names : Option Json)
  | onCommand (m : Json)
  | onDpWrite (dp : Option Json)
  | onReady
  | onOta (m : Json)
  | fillLogBatch (since : UInt32) (minLevel : UInt8) (maxRecords : UInt16) (prevBoot : Bool)
  | onLogAckPrev (bootId : UInt32)
  | fillHistoryBatch (since maxSamples : UInt32)

/-- What a step of the session does outside. -/
inductive SessionAct where
  | call (c : Callback)
  | send (msg : Json)

/-- `fp_session_t`, the fields of a connection. -/
structure FpSession where
  serverNonce : CString
  clientNonce : CString
  kid : CString
  replayS2c : ℤ
  c2sSeq : ℤ
  reportSeq : UInt32
  negotiated : Bool
  running : Bool

/-- A session, the state of the application, and what the current step did. -/
structure FpWorld (σ : Type*) where
  session : FpSession
  app : σ
  out : List SessionAct

/-- The empty string. -/
def emptyString : CString := ⟨[], by simp⟩

/-- A string literal of the source without a zero byte. -/
def literal (s : String) (h : (text s).all (· != 0) = true := by decide) : CString where
  bytes := text s
  nonzero b hb := bne_iff_ne.mp (List.all_eq_true.mp h b hb)

/-- The status of a message that is turned down. -/
def rejected : CString := literal "rejected"

/-- The text in a buffer of `size` bytes, as `snprintf` leaves it. -/
def snprintf (size : ℕ) (s : CString) : CString where
  bytes := s.bytes.take (size - 1)
  nonzero b hb := s.nonzero b (List.mem_of_mem_take hb)

/-- `fp_session_reset`. -/
def fpSessionReset (s : FpSession) : FpSession :=
  { s with
    serverNonce := emptyString, clientNonce := emptyString, kid := emptyString
    replayS2c := 0, c2sSeq := 0, reportSeq := 0, negotiated := false, running := false }

/-- `fp_session_ota_failed_note`: whether the caller fires `on_ready`. -/
def fpSessionOtaFailedNote (s : FpSession) : Bool × FpSession :=
  if !s.negotiated || s.running then (false, s) else (true, { s with running := true })

/-- An action recorded. -/
def FpWorld.emit {σ : Type*} (w : FpWorld σ) (a : SessionAct) : FpWorld σ :=
  { w with out := w.out ++ [a] }

section Handlers

variable {σ : Type*} (P : Primitives) (A : FpApp σ) (cfg : FpConfig) (now : Float)

/-- `fp_envelope_build`. -/
def fpEnvelopeBuild (type : FpMsgType) (body : List (String × Json))
    (msgId inReplyTo : Option CString) :
    List (String × Json) :=
  [("v", .number (Float.ofNat type.meta.2)),
    ("type", .string (literal type.meta.1 (by cases type <;> decide))),
    ("ts", .number now), ("serial", .string cfg.serial)] ++
  (msgId.map (fun s => ("msg_id", Json.string s))).toList ++
  (inReplyTo.map (fun s => ("in_reply_to", Json.string s))).toList ++ body

/-- `send_msg` of a message with this body. -/
def sendMsg (w : FpWorld σ) (type : FpMsgType) (body : List (String × Json))
    (msgId inReplyTo : Option CString) : FpWorld σ :=
  w.emit (.send (.object (fpEnvelopeBuild cfg now type body msgId inReplyTo)))

/-- The MAC context of the session for a direction. -/
def FpSession.macContext (s : FpSession) (direction : String) : MacContext where
  direction := text direction
  deviceId := cfg.deviceId.bytes
  serverNonce := s.serverNonce.bytes
  clientNonce := s.clientNonce.bytes

/-- `verify_s2c`: the MAC, then the window. -/
def verifyS2c (s : FpSession) (m : Json) : Bool × FpSession :=
  match fpAuthMessageVerify P m cfg.authKey s.kid.bytes (s.macContext cfg "s2c") with
  | .error _ => (false, s)
  | .ok () =>
    let r := fpReplayCheck s.replayS2c (Json.seq m)
    (r.1, { s with replayS2c := r.2 })

/-- `fp_session_hello_send` with the nonce's 16 random bytes. -/
def fpSessionHelloSend (w : FpWorld σ) (random : Vector UInt8 16) : FpWorld σ :=
  let nonce := snprintf 32 (fpAuthBase64Encode random.toList)
  let w := { w with session := { w.session with clientNonce := nonce } }
  let body :=
    [("device_id", Json.string cfg.deviceId), ("protocol_version", .number 2),
      ("fw_version", .string cfg.fwVersion)] ++
    (cfg.hwRev.map (fun s => ("hw_rev", Json.string s))).toList ++
    [("boot_reason", .string (literal "power_on")),
      ("auth_schemes", .array [.string (literal "hmac-sha256")]),
      ("auth_kids", .array [.string cfg.authKid]), ("client_nonce", .string nonce)]
  sendMsg cfg now w .hello body (some (literal "hello-1")) none

/-- `ota_check_send`: the signed proof of the session. -/
def otaCheckSend (w : FpWorld σ) : FpWorld σ :=
  let body := [("current_version", Json.string cfg.fwVersion)] ++
    (cfg.hwRev.map (fun s => ("hw_rev", Json.string s))).toList
  let msg := fpEnvelopeBuild cfg now .otaCheck body (some (literal "chk-1")) none
  let s := { w.session with c2sSeq := w.session.c2sSeq + 1 }
  let signed := fpAuthMessageSign P msg cfg.authKey s.kid s.c2sSeq (s.macContext cfg "c2s")
  { w with session := s }.emit (.send (.object signed))

/-- `handle_hello_ack`. -/
def handleHelloAck (w : FpWorld σ) (m : Json) : FpWorld σ :=
  match Json.get? m "accepted" with
  | some (.bool true) =>
    match strOf m "server_nonce", strOf m "auth_kid" with
    | some sn, some kid =>
      otaCheckSend P cfg now { w with session := { w.session with
        serverNonce := snprintf 64 sn, kid := snprintf 16 kid, negotiated := true } }
    | _, _ => w
  | _ => w

/-- `dp_report_send_names`. -/
def dpReportSendNames (w : FpWorld σ) (inReplyTo : Option CString)
    (names : Option Json) : FpWorld σ :=
  let r : List (String × Json) × FpWorld σ :=
    match A.fillSnapshot with
    | some f =>
      let r := f w.app names
      (r.1, { w with app := r.2 }.emit (.call (.fillSnapshot names)))
    | none => ([], w)
  let seq := r.2.session.reportSeq
  let w := { r.2 with session := { r.2.session with reportSeq := seq + 1 } }
  sendMsg cfg now w .dpReport [("seq", .number seq.toFloat), ("dp", .object r.1)] none inReplyTo

/-- `handle_dp_read`. -/
def handleDpRead (w : FpWorld σ) (m : Json) : FpWorld σ :=
  let names :=
    match Json.get? m "names" with
    | some (.array (v :: vs)) => some (.array (v :: vs))
    | _ => none
  dpReportSendNames A cfg now w (strOf m "msg_id") names

/-- `handle_log_read`. -/
def handleLogRead (w : FpWorld σ) (m : Json) (prevBoot : Bool) : FpWorld σ :=
  let v := verifyS2c P cfg w.session m
  let w := { w with session := v.2 }
  if !v.1 then w
  else
    let since := ((numberOf m "since_seq").map Float.toUInt32).getD 0
    let minLevel := ((numberOf m "min_level").map Float.toUInt8).getD 0
    let maxRecords := ((numberOf m "max_records").map (fun x => min x.toUInt16 128)).getD 64
    let r : List (String × Json) × FpWorld σ :=
      match A.fillLogBatch with
      | some f =>
        let r := f w.app since minLevel maxRecords prevBoot
        (r.1, { w with app := r.2 }.emit (.call (.fillLogBatch since minLevel maxRecords prevBoot)))
      | none => ([("boot_id", .number 0), ("records", .array [])], w)
    sendMsg cfg now r.2 .logBatch r.1 none (strOf m "msg_id")

/-- `handle_history_read`. -/
def handleHistoryRead (w : FpWorld σ) (m : Json) : FpWorld σ :=
  let v := verifyS2c P cfg w.session m
  let w := { w with session := v.2 }
  if !v.1 then w
  else
    let since := ((numberOf m "since_seq").map Float.toUInt32).getD 0
    let maxSamples := ((numberOf m "max_samples").map (fun x => min x.toUInt32 120)).getD 100
    let r : List (String × Json) × FpWorld σ :=
      match A.fillHistoryBatch with
      | some f =>
        let r := f w.app since maxSamples
        (r.1, { w with app := r.2 }.emit (.call (.fillHistoryBatch since maxSamples)))
      | none => ([("samples", .array []), ("next_seq", .number 1)], w)
    sendMsg cfg now r.2 .historyBatch r.1 none (strOf m "msg_id")

/-- `handle_log_ack_prev`. -/
def handleLogAckPrev (w : FpWorld σ) (m : Json) : FpWorld σ :=
  let v := verifyS2c P cfg w.session m
  let w := { w with session := v.2 }
  if !v.1 then w
  else
    let bootId := ((numberOf m "boot_id").map Float.toUInt32).getD 0
    let r : Bool × FpWorld σ :=
      match A.onLogAckPrev with
      | some f =>
        let r := f w.app bootId
        (r.1, { w with app := r.2 }.emit (.call (.onLogAckPrev bootId)))
      | none => (false, w)
    sendMsg cfg now r.2 .logAckResult [("ok", .bool r.1)] none (strOf m "msg_id")

/-- `handle_command`. -/
def handleCommand (w : FpWorld σ) (m : Json) : FpWorld σ :=
  let v := verifyS2c P cfg w.session m
  let w := { w with session := v.2 }
  let r : List (String × Json) × FpWorld σ :=
    if v.1 then
      match A.onCommand with
      | some f =>
        let r := f w.app m
        (r.1, { w with app := r.2 }.emit (.call (.onCommand m)))
      | none =>
        ([("status", .string rejected), ("error", .string (literal "unknown_command"))], w)
    else ([("status", .string rejected), ("error", .string (literal "auth_failed"))], w)
  let result :=
    if r.1.any (fun f => sameKey f.1 "command") then r.1
    else r.1 ++ [("command", .string ((strOf m "command").getD emptyString))]
  sendMsg cfg now r.2 .commandResult result none (strOf m "msg_id")

/-- `handle_dp_write`. -/
def handleDpWrite (w : FpWorld σ) (m : Json) : FpWorld σ :=
  let v := verifyS2c P cfg w.session m
  let w := { w with session := v.2 }
  let r : List (String × Json) × FpWorld σ :=
    if v.1 then
      let dp := Json.get? m "dp"
      match A.onDpWrite with
      | some f =>
        let r := f w.app dp
        (r.1, { w with app := r.2 }.emit (.call (.onDpWrite dp)))
      | none => ([("status", .string rejected)], w)
    else
      ([("status", .string rejected),
        ("errors", .object [("_", .string (literal "auth_failed"))])], w)
  sendMsg cfg now r.2 .dpWriteResult r.1 none (strOf m "msg_id")

/-- The case `FP_MSG_OTA_NONE`. -/
def handleOtaNone (w : FpWorld σ) : FpWorld σ :=
  let w := { w with session := { w.session with running := true } }
  match A.onReady with
  | some f => { w with app := f w.app }.emit (.call .onReady)
  | none => w

/-- The case `FP_MSG_OTA_AVAILABLE`. -/
def handleOtaAvailable (w : FpWorld σ) (m : Json) : FpWorld σ :=
  let v := verifyS2c P cfg w.session m
  let w := { w with session := v.2 }
  match v.1, A.onOta with
  | true, some f => { w with app := f w.app m }.emit (.call (.onOta m))
  | _, _ => w

/-- The switch of `fp_session_message_handle`. -/
def dispatch (w : FpWorld σ) (m : Json) : FpWorld σ :=
  match fpEnvelopeType m with
  | some .helloAck => handleHelloAck P cfg now w m
  | some .otaNone => handleOtaNone A w
  | some .dpRead => handleDpRead A cfg now w m
  | some .command => if w.session.running then handleCommand P A cfg now w m else w
  | some .dpWrite => if w.session.running then handleDpWrite P A cfg now w m else w
  | some .logRead => if w.session.running then handleLogRead P A cfg now w m false else w
  | some .logReadPrev => if w.session.running then handleLogRead P A cfg now w m true else w
  | some .logAckPrev => if w.session.running then handleLogAckPrev P A cfg now w m else w
  | some .historyRead => if w.session.running then handleHistoryRead P A cfg now w m else w
  | some .otaAvailable => handleOtaAvailable P A cfg w m
  | some .otaCancel => { w with session := (verifyS2c P cfg w.session m).2 }
  | _ => w

/-- `fp_session_message_handle`: whether the text was JSON. -/
def fpSessionMessageHandle (w : FpWorld σ) (json : List UInt8) : Bool × FpWorld σ :=
  match P.parse json with
  | some m => (true, dispatch P A cfg now w m)
  | none => (false, w)

end Handlers

end Fountainer.Protocol
