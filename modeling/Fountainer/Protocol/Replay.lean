import Fountainer.Protocol.Session
import Fountainer.Lib.Traces

/-!
# What a session acts on

The callbacks that change the device or read its logs are invoked only for a frame that
`verify_s2c` has accepted: its MAC holds for the session's key id and nonces, and its
sequence number is above those of all frames accepted before. So no frame is acted on
twice in a connection. The input of the MAC ends in the nonce of the client, a separator
and the hash of the body, all of fixed length; so a frame of one connection has a wrong MAC
in every other one.
-/

namespace Fountainer.Protocol

open Bytes (CString)
open Datapoints (Json)
open Traces (Grows)

variable {σ : Type*} {P : Primitives} {A : FpApp σ} {cfg : FpConfig} {now : Float}
  {w w' : FpWorld σ} {m : Json}

-- ════════════════════════════════════════════════════════════════════════
-- One frame
-- ════════════════════════════════════════════════════════════════════════

/-- The callbacks that act on an authenticated frame. -/
def Callback.controlled : Callback → Bool
  | .onCommand _ | .onDpWrite _ | .onOta _ | .fillLogBatch _ _ _ _ | .onLogAckPrev _
  | .fillHistoryBatch _ _ => true
  | .fillSnapshot _ | .onReady => false

/-- The action is a controlled callback. -/
def SessionAct.isControlled : SessionAct → Bool
  | .call c => c.controlled
  | .send _ => false

/-- The callback starts a firmware update. -/
def Callback.isOta : Callback → Bool
  | .onOta _ => true
  | _ => false

/-- The MAC of the message holds for the session. -/
def Authentic (P : Primitives) (cfg : FpConfig) (s : FpSession) (m : Json) : Prop :=
  fpAuthMessageVerify P m cfg.authKey s.kid.bytes (s.macContext cfg "s2c") = .ok ()

/-- The handler of the message calls `verify_s2c`. -/
def FpSession.checks (s : FpSession) (m : Json) : Bool :=
  match fpEnvelopeType m with
  | some .command | some .dpWrite | some .logRead | some .logReadPrev | some .logAckPrev
  | some .historyRead => s.running
  | some .otaAvailable | some .otaCancel => true
  | _ => false

/-- The session accepts the message: its handler checks it, and the check passes. -/
def Accepts (P : Primitives) (cfg : FpConfig) (s : FpSession) (m : Json) : Prop :=
  s.checks m = true ∧ (verifyS2c P cfg s m).1 = true

theorem verifyS2c_cases (P : Primitives) (cfg : FpConfig) (s : FpSession) (m : Json) :
    (verifyS2c P cfg s m = (false, s)) ∨
      (verifyS2c P cfg s m = (true, { s with replayS2c := Json.seq m }) ∧ Authentic P cfg s m ∧
        s.replayS2c < Json.seq m) := by
  rw [verifyS2c]
  split
  · exact .inl rfl
  · next hmac =>
    rw [fpReplayCheck]
    split
    · exact .inl rfl
    · next hseq => exact .inr ⟨rfl, hmac, not_le.mp hseq⟩

theorem verifyS2c_clientNonce (s : FpSession) (m : Json) :
    (verifyS2c P cfg s m).2.clientNonce = s.clientNonce := by
  rcases verifyS2c_cases P cfg s m with h | ⟨h, -⟩ <;> rw [h]

/-- The action is no controlled callback, or the check has passed, in a running session
    unless it starts an update. -/
def Allowed (passed running : Prop) : SessionAct → Prop
  | .call c => c.controlled = true → passed ∧ (c.isOta = false → running)
  | .send _ => True

/-- A handler that has checked the message first: the session is that of the check, and
    controlled callbacks follow a passed check only. -/
structure Handled (P : Primitives) (cfg : FpConfig) (w : FpWorld σ) (m : Json) (w' : FpWorld σ) :
    Prop where
  session : w'.session = (verifyS2c P cfg w.session m).2
  out : Grows (Allowed ((verifyS2c P cfg w.session m).1 = true) (w.session.running = true))
    w.out w'.out

/-- The action invokes a controlled callback that is allowed, or sends. -/
def Controlled (passed running : Prop) : SessionAct → Prop
  | .call c => c.controlled = true ∧ passed ∧ (c.isOta = false → running)
  | .send _ => True

/-- A handler of a control message: it checks the message and invokes controlled callbacks
    only. -/
structure Answers (P : Primitives) (cfg : FpConfig) (w : FpWorld σ) (m : Json) (w' : FpWorld σ) :
    Prop where
  session : w'.session = (verifyS2c P cfg w.session m).2
  out : Grows (Controlled ((verifyS2c P cfg w.session m).1 = true) (w.session.running = true))
    w.out w'.out

theorem Answers.handled (h : Answers P cfg w m w') : Handled P cfg w m w' := by
  refine ⟨h.session, h.out.mono ?_⟩
  rintro (c | msg) ha
  · exact fun _ => ha.2
  · trivial

theorem Answers.verified (w : FpWorld σ) (m : Json) :
    Answers P cfg w m { w with session := (verifyS2c P cfg w.session m).2 } :=
  ⟨rfl, Grows.refl _ _⟩

theorem Answers.send (h : Answers P cfg w m w') (type : FpMsgType) (body : List (String × Json))
    (msgId inReplyTo : Option CString) :
    Answers P cfg w m (sendMsg cfg now w' type body msgId inReplyTo) :=
  ⟨h.session, h.out.concat trivial⟩

theorem Answers.call (h : Answers P cfg w m w') (app : σ) {c : Callback} (hc : c.controlled = true)
    (hpassed : (verifyS2c P cfg w.session m).1 = true)
    (hrunning : c.isOta = false → w.session.running = true) :
    Answers P cfg w m (FpWorld.emit { w' with app := app } (.call c)) :=
  ⟨h.session, h.out.concat ⟨hc, hpassed, hrunning⟩⟩

/-- A handler that returns when the check of the message fails. -/
theorem Answers.checked (h : (verifyS2c P cfg w.session m).1 = true → Answers P cfg w m w') :
    Answers P cfg w m (if !(verifyS2c P cfg w.session m).1 then
      { w with session := (verifyS2c P cfg w.session m).2 } else w') := by
  split
  · exact Answers.verified w m
  · next hpassed => exact h (by simpa using hpassed)

theorem handleLogRead_answers (hrunning : w.session.running = true) (prevBoot : Bool) :
    Answers P cfg w m (handleLogRead P A cfg now w m prevBoot) := by
  unfold handleLogRead
  dsimp only
  refine Answers.checked fun hpassed => ?_
  cases A.fillLogBatch with
  | none => exact (Answers.verified w m).send _ _ _ _
  | some f => exact ((Answers.verified w m).call _ rfl hpassed fun _ => hrunning).send _ _ _ _

theorem handleHistoryRead_answers (hrunning : w.session.running = true) :
    Answers P cfg w m (handleHistoryRead P A cfg now w m) := by
  unfold handleHistoryRead
  dsimp only
  refine Answers.checked fun hpassed => ?_
  cases A.fillHistoryBatch with
  | none => exact (Answers.verified w m).send _ _ _ _
  | some f => exact ((Answers.verified w m).call _ rfl hpassed fun _ => hrunning).send _ _ _ _

theorem handleLogAckPrev_answers (hrunning : w.session.running = true) :
    Answers P cfg w m (handleLogAckPrev P A cfg now w m) := by
  unfold handleLogAckPrev
  dsimp only
  refine Answers.checked fun hpassed => ?_
  cases A.onLogAckPrev with
  | none => exact (Answers.verified w m).send _ _ _ _
  | some f => exact ((Answers.verified w m).call _ rfl hpassed fun _ => hrunning).send _ _ _ _

theorem handleCommand_answers (hrunning : w.session.running = true) :
    Answers P cfg w m (handleCommand P A cfg now w m) := by
  unfold handleCommand
  dsimp only
  split
  · next hpassed =>
    cases A.onCommand with
    | none => exact (Answers.verified w m).send _ _ _ _
    | some f => exact ((Answers.verified w m).call _ rfl hpassed fun _ => hrunning).send _ _ _ _
  · exact (Answers.verified w m).send _ _ _ _

theorem handleDpWrite_answers (hrunning : w.session.running = true) :
    Answers P cfg w m (handleDpWrite P A cfg now w m) := by
  unfold handleDpWrite
  dsimp only
  split
  · next hpassed =>
    cases A.onDpWrite with
    | none => exact (Answers.verified w m).send _ _ _ _
    | some f => exact ((Answers.verified w m).call _ rfl hpassed fun _ => hrunning).send _ _ _ _
  · exact (Answers.verified w m).send _ _ _ _

-- An offered update needs no running session.
theorem handleOtaAvailable_answers : Answers P cfg w m (handleOtaAvailable P A cfg w m) := by
  unfold handleOtaAvailable
  dsimp only
  split
  · next f hpassed _ => exact (Answers.verified w m).call _ rfl hpassed nofun
  · exact Answers.verified w m

/-- What a frame does: the nonce of the client stays, the window moves by the check of an
    accepted message only, and controlled callbacks are for an accepted one. -/
structure Dispatched (P : Primitives) (cfg : FpConfig) (w : FpWorld σ) (m : Json) (w' : FpWorld σ) :
    Prop where
  clientNonce : w'.session.clientNonce = w.session.clientNonce
  accepted : Accepts P cfg w.session m → w'.session.replayS2c = Json.seq m
  ignored : ¬ Accepts P cfg w.session m → w'.session.replayS2c = w.session.replayS2c
  out : Grows (Allowed (Accepts P cfg w.session m) (w.session.running = true)) w.out w'.out

theorem Handled.dispatched (h : Handled P cfg w m w') (hchecks : w.session.checks m = true) :
    Dispatched P cfg w m w' := by
  have haccepts : Accepts P cfg w.session m ↔ (verifyS2c P cfg w.session m).1 = true :=
    and_iff_right hchecks
  refine ⟨?_, ?_, ?_, ?_⟩
  · rw [h.session, verifyS2c_clientNonce]
  · rw [haccepts, h.session]
    rcases verifyS2c_cases P cfg w.session m with hv | ⟨hv, -⟩ <;> simp [hv]
  · rw [haccepts, h.session]
    rcases verifyS2c_cases P cfg w.session m with hv | ⟨hv, -⟩ <;> simp [hv]
  · exact h.out.mono fun a ha => by rwa [haccepts]

/-- A message that its handler does not check. -/
theorem Dispatched.unchecked (hchecks : w.session.checks m = false)
    (hnonce : w'.session.clientNonce = w.session.clientNonce)
    (hwindow : w'.session.replayS2c = w.session.replayS2c)
    (hout : Grows (Allowed False False) w.out w'.out) : Dispatched P cfg w m w' := by
  have hnot : ¬ Accepts P cfg w.session m := by simp [Accepts, hchecks]
  refine ⟨hnonce, fun h => absurd h hnot, fun _ => hwindow, hout.mono ?_⟩
  rintro (c | msg) ha
  · exact fun hc => (ha hc).1.elim
  · trivial

theorem handleHelloAck_dispatched (hchecks : w.session.checks m = false) :
    Dispatched P cfg w m (handleHelloAck P cfg now w m) := by
  unfold handleHelloAck
  split
  · split
    · exact .unchecked hchecks rfl rfl ((Grows.refl _ _).concat trivial)
    · exact .unchecked hchecks rfl rfl (Grows.refl _ _)
  · exact .unchecked hchecks rfl rfl (Grows.refl _ _)

theorem handleOtaNone_dispatched (hchecks : w.session.checks m = false) :
    Dispatched P cfg w m (handleOtaNone A w) := by
  unfold handleOtaNone
  dsimp only
  split
  · exact .unchecked hchecks rfl rfl ((Grows.refl _ _).concat nofun)
  · exact .unchecked hchecks rfl rfl (Grows.refl _ _)

theorem handleDpRead_dispatched (hchecks : w.session.checks m = false) :
    Dispatched P cfg w m (handleDpRead A cfg now w m) := by
  unfold handleDpRead dpReportSendNames
  dsimp only
  cases A.fillSnapshot with
  | none => exact .unchecked hchecks rfl rfl ((Grows.refl _ _).concat trivial)
  | some f =>
    refine .unchecked hchecks rfl rfl (((Grows.refl _ _).concat ?_).concat trivial)
    exact nofun

/-- The handler of a message that a running session checks. -/
theorem Dispatched.gated (hchecks : w.session.checks m = w.session.running)
    (h : w.session.running = true → Answers P cfg w m w') :
    Dispatched P cfg w m (if w.session.running then w' else w) := by
  split
  · next hrunning => exact (h hrunning).handled.dispatched (hchecks.trans hrunning)
  · next hrunning =>
    refine .unchecked ?_ rfl rfl (Grows.refl _ _)
    simpa [hchecks] using hrunning

theorem dispatch_dispatched (w : FpWorld σ) (m : Json) :
    Dispatched P cfg w m (dispatch P A cfg now w m) := by
  unfold dispatch
  split
  · next htype => exact handleHelloAck_dispatched (by simp [FpSession.checks, htype])
  · next htype => exact handleOtaNone_dispatched (by simp [FpSession.checks, htype])
  · next htype => exact handleDpRead_dispatched (by simp [FpSession.checks, htype])
  · next htype => exact .gated (by simp [FpSession.checks, htype]) handleCommand_answers
  · next htype => exact .gated (by simp [FpSession.checks, htype]) handleDpWrite_answers
  · next htype =>
    exact .gated (by simp [FpSession.checks, htype]) fun h => handleLogRead_answers h false
  · next htype =>
    exact .gated (by simp [FpSession.checks, htype]) fun h => handleLogRead_answers h true
  · next htype => exact .gated (by simp [FpSession.checks, htype]) handleLogAckPrev_answers
  · next htype => exact .gated (by simp [FpSession.checks, htype]) handleHistoryRead_answers
  · next htype =>
      exact handleOtaAvailable_answers.handled.dispatched (by simp [FpSession.checks, htype])
  · next htype =>
      exact (Answers.verified w m).handled.dispatched (by simp [FpSession.checks, htype])
  · next hother =>
    refine .unchecked ?_ rfl rfl (Grows.refl _ _)
    unfold FpSession.checks
    split <;> simp_all

-- ════════════════════════════════════════════════════════════════════════
-- A connection
-- ════════════════════════════════════════════════════════════════════════

/-- What reaches a connection: a frame, the note that an update failed, and steps of the
    application on its own. -/
inductive SessionOp (σ : Type*) where
  | frame (json : List UInt8) (now : Float)
  | otaFailed
  | app (g : σ → σ)

/-- `fountain_proto_ota_failed_note`. -/
def fountainProtoOtaFailedNote (A : FpApp σ) (w : FpWorld σ) : FpWorld σ :=
  let r := fpSessionOtaFailedNote w.session
  let w := { w with session := r.2 }
  match r.1, A.onReady with
  | true, some f => { w with app := f w.app }.emit (.call .onReady)
  | _, _ => w

/-- One operation; `out` has what it does. -/
def sessionStep (P : Primitives) (A : FpApp σ) (cfg : FpConfig) (w : FpWorld σ) :
    SessionOp σ → FpWorld σ
  | .frame json now => (fpSessionMessageHandle P A cfg now { w with out := [] } json).2
  | .otaFailed => fountainProtoOtaFailedNote A { w with out := [] }
  | .app g => { w with app := g w.app, out := [] }

/-- A new connection: `fp_session_reset` and `fp_session_hello_send`. -/
def connect (cfg : FpConfig) (now : Float) (w : FpWorld σ) (random : Vector UInt8 16) : FpWorld σ :=
  fpSessionHelloSend cfg now { w with session := fpSessionReset w.session, out := [] } random

/-- The connection after the operations `ops`. -/
def connection (P : Primitives) (A : FpApp σ) (cfg : FpConfig) (now : Float) (w : FpWorld σ)
    (random : Vector UInt8 16) (ops : List (SessionOp σ)) : FpWorld σ :=
  Machine.run (sessionStep P A cfg) (connect cfg now w random) ops

/-- The connection accepts the message `m` at its operation `i`. -/
def AcceptedAt (P : Primitives) (A : FpApp σ) (cfg : FpConfig) (w : FpWorld σ)
    (ops : List (SessionOp σ)) (i : ℕ) (m : Json) : Prop :=
  ∃ json now, ops[i]? = some (.frame json now) ∧ P.parse json = some m ∧
    Accepts P cfg (Machine.run (sessionStep P A cfg) w (ops.take i)).session m

/-- The connection acts on the frame `json` at its operation `i`. -/
def ActsAt (P : Primitives) (A : FpApp σ) (cfg : FpConfig) (w : FpWorld σ)
    (ops : List (SessionOp σ))
    (i : ℕ) (json : List UInt8) : Prop :=
  ∃ now c, ops[i]? = some (.frame json now) ∧ c.controlled = true ∧
    SessionAct.call c ∈ (Machine.run (sessionStep P A cfg) w (ops.take (i + 1))).out

theorem Accepts.authentic {s : FpSession} (h : Accepts P cfg s m) : Authentic P cfg s m := by
  rcases verifyS2c_cases P cfg s m with hv | ⟨-, hmac, -⟩
  · exact absurd h.2 (by simp [hv])
  · exact hmac

theorem Accepts.above {s : FpSession} (h : Accepts P cfg s m) : s.replayS2c < Json.seq m := by
  rcases verifyS2c_cases P cfg s m with hv | ⟨-, -, hseq⟩
  · exact absurd h.2 (by simp [hv])
  · exact hseq

/-- A step handles a message, or leaves nonce and window and invokes no controlled callback. -/
theorem sessionStep_cases (P : Primitives) (A : FpApp σ) (cfg : FpConfig) (w : FpWorld σ)
    (op : SessionOp σ) :
    (∃ json now m, op = .frame json now ∧ P.parse json = some m ∧
      Dispatched P cfg { w with out := [] } m (sessionStep P A cfg w op)) ∨
    ((sessionStep P A cfg w op).session.clientNonce = w.session.clientNonce ∧
      (sessionStep P A cfg w op).session.replayS2c = w.session.replayS2c ∧
      ∀ c, SessionAct.call c ∈ (sessionStep P A cfg w op).out → c.controlled = false) := by
  cases op with
  | frame json now =>
    rw [sessionStep, fpSessionMessageHandle]
    cases hparse : P.parse json with
    | none => exact .inr ⟨rfl, rfl, by simp⟩
    | some m => exact .inl ⟨json, now, m, rfl, hparse, dispatch_dispatched _ m⟩
  | otaFailed =>
    right
    rw [sessionStep, fountainProtoOtaFailedNote, fpSessionOtaFailedNote]
    by_cases hnote : (!w.session.negotiated || w.session.running) = true
    · rw [if_pos hnote]
      exact ⟨rfl, rfl, by simp⟩
    · rw [if_neg hnote]
      cases A.onReady <;> simp [FpWorld.emit, Callback.controlled]
  | app g => exact .inr ⟨rfl, rfl, by simp [sessionStep]⟩

theorem sessionStep_clientNonce (w : FpWorld σ) (op : SessionOp σ) :
    (sessionStep P A cfg w op).session.clientNonce = w.session.clientNonce := by
  obtain ⟨_, _, _, -, -, h⟩ | ⟨h, -⟩ := sessionStep_cases P A cfg w op
  · exact h.clientNonce
  · exact h

theorem sessionStep_window (w : FpWorld σ) (op : SessionOp σ) :
    w.session.replayS2c ≤ (sessionStep P A cfg w op).session.replayS2c := by
  obtain ⟨_, _, m, -, -, h⟩ | ⟨-, h, -⟩ := sessionStep_cases P A cfg w op
  · by_cases haccepts : Accepts P cfg w.session m
    · rw [h.accepted haccepts]
      exact haccepts.above.le
    · exact (h.ignored haccepts).ge
  · exact h.ge

variable {ops ops' : List (SessionOp σ)} {i j : ℕ}

/-- An accepted message leaves its sequence number in the window. -/
theorem AcceptedAt.window (h : AcceptedAt P A cfg w ops i m) :
    (Machine.run (sessionStep P A cfg) w (ops.take (i + 1))).session.replayS2c = Json.seq m := by
  obtain ⟨json, now, hop, hparse, haccepts⟩ := h
  rw [Machine.run_take_succ _ hop, sessionStep, fpSessionMessageHandle, hparse]
  exact (dispatch_dispatched _ m).accepted haccepts

/-- The sequence numbers of accepted messages increase. -/
theorem AcceptedAt.increasing {m' : Json} (h : AcceptedAt P A cfg w ops i m)
    (h' : AcceptedAt P A cfg w ops j m') (hij : i < j) : Json.seq m < Json.seq m' := by
  obtain ⟨_, _, -, -, haccepts⟩ := id h'
  have hmono := Machine.run_take_mono (sessionStep P A cfg) (f := fun w => w.session.replayS2c)
    sessionStep_window w ops
  have hle := hmono (Nat.succ_le_of_lt hij)
  rw [← h.window]
  exact lt_of_le_of_lt hle haccepts.above

/-- A controlled callback is invoked for an accepted message. -/
theorem accepted_of_call {c : Callback} {op : SessionOp σ} (hop : ops[i]? = some op)
    (hc : c.controlled = true)
    (hmem : SessionAct.call c ∈ (Machine.run (sessionStep P A cfg) w (ops.take (i + 1))).out) :
    ∃ m, AcceptedAt P A cfg w ops i m ∧ (c.isOta = false →
      (Machine.run (sessionStep P A cfg) w (ops.take i)).session.running = true) := by
  rw [Machine.run_take_succ _ hop] at hmem
  obtain ⟨json, now, m, rfl, hparse, h⟩ | ⟨-, -, hnone⟩ := sessionStep_cases P A cfg
    (Machine.run (sessionStep P A cfg) w (ops.take i)) op
  · obtain ⟨haccepts, hrunning⟩ := h.out.forall_mem _ hmem hc
    exact ⟨m, ⟨json, now, hop, hparse, haccepts⟩, hrunning⟩
  · rw [hnone c hmem] at hc
    cases hc

theorem ActsAt.accepted {json : List UInt8} (h : ActsAt P A cfg w ops i json) :
    ∃ m, P.parse json = some m ∧ AcceptedAt P A cfg w ops i m := by
  obtain ⟨now, c, hop, hc, hmem⟩ := h
  obtain ⟨m, haccepted, -⟩ := accepted_of_call hop hc hmem
  obtain ⟨json', now', hop', hparse, -⟩ := id haccepted
  obtain ⟨rfl, -⟩ : json = json' ∧ now = now' := by simpa [hop] using hop'
  exact ⟨m, hparse, haccepted⟩

-- ════════════════════════════════════════════════════════════════════════
-- Two connections
-- ════════════════════════════════════════════════════════════════════════

theorem Authentic.mac {s : FpSession} (h : Authentic P cfg s m) :
    Base64.encode (P.hmac128 cfg.authKey
      (macInput P m (s.macContext cfg "s2c") s.kid.bytes (Json.seq m))) = Json.mac m := by
  unfold Authentic fpAuthMessageVerify at h
  unfold Json.seq Json.mac
  split at h
  · next auth hauth =>
    rw [hauth]
    dsimp only at h
    split at h
    · next kid hkid =>
      split at h
      · cases h
      · next hsame =>
        rw [ne_eq, not_not] at hsame
        split at h
        · next seq mac hseq hmac =>
          simp only [Option.bind_some, hseq, hmac]
          split at h
          · next heq => rwa [hsame] at heq
          · cases h
        · cases h
        · cases h
    · cases h
  · cases h

theorem fpAuthBodyHashBuild_length (m : Json) : (fpAuthBodyHashBuild P m).length = 64 := by
  simp [fpAuthBodyHashBuild, fpAuthSha256Hex]

/-- The input of the MAC ends in the nonce of the client and the hash of the body. -/
theorem macInput_suffix (m : Json) (c : MacContext) (kid : List UInt8) (seq : ℤ) :
    ∃ front, macInput P m c kid seq =
      front ++ (c.clientNonce ++ unitSeparator :: fpAuthBodyHashBuild P m) := by
  refine ⟨[unitSeparator].intercalate [fieldStr m "v", fieldStr m "type", c.direction, c.deviceId,
    fieldStr m "serial", fieldStr m "ts", fieldStr m "msg_id", fieldStr m "in_reply_to", kid,
    printSeq seq, c.serverNonce] ++ [unitSeparator], ?_⟩
  simp [macInput, List.intercalate]

/-- Equal inputs have equal nonces of the client, if these have one length. -/
theorem clientNonce_of_macInput {m m' : Json} {c c' : MacContext} {kid kid' : List UInt8}
    {seq seq' : ℤ}
    (h : macInput P m c kid seq = macInput P m' c' kid' seq')
    (hlen : c.clientNonce.length = c'.clientNonce.length) : c.clientNonce = c'.clientNonce := by
  obtain ⟨front, hfront⟩ := macInput_suffix (P := P) m c kid seq
  obtain ⟨front', hfront'⟩ := macInput_suffix (P := P) m' c' kid' seq'
  rw [hfront, hfront'] at h
  have hend := List.append_inj_right' h (by simp [hlen, fpAuthBodyHashBuild_length])
  exact List.append_inj_left hend hlen

theorem connect_clientNonce (w : FpWorld σ) (random : Vector UInt8 16) :
    (connect cfg now w random).session.clientNonce =
      snprintf 32 (fpAuthBase64Encode random.toList) := rfl

-- 24 characters, so the buffer of 32 bytes cuts nothing off.
theorem connect_clientNonce_length (w : FpWorld σ) (random : Vector UInt8 16) :
    (connect cfg now w random).session.clientNonce.bytes.length = 24 := by
  simp [connect_clientNonce, snprintf, fpAuthBase64Encode, Base64.encode_length]

theorem run_clientNonce (P : Primitives) (A : FpApp σ) (cfg : FpConfig) (w : FpWorld σ)
    (ops : List (SessionOp σ)) :
    (Machine.run (sessionStep P A cfg) w ops).session.clientNonce = w.session.clientNonce :=
  Machine.run_invariant (sessionStep P A cfg)
    (P := fun v => v.session.clientNonce = w.session.clientNonce)
    (fun v op h => (sessionStep_clientNonce v op).trans h) rfl ops

/-- A message that is authentic in two sessions has the nonce of both. -/
theorem Authentic.clientNonce {s s' : FpSession} (hinj : ∀ key, Function.Injective (P.hmac128 key))
    (hlen : s.clientNonce.bytes.length = s'.clientNonce.bytes.length) (h : Authentic P cfg s m)
    (h' : Authentic P cfg s' m) : s.clientNonce.bytes = s'.clientNonce.bytes := by
  have hencode := h.mac.trans h'.mac.symm
  have hinput := hinj _ (Base64.encode_injective hencode)
  exact clientNonce_of_macInput hinput hlen

/-- **Authentication and replay.** In a connection, whatever frames arrive, a controlled
    callback is invoked only for a frame whose MAC holds under the session's key id and
    nonces and whose sequence number is above that of every frame accepted before, and only
    while running, unless it starts an update. So no frame is acted on twice; and with a MAC
    that is injective in its input, no frame is acted on in two connections with distinct
    nonces. -/
theorem session_acts_once (P : Primitives) (A : FpApp σ) (cfg : FpConfig) (now now' : Float)
    (w w' : FpWorld σ) (random random' : Vector UInt8 16) (ops ops' : List (SessionOp σ)) :
    let start := connect cfg now w random
    let start' := connect cfg now' w' random'
    (∀ i op c, ops[i]? = some op → c.controlled = true →
      SessionAct.call c ∈ (connection P A cfg now w random (ops.take (i + 1))).out →
      ∃ m, AcceptedAt P A cfg start ops i m ∧
        Authentic P cfg (connection P A cfg now w random (ops.take i)).session m ∧
        (∀ j m', j < i → AcceptedAt P A cfg start ops j m' → Json.seq m' < Json.seq m) ∧
        (c.isOta = false →
          (connection P A cfg now w random (ops.take i)).session.running = true)) ∧
    (∀ i j json, i ≠ j → ActsAt P A cfg start ops i json → ¬ ActsAt P A cfg start ops j json) ∧
    ((∀ key, Function.Injective (P.hmac128 key)) →
      start.session.clientNonce ≠ start'.session.clientNonce →
      ∀ i j json, ActsAt P A cfg start ops i json → ¬ ActsAt P A cfg start' ops' j json) := by
  intro start start'
  refine ⟨?_, ?_, ?_⟩
  · intro i op c hop hc hmem
    obtain ⟨m, haccepted, hrunning⟩ := accepted_of_call hop hc hmem
    obtain ⟨_, _, -, -, haccepts⟩ := id haccepted
    exact ⟨m, haccepted, haccepts.authentic, fun j m' hj h' => h'.increasing haccepted hj, hrunning⟩
  · -- Both times the frame is accepted, with the same number.
    intro i j json hij hi hj
    obtain ⟨m, hparse, hacc⟩ := hi.accepted
    obtain ⟨m', hparse', hacc'⟩ := hj.accepted
    obtain rfl : m = m' := Option.some.inj (hparse.symm.trans hparse')
    rcases Nat.lt_or_gt_of_ne hij with h | h
    · exact lt_irrefl _ (hacc.increasing hacc' h)
    · exact lt_irrefl _ (hacc'.increasing hacc h)
  · -- The MAC would hold under the nonces of both connections.
    intro hinj hnonce i j json hi hj
    obtain ⟨m, hparse, _, _, -, -, hacc⟩ := hi.accepted
    obtain ⟨m', hparse', _, _, -, -, hacc'⟩ := hj.accepted
    obtain rfl : m = m' := Option.some.inj (hparse.symm.trans hparse')
    have hstart := run_clientNonce P A cfg start (ops.take i)
    have hstart' := run_clientNonce P A cfg start' (ops'.take j)
    have hlen : start.session.clientNonce.bytes.length = start'.session.clientNonce.bytes.length :=
      (connect_clientNonce_length w random).trans (connect_clientNonce_length w' random').symm
    have heq := hacc.authentic.clientNonce hinj (by rw [hstart, hstart', hlen]) hacc'.authentic
    rw [hstart, hstart'] at heq
    exact hnonce (CString.ext heq)

/-- A `hello_ack`. -/
def helloAckText : List UInt8 :=
  text "\x7b\"type\":\"hello_ack\",\"accepted\":true,\"server_nonce\":\"c2Vy\",\"auth_kid\":\"k1\"\x7d"

/-- An `ota_none`. -/
def otaNoneText : List UInt8 := text "\x7b\"type\":\"ota_none\"\x7d"

/-- A signed command. -/
def commandText : List UInt8 :=
  text "\x7b\"v\":2,\"type\":\"command\",\"command\":\"reboot\"," ++
  text "\"auth\":\x7b\"kid\":\"k1\",\"seq\":1,\"mac\":\"pyPnBEty+1+CuRggjYW4Lg==\"\x7d\x7d"

/-- The input of the command's MAC in a connection with the nonce of 16 zero bytes. -/
def commandInput : List UInt8 :=
  text "2\x1fcommand\x1fs2c\x1fdev1\x1f\x1f\x1f\x1f\x1fk1\x1f1\x1fc2Vy\x1fAAAAAAAAAAAAAAAAAAAAAA==\x1f" ++
  text "95ea090fd6d06364000b9c883ed16fd7a57e294977f7965c12c9422718cb7666"

/-- A nonce of the server. -/
def exampleNonce : CString := literal "c2Vy"

/-- The primitives on these texts. The hash of the command's body and its MAC under the key
    `key` are those of SHA-256. -/
def examplePrimitives : Primitives where
  parse json :=
    if json = helloAckText then
      some (.object [("type", .string (literal "hello_ack")), ("accepted", .bool true),
        ("server_nonce", .string exampleNonce), ("auth_kid", .string (literal "k1"))])
    else if json = otaNoneText then some (.object [("type", .string (literal "ota_none"))])
    else if json = commandText then
      some (.object [("v", .number 2), ("type", .string (literal "command")),
        ("command", .string (literal "reboot")),
        ("auth", .object [("kid", .string (literal "k1")), ("seq", .number 1),
          ("mac", .string (literal "pyPnBEty+1+CuRggjYW4Lg=="))])])
    else none
  sha256 data :=
    if data = text "\x7b\"command\":\"reboot\"\x7d" then
      #v[149, 234, 9, 15, 214, 208, 99, 100, 0, 11, 156, 136, 62, 209, 111, 215, 165, 126, 41, 73,
        119, 247, 150, 92, 18, 201, 66, 39, 24, 203, 118, 102]
    else Vector.replicate 32 0
  hmac128 _ input :=
    if input = commandInput then
      [167, 35, 231, 4, 75, 114, 251, 95, 130, 185, 24, 32, 141, 133, 184, 46]
    else List.replicate 17 0 ++ input
  formatG _ _ := []
  strtod _ := 0

theorem examplePrimitives_injective (key : List UInt8) :
    Function.Injective (examplePrimitives.hmac128 key) := by
  intro x y h
  simp only [examplePrimitives] at h
  split at h <;> split at h
  · next hx hy => rw [hx, hy]
  · exact absurd (congrArg List.length h) (by simp)
  · exact absurd (congrArg List.length h) (by simp)
  · exact List.append_cancel_left h

/-- A device with the key `key`. -/
def exampleDevice : FpConfig where
  deviceId := literal "dev1"
  serial := literal "sn1"
  fwVersion := literal "1.0"
  hwRev := none
  authKid := literal "k1"
  authKey := text "key"

/-- An application that counts commands. -/
def commandCounter : FpApp ℕ where
  fillSnapshot := none
  onCommand := some (fun n _ => ([("status", .string (literal "ok"))], n + 1))
  onDpWrite := none
  onReady := none
  onOta := none
  fillLogBatch := none
  onLogAckPrev := none
  fillHistoryBatch := none

/-- The world after `fp_session_init`. -/
def exampleWorld : FpWorld ℕ where
  session :=
    { serverNonce := emptyString, clientNonce := emptyString, kid := emptyString, replayS2c := 0
      c2sSeq := 0, reportSeq := 0, negotiated := false, running := false }
  app := 0
  out := []

/-- A connection acts on the signed command, once; another one does not. -/
theorem session_acts_once_command :
    let ops := [.frame helloAckText 0, .frame otaNoneText 0, .frame commandText 0,
      .frame commandText 0]
    let start := connect exampleDevice 0 exampleWorld (Vector.replicate 16 0)
    let start' := connect exampleDevice 0 exampleWorld (Vector.replicate 16 1)
    ActsAt examplePrimitives commandCounter exampleDevice start ops 2 commandText ∧
      ¬ ActsAt examplePrimitives commandCounter exampleDevice start ops 3 commandText ∧
      ∀ ops' j, ¬ ActsAt examplePrimitives commandCounter exampleDevice start' ops' j
      commandText := by
  intro ops start start'
  have hacts : ActsAt examplePrimitives commandCounter exampleDevice start ops 2 commandText := by
    have hany : (Machine.run (sessionStep examplePrimitives commandCounter exampleDevice) start
        (ops.take 3)).out.any SessionAct.isControlled = true := by decide +kernel
    obtain ⟨a, hmem, ha⟩ := List.any_eq_true.mp hany
    cases a with
    | call c => exact ⟨0, c, rfl, ha, hmem⟩
    | send msg => cases ha
  have hnonce : start.session.clientNonce ≠ start'.session.clientNonce := by
    intro h
    exact absurd (congrArg CString.bytes h) (by decide +kernel)
  refine ⟨hacts, ?_, fun ops' j => ?_⟩
  · exact (session_acts_once examplePrimitives commandCounter exampleDevice 0 0
      exampleWorld exampleWorld
      (Vector.replicate 16 0) (Vector.replicate 16 1) ops []).2.1 2 3 commandText (by decide) hacts
  · exact (session_acts_once examplePrimitives commandCounter exampleDevice 0 0
      exampleWorld exampleWorld
      (Vector.replicate 16 0) (Vector.replicate 16 1) ops ops').2.2
      examplePrimitives_injective hnonce
      2 j commandText hacts

end Fountainer.Protocol
