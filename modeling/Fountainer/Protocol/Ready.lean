import Fountainer.Protocol.Replay

/-!
# Negotiation and operation

A session is negotiated after an accepted `hello_ack` and running after `ota_none` or after
the note of a failed update. The note looks at both flags; `ota_none` looks at neither, so
it starts a session that was never negotiated and starts a running one once more.
-/

namespace Fountainer.Protocol

open Datapoints (Json)
open Traces (Grows)

variable {σ : Type*} {P : Primitives} {A : FpApp σ} {cfg : FpConfig} {now : Float}
  {w w' : FpWorld σ} {m : Json}

-- ════════════════════════════════════════════════════════════════════════
-- The life of a session
-- ════════════════════════════════════════════════════════════════════════

/-- `fp_session_close`. -/
def fpSessionClose (s : FpSession) : FpSession :=
  { s with
    serverNonce := emptyString, clientNonce := emptyString, kid := emptyString
    replayS2c := 0, c2sSeq := 0, reportSeq := 0, negotiated := false, running := false }

/-- `fp_session_init`. -/
def fpSessionInit : FpSession where
  serverNonce := emptyString
  clientNonce := emptyString
  kid := emptyString
  replayS2c := 0
  c2sSeq := 0
  reportSeq := 0
  negotiated := false
  running := false

/-- What happens to a session over its connections. -/
inductive LinkOp (σ : Type*) where
  | reset
  | close
  | hello (now : Float) (random : Vector UInt8 16)
  | session (op : SessionOp σ)

/-- One operation; `out` has what it does. -/
def linkStep (P : Primitives) (A : FpApp σ) (cfg : FpConfig) (w : FpWorld σ) : LinkOp σ → FpWorld σ
  | .reset => { w with session := fpSessionReset w.session, out := [] }
  | .close => { w with session := fpSessionClose w.session, out := [] }
  | .hello now random => fpSessionHelloSend cfg now { w with out := [] } random
  | .session op => sessionStep P A cfg w op

/-- The session after the operations, from `fp_session_init` on. -/
def link (P : Primitives) (A : FpApp σ) (cfg : FpConfig) (app : σ)
    (ops : List (LinkOp σ)) : FpWorld σ :=
  Machine.run (linkStep P A cfg) { session := fpSessionInit, app, out := [] } ops

/-- The operation ends the connection or begins a new one. -/
def LinkOp.ends : LinkOp σ → Bool
  | .reset | .close => true
  | .hello _ _ | .session _ => false

/-- The operation is the note of a failed update. -/
def LinkOp.isOtaFailed : LinkOp σ → Bool
  | .session .otaFailed => true
  | _ => false

/-- The message that the operation brings. -/
def LinkOp.message (P : Primitives) : LinkOp σ → Option Json
  | .session (.frame json _) => P.parse json
  | _ => none

/-- The message is a `hello_ack` that the session accepts. -/
def acceptsHello (m : Json) : Bool :=
  fpEnvelopeType m == some .helloAck &&
    (match Json.get? m "accepted" with
      | some (.bool true) => true
      | _ => false) &&
    (strOf m "server_nonce").isSome && (strOf m "auth_kid").isSome

/-- The operation brings an `ota_none`. -/
def LinkOp.bringsOtaNone (P : Primitives) (op : LinkOp σ) : Prop :=
  ∃ m, op.message P = some m ∧ fpEnvelopeType m = some .otaNone

/-- The operation brings a `hello_ack` that the session accepts. -/
def LinkOp.bringsHello (P : Primitives) (op : LinkOp σ) : Prop :=
  ∃ m, op.message P = some m ∧ acceptsHello m = true

-- ════════════════════════════════════════════════════════════════════════
-- What a step does to the flags
-- ════════════════════════════════════════════════════════════════════════

/-- The flags stay, and `on_ready` is not invoked. -/
structure Quiet (w w' : FpWorld σ) : Prop where
  negotiated : w'.session.negotiated = w.session.negotiated
  running : w'.session.running = w.session.running
  out : SessionAct.call .onReady ∈ w'.out → SessionAct.call .onReady ∈ w.out

theorem Quiet.refl (w : FpWorld σ) : Quiet w w := ⟨rfl, rfl, id⟩

theorem verifyS2c_flags (P : Primitives) (cfg : FpConfig) (s : FpSession) (m : Json) :
    (verifyS2c P cfg s m).2.negotiated = s.negotiated ∧
      (verifyS2c P cfg s m).2.running = s.running := by
  rcases verifyS2c_cases P cfg s m with h | ⟨h, -⟩ <;> rw [h] <;> exact ⟨rfl, rfl⟩

theorem Answers.quiet (h : Answers P cfg w m w') : Quiet w w' := by
  obtain ⟨hneg, hrun⟩ := verifyS2c_flags P cfg w.session m
  refine ⟨by rw [h.session, hneg], by rw [h.session, hrun], fun hmem => ?_⟩
  obtain ⟨new, hnew, hall⟩ := h.out
  rw [hnew] at hmem
  rcases List.mem_append.mp hmem with hold | hmem
  · exact hold
  · exact absurd (hall _ hmem).1 (by decide)

/-- The handler of a message that only a running session looks at. -/
theorem Quiet.gated (h : w.session.running = true → Answers P cfg w m w') :
    Quiet w (if w.session.running then w' else w) := by
  split
  · next hrunning => exact (h hrunning).quiet
  · exact Quiet.refl w

theorem handleDpRead_quiet : Quiet w (handleDpRead A cfg now w m) := by
  unfold handleDpRead dpReportSendNames
  dsimp only
  cases A.fillSnapshot with
  | none => exact ⟨rfl, rfl, by simp [sendMsg, FpWorld.emit]⟩
  | some f => exact ⟨rfl, rfl, by simp [sendMsg, FpWorld.emit]⟩

/-- What a step does: it ends the connection, takes the flag of a greeting, starts operation
    or leaves the flags alone. -/
inductive Flags (P : Primitives) (A : FpApp σ) (s : FpSession) (op : LinkOp σ) (w' : FpWorld σ) :
    Prop where
  | ended (hends : op.ends = true) (hneg : w'.session.negotiated = false)
      (hrun : w'.session.running = false) (hout : SessionAct.call .onReady ∉ w'.out)
  | greeted (hends : op.ends = false) (hhello : op.bringsHello P) (hnone : ¬ op.bringsOtaNone P)
      (hneg : w'.session.negotiated = true) (hrun : w'.session.running = s.running)
      (hout : SessionAct.call .onReady ∉ w'.out)
  | started (hends : op.ends = false) (hnone : op.bringsOtaNone P)
      (hneg : w'.session.negotiated = s.negotiated) (hrun : w'.session.running = true)
      (hout : SessionAct.call .onReady ∈ w'.out ↔ A.onReady.isSome = true)
  | noted (hends : op.ends = false) (hnone : ¬ op.bringsOtaNone P) (hop : op.isOtaFailed = true)
      (hneg : w'.session.negotiated = s.negotiated)
      (hrun : w'.session.running = (s.negotiated || s.running))
      (hout : SessionAct.call .onReady ∈ w'.out ↔
        (fpSessionOtaFailedNote s).1 = true ∧ A.onReady.isSome = true)
  | other (hends : op.ends = false) (hnone : ¬ op.bringsOtaNone P) (hop : op.isOtaFailed = false)
      (hneg : w'.session.negotiated = s.negotiated)
      (hrun : w'.session.running = s.running) (hout : SessionAct.call .onReady ∉ w'.out)

theorem handleHelloAck_flags (A : FpApp σ) (cfg : FpConfig) (now : Float) {op : LinkOp σ}
    (hmsg : op.message P = some m) (hends : op.ends = false)
    (htype : fpEnvelopeType m = some .helloAck) (hop : op.isOtaFailed = false) (hout : w.out = []) :
    Flags P A w.session op (handleHelloAck P cfg now w m) := by
  have hnone : ¬ op.bringsOtaNone P := by
    rintro ⟨m', hmsg', htype'⟩
    obtain rfl : m = m' := Option.some.inj (hmsg.symm.trans hmsg')
    cases htype.symm.trans htype'
  unfold handleHelloAck
  split
  · next hacc =>
    split
    · next sn kid hsn hkid =>
      refine .greeted hends ⟨m, hmsg, ?_⟩ hnone rfl rfl ?_
      · simp [acceptsHello, htype, hacc, hsn, hkid]
      · simp [otaCheckSend, FpWorld.emit, hout]
    · exact .other hends hnone hop rfl rfl (by simp [hout])
  · exact .other hends hnone hop rfl rfl (by simp [hout])

theorem handleOtaNone_flags {op : LinkOp σ} (hnone : op.bringsOtaNone P) (hends : op.ends = false)
    (hout : w.out = []) : Flags P A w.session op (handleOtaNone A w) := by
  unfold handleOtaNone
  dsimp only
  cases hready : A.onReady with
  | none => exact .started hends hnone rfl rfl (by simp [hout, hready])
  | some f => exact .started hends hnone rfl rfl (by simp [hready, FpWorld.emit])

/-- The note starts a session that is negotiated and not running yet. -/
theorem otaFailedNote_flags (hout : w.out = []) :
    (fountainProtoOtaFailedNote A w).session.negotiated = w.session.negotiated ∧
      (fountainProtoOtaFailedNote A w).session.running =
        (w.session.negotiated || w.session.running) ∧
      (SessionAct.call .onReady ∈ (fountainProtoOtaFailedNote A w).out ↔
        (fpSessionOtaFailedNote w.session).1 = true ∧ A.onReady.isSome = true) := by
  rw [fountainProtoOtaFailedNote, fpSessionOtaFailedNote]
  cases hneg : w.session.negotiated with
  | false => simp [hneg, hout]
  | true =>
    cases hrun : w.session.running with
    | true => simp [hneg, hrun, hout]
    | false => cases hready : A.onReady <;> simp [FpWorld.emit, hout]

/-- The messages other than `hello_ack` and `ota_none` leave the flags alone. -/
theorem dispatch_quiet (P : Primitives) (A : FpApp σ) (cfg : FpConfig) (now : Float)
    (hack : fpEnvelopeType m ≠ some .helloAck)
    (hnone : fpEnvelopeType m ≠ some .otaNone) : Quiet w (dispatch P A cfg now w m) := by
  unfold dispatch
  split
  · next htype => exact absurd htype hack
  · next htype => exact absurd htype hnone
  · exact handleDpRead_quiet
  · exact .gated handleCommand_answers
  · exact .gated handleDpWrite_answers
  · exact .gated fun h => handleLogRead_answers h false
  · exact .gated fun h => handleLogRead_answers h true
  · exact .gated handleLogAckPrev_answers
  · exact .gated handleHistoryRead_answers
  · exact handleOtaAvailable_answers.quiet
  · exact (Answers.verified w m).quiet
  · exact Quiet.refl w

theorem linkStep_flags (P : Primitives) (A : FpApp σ) (cfg : FpConfig) (w : FpWorld σ)
    (op : LinkOp σ) : Flags P A w.session op (linkStep P A cfg w op) := by
  have hsilent {op : LinkOp σ} (hmsg : op.message P = none) : ¬ op.bringsOtaNone P := by
    rintro ⟨m, hm, -⟩
    cases hmsg.symm.trans hm
  cases op with
  | reset => exact .ended rfl rfl rfl (by simp [linkStep])
  | close => exact .ended rfl rfl rfl (by simp [linkStep])
  | hello now random =>
    refine .other rfl (hsilent rfl) rfl rfl rfl ?_
    simp [linkStep, fpSessionHelloSend, sendMsg, FpWorld.emit]
  | session op =>
    cases op with
    | app g => exact .other rfl (hsilent rfl) rfl rfl rfl (by simp [linkStep, sessionStep])
    | otaFailed =>
      obtain ⟨hneg, hrun, hout⟩ := otaFailedNote_flags (A := A) (w := { w with out := [] }) rfl
      exact .noted rfl (hsilent rfl) rfl hneg hrun hout
    | frame json now =>
      rw [linkStep, sessionStep, fpSessionMessageHandle]
      cases hparse : P.parse json with
      | none => exact .other rfl (hsilent hparse) rfl rfl rfl (by simp)
      | some m =>
        dsimp only
        have hmsg : (LinkOp.session (σ := σ) (.frame json now)).message P = some m := hparse
        by_cases hack : fpEnvelopeType m = some .helloAck
        · have hflags := handleHelloAck_flags A cfg now
            (w := { w with out := [] }) hmsg rfl hack rfl rfl
          have hdispatch : dispatch P A cfg now { w with out := [] } m =
              handleHelloAck P cfg now { w with out := [] } m := by
            unfold dispatch
            rw [hack]
          rw [hdispatch]
          exact hflags
        by_cases hnone : fpEnvelopeType m = some .otaNone
        · have hdispatch : dispatch P A cfg now { w with out := [] } m =
              handleOtaNone A { w with out := [] } := by
            unfold dispatch
            rw [hnone]
          rw [hdispatch]
          exact handleOtaNone_flags (w := { w with out := [] }) ⟨m, hmsg, hnone⟩ rfl rfl
        · have hquiet := dispatch_quiet P A cfg now
            (w := { w with out := [] }) hack hnone
          refine .other rfl ?_ rfl hquiet.negotiated hquiet.running (fun hmem => ?_)
          · rintro ⟨m', hm', htype⟩
            obtain rfl : m = m' := Option.some.inj (hmsg.symm.trans hm')
            exact hnone htype
          · exact absurd (hquiet.out hmem) (by simp)

-- ════════════════════════════════════════════════════════════════════════
-- Runs
-- ════════════════════════════════════════════════════════════════════════

variable {app : σ} {ops : List (LinkOp σ)} {i j : ℕ} {op : LinkOp σ}

theorem link_succ (hop : ops[i]? = some op) :
    link P A cfg app (ops.take (i + 1)) = linkStep P A cfg (link P A cfg app (ops.take i)) op :=
  Machine.run_take_succ _ hop

/-- Step `i` of the run, with the flags before and after it. -/
theorem link_flags (P : Primitives) (A : FpApp σ) (cfg : FpConfig) (app : σ)
    (hop : ops[i]? = some op) :
    Flags P A (link P A cfg app (ops.take i)).session op (link P A cfg app (ops.take (i + 1))) := by
  rw [link_succ hop]
  exact linkStep_flags P A cfg _ op

/-- The connection at step `i` has processed an accepted `hello_ack`. -/
def Greeted (P : Primitives) (ops : List (LinkOp σ)) (i : ℕ) : Prop :=
  ∃ j op, j < i ∧ ops[j]? = some op ∧ op.bringsHello P ∧
    ∀ k op, j < k → k < i → ops[k]? = some op → op.ends = false

theorem Greeted.succ (h : Greeted P ops i) (hop : ops[i]? = some op) (hends : op.ends = false) :
    Greeted P ops (i + 1) := by
  obtain ⟨j, ack, hj, hack, hhello, hopen⟩ := h
  refine ⟨j, ack, by omega, hack, hhello, fun k opk hjk hk hopk => ?_⟩
  rcases Nat.lt_succ_iff_lt_or_eq.mp hk with hk | rfl
  · exact hopen k opk hjk hk hopk
  · rw [hop] at hopk
    rwa [← Option.some.inj hopk]

/-- A negotiated session has processed an accepted `hello_ack` of its connection. -/
theorem greeted_of_negotiated (hi : i ≤ ops.length)
    (h : (link P A cfg app (ops.take i)).session.negotiated = true) : Greeted P ops i := by
  induction i with
  | zero => cases h
  | succ i ih =>
    obtain ⟨op, hop⟩ : ∃ op, ops[i]? = some op := ⟨_, List.getElem?_eq_getElem hi⟩
    have hbefore := ih (by omega)
    cases link_flags P A cfg app hop with
    | ended _ hneg => cases hneg.symm.trans h
    | greeted hends hhello =>
      exact ⟨i, op, by omega, hop, hhello, fun k _ hik hk _ => absurd hk (by omega)⟩
    | started hends _ hneg | noted hends _ _ hneg | other hends _ _ hneg =>
      exact (hbefore (hneg.symm.trans h)).succ hop hends

/-- The operation brings an `ota_none` to a session that is not negotiated. -/
def LinkOp.Early (P : Primitives) (s : FpSession) (op : LinkOp σ) : Prop :=
  op.bringsOtaNone P ∧ s.negotiated = false

theorem Flags.negotiated {s : FpSession} (h : Flags P A s op w') (hearly : ¬ op.Early P s)
    (hs : s.running = true → s.negotiated = true) :
    (w'.session.running = true → w'.session.negotiated = true) ∧
      (SessionAct.call .onReady ∈ w'.out → s.negotiated = true) := by
  cases h with
  | ended _ hneg hrun hout =>
    exact ⟨fun h => absurd (hrun.symm.trans h) (by simp), fun h => absurd h hout⟩
  | greeted _ _ _ hneg _ hout => exact ⟨fun _ => hneg, fun h => absurd h hout⟩
  | started _ hnone hneg =>
    have hyes : s.negotiated = true := by
      rw [← Bool.not_eq_false]
      exact fun hno => hearly ⟨hnone, hno⟩
    exact ⟨fun _ => hneg.trans hyes, fun _ => hyes⟩
  | noted _ _ _ hneg hrun hout =>
    refine ⟨fun h => ?_, fun h => ?_⟩
    · rw [hrun, Bool.or_eq_true] at h
      rw [hneg]
      exact h.elim id hs
    · have hnote := (hout.mp h).1
      rw [fpSessionOtaFailedNote] at hnote
      cases hneg' : s.negotiated with
      | true => rfl
      | false => simp [hneg'] at hnote
  | other _ _ _ hneg hrun hout =>
    exact ⟨fun h => hneg.trans (hs (hrun.symm.trans h)), fun h => absurd h hout⟩

/-- **No operation before negotiation**: over every run of a session, running implies
    negotiated in every state and `on_ready` is invoked only after an accepted `hello_ack` of
    the connection, exactly if no `ota_none` arrives at a session that is not negotiated. -/
theorem operation_after_negotiation (P : Primitives) (A : FpApp σ) (cfg : FpConfig) (app : σ)
    (ops : List (LinkOp σ)) :
    ((∀ i ≤ ops.length, (link P A cfg app (ops.take i)).session.running = true →
        (link P A cfg app (ops.take i)).session.negotiated = true) ∧
      ∀ i op, ops[i]? = some op →
        SessionAct.call .onReady ∈ (link P A cfg app (ops.take (i + 1))).out → Greeted P ops i) ↔
      ∀ i (op : LinkOp σ), ops[i]? = some op →
        ¬ op.Early P (link P A cfg app (ops.take i)).session := by
  constructor
  · rintro ⟨hrunning, -⟩ i op hop ⟨hnone, hneg⟩
    have hlt : i < ops.length := (List.getElem?_eq_some_iff.mp hop).1
    have hafter := hrunning (i + 1) hlt
    cases link_flags P A cfg app hop with
    | started _ _ hneg' hrun => cases (hneg'.symm.trans (hafter hrun)).symm.trans hneg
    | ended hends =>
      obtain ⟨m, hmsg, -⟩ := hnone
      cases op with
      | reset | close => cases hmsg
      | hello | session => cases hends
    | greeted _ _ hno | noted _ hno | other _ hno => exact hno hnone
  · intro hearly
    have hinv : ∀ i ≤ ops.length, (link P A cfg app (ops.take i)).session.running = true →
        (link P A cfg app (ops.take i)).session.negotiated = true := by
      intro i
      induction i with
      | zero => exact fun _ h => by cases h
      | succ i ih =>
        intro hi
        obtain ⟨op, hop⟩ : ∃ op, ops[i]? = some op := ⟨_, List.getElem?_eq_getElem hi⟩
        exact ((link_flags P A cfg app hop).negotiated (hearly i op hop) (ih (by omega))).1
    refine ⟨hinv, fun i op hop hready => ?_⟩
    have hlt : i < ops.length := (List.getElem?_eq_some_iff.mp hop).1
    exact greeted_of_negotiated hlt.le
      (((link_flags P A cfg app hop).negotiated (hearly i op hop) (hinv i hlt.le)).2 hready)

/-- An application that counts the starts of operation. -/
def readyCounter : FpApp ℕ := { commandCounter with onReady := some (· + 1) }

/-- An `ota_none` before any `hello_ack` starts operation. -/
theorem operation_before_negotiation :
    let ops := [.reset, .hello 0 (Vector.replicate 16 0), .session (.frame otaNoneText 0)]
    let w := link examplePrimitives readyCounter exampleDevice 0 ops
    w.session.running = true ∧ w.session.negotiated = false ∧ SessionAct.call .onReady ∈ w.out := by
  refine ⟨by decide +kernel, by decide +kernel, ?_⟩
  have hout : (link examplePrimitives readyCounter exampleDevice 0
      [.reset, .hello 0 (Vector.replicate 16 0), .session (.frame otaNoneText 0)]).out =
        [.call .onReady] := by
    with_unfolding_all rfl
  rw [hout]
  exact List.mem_singleton_self _

-- ════════════════════════════════════════════════════════════════════════
-- The start of operation
-- ════════════════════════════════════════════════════════════════════════

/-- The step fires `on_ready`; the caller of the note fires it when the note says so. -/
def Fires (s : FpSession) (op : LinkOp σ) (w' : FpWorld σ) : Prop :=
  SessionAct.call .onReady ∈ w'.out ∨
    (op.isOtaFailed = true ∧ (fpSessionOtaFailedNote s).1 = true)

/-- The step starts operation. -/
def Starts (s : FpSession) (w' : FpWorld σ) : Prop :=
  s.running = false ∧ w'.session.running = true

/-- An `ota_none` comes at the start of operation only. Without the callback nothing may
    start by it. -/
def LinkOp.ReadyOnce (P : Primitives) (A : FpApp σ) (s : FpSession) (op : LinkOp σ) : Prop :=
  op.bringsOtaNone P → (s.running = false ↔ A.onReady.isSome = true)

theorem fpSessionOtaFailedNote_iff (s : FpSession) :
    (fpSessionOtaFailedNote s).1 = true ↔ s.negotiated = true ∧ s.running = false := by
  rw [fpSessionOtaFailedNote]
  cases s.negotiated <;> cases s.running <;> simp

theorem LinkOp.isOtaFailed_of_message (h : op.message P = some m) : op.isOtaFailed = false := by
  cases op with
  | reset | close | hello => rfl
  | session op =>
    cases op with
    | frame | app => rfl
    | otaFailed => cases h

theorem LinkOp.message_of_ends (h : op.ends = true) : op.message P = none := by
  cases op with
  | reset | close => rfl
  | hello | session => cases h

theorem LinkOp.isOtaFailed_of_ends (h : op.ends = true) : op.isOtaFailed = false := by
  cases op with
  | reset | close => rfl
  | hello | session => cases h

/-- A step fires exactly at the edge, unless an `ota_none` comes out of turn. -/
theorem Flags.fires_iff {s : FpSession} (h : Flags P A s op w') :
    (Fires s op w' ↔ Starts s w') ↔ op.ReadyOnce P A s := by
  -- A step that neither fires nor starts, without an `ota_none`.
  have hquiet (hout : SessionAct.call .onReady ∉ w'.out) (hop : op.isOtaFailed = false)
      (hstarts : ¬ Starts s w') (hnone : ¬ op.bringsOtaNone P) :
      (Fires s op w' ↔ Starts s w') ↔ op.ReadyOnce P A s := by
    have hfires : ¬ Fires s op w' := by simp [Fires, hout, hop]
    exact iff_of_true (iff_of_false hfires hstarts) (fun h => absurd h hnone)
  cases h with
  | ended hends _ hrun hout =>
    refine hquiet hout (LinkOp.isOtaFailed_of_ends hends) (by simp [Starts, hrun]) ?_
    rintro ⟨m, hmsg, -⟩
    cases (LinkOp.message_of_ends hends).symm.trans hmsg
  | greeted _ hhello hnone _ hrun hout =>
    obtain ⟨m, hmsg, -⟩ := hhello
    exact hquiet hout (LinkOp.isOtaFailed_of_message hmsg) (by simp [Starts, hrun]) hnone
  | other _ hnone hop _ hrun hout => exact hquiet hout hop (by simp [Starts, hrun]) hnone
  | started _ hnone _ hrun hout =>
    obtain ⟨m, hmsg, -⟩ := id hnone
    have hfires : Fires s op w' ↔ A.onReady.isSome = true := by
      simp [Fires, hout, LinkOp.isOtaFailed_of_message hmsg]
    have hstarts : Starts s w' ↔ s.running = false := and_iff_left hrun
    rw [hfires, hstarts, LinkOp.ReadyOnce]
    exact ⟨fun h _ => h.symm, fun h => (h hnone).symm⟩
  | noted _ hnone hop _ hrun hout =>
    have hfires : Fires s op w' ↔ s.negotiated = true ∧ s.running = false := by
      rw [Fires, hout, hop, fpSessionOtaFailedNote_iff]
      tauto
    have hstarts : Starts s w' ↔ s.negotiated = true ∧ s.running = false := by
      rw [Starts, hrun]
      cases s.running <;> simp
    exact iff_of_true (hfires.trans hstarts.symm) (fun h => absurd h hnone)

/-- Operation lasts until the connection ends. -/
theorem link_running (h : (link P A cfg app (ops.take i)).session.running = true) (hij : i ≤ j)
    (hj : j ≤ ops.length)
    (hopen : ∀ k op, i ≤ k → k < j → ops[k]? = some op → op.ends = false) :
    (link P A cfg app (ops.take j)).session.running = true := by
  induction j, hij using Nat.le_induction with
  | base => exact h
  | succ j hij ih =>
    have hrun := ih (by omega) (fun k op hik hk => hopen k op hik (by omega))
    obtain ⟨op, hop⟩ : ∃ op, ops[j]? = some op := ⟨_, List.getElem?_eq_getElem hj⟩
    cases link_flags P A cfg app hop with
    | ended hends => cases (hopen j op hij (by omega) hop).symm.trans hends
    | started _ _ _ hrun' => exact hrun'
    | greeted _ _ _ _ hrun' | other _ _ _ _ hrun' => exact hrun'.trans hrun
    | noted _ _ _ _ hrun' => rw [hrun', hrun, Bool.or_true]

/-- **Ready edge**: over every run of a session, `on_ready` fires exactly where running turns
    from false to true, and so at most once in a connection, exactly if `ota_none` arrives at
    sessions only that are not running. -/
theorem ready_edge (P : Primitives) (A : FpApp σ) (cfg : FpConfig) (app : σ)
    (ops : List (LinkOp σ)) :
    let state := fun i => link P A cfg app (ops.take i)
    ((∀ i op, ops[i]? = some op →
        (Fires (state i).session op (state (i + 1)) ↔ Starts (state i).session (state (i + 1)))) ∧
      ∀ i j op op', i < j → ops[i]? = some op → ops[j]? = some op' →
        Fires (state i).session op (state (i + 1)) → Fires (state j).session op' (state (j + 1)) →
          ∃ k opk, i < k ∧ k < j ∧ ops[k]? = some opk ∧ opk.ends = true) ↔
      ∀ i (op : LinkOp σ), ops[i]? = some op → op.ReadyOnce P A (state i).session := by
  intro state
  constructor
  · rintro ⟨hedge, -⟩ i op hop
    exact (link_flags P A cfg app hop).fires_iff.mp (hedge i op hop)
  · intro honce
    have hedge : ∀ i op, ops[i]? = some op → (Fires (state i).session op (state (i + 1)) ↔
        Starts (state i).session (state (i + 1))) :=
      fun i op hop => (link_flags P A cfg app hop).fires_iff.mpr (honce i op hop)
    refine ⟨hedge, fun i j op op' hij hop hop' hfires hfires' => ?_⟩
    by_contra hopen
    have hstart := ((hedge i op hop).mp hfires).2
    have hlt : j < ops.length := (List.getElem?_eq_some_iff.mp hop').1
    have hrun := link_running hstart hij hlt.le fun k opk hik hkj hopk => by
      rw [← Bool.not_eq_true]
      exact fun hends => hopen ⟨k, opk, hik, hkj, hopk, hends⟩
    cases hrun.symm.trans ((hedge j op' hop').mp hfires').1

/-- A second `ota_none` fires again. -/
theorem ready_fires_twice :
    let ops := [.reset, .hello 0 (Vector.replicate 16 0), .session (.frame helloAckText 0),
      .session (.frame otaNoneText 0), .session (.frame otaNoneText 0)]
    let state := fun i => link examplePrimitives readyCounter exampleDevice 0 (ops.take i)
    Fires (state 4).session (.session (.frame otaNoneText 0)) (state 5) ∧
      ¬ Starts (state 4).session (state 5) := by
  refine ⟨.inl ?_, fun h => absurd h.1 (by decide +kernel)⟩
  have hout : (link examplePrimitives readyCounter exampleDevice 0
      [.reset, .hello 0 (Vector.replicate 16 0), .session (.frame helloAckText 0),
        .session (.frame otaNoneText 0), .session (.frame otaNoneText 0)]).out =
          [.call .onReady] := by
    with_unfolding_all rfl
  exact hout ▸ List.mem_singleton_self _

end Fountainer.Protocol
