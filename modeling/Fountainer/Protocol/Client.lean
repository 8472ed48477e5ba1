import Fountainer.Network.Ota
import Fountainer.Protocol.Ready
import Fountainer.Protocol.TxPath

/-!
# The tasks around the session

`fp_task.c`: the task of the WebSocket client with `on_ws`, the protocol task `task_fn`, `tx_task`
and the tasks of the updates share one session under a mutex that is not recursive. What a task does
between two calls is one step; a handler computes under the mutex what it sends and which callbacks
it invokes, and then does so call by call.
-/

namespace Fountainer.Protocol

open Bytes (CString Mem)
open Datapoints (Json)
open Network (OtaAnswers OtaJob OtaStartAnswers OtaStatus OtaSystem otaBoot otaStart otaTaskCreate
  otaTaskNoted otaTaskStep)

def FP_SLOW_INTERVAL_S : UInt32 := 60

/-- What the client is built with: the parts of `fp_config_t` that `fp_task.c` uses itself, the name
    of an error code, and the size of the update slot. -/
structure ClientConfig (σ : Type*) where
  P : Primitives
  app : FpApp σ
  cfg : FpConfig
  heartbeatS : UInt32
  reportS : UInt32
  fillChanges : Option (σ → ℤ × List (String × Json) × σ)
  onAlive : Option (σ → σ)
  onSessionLost : Option (σ → σ)
  espErrToName : ℤ → CString
  slotSize : UInt32

/-- `fp_ws_event_t`, with the data. -/
inductive FpWsEvent where
  | connected
  | data (json : List UInt8)
  | disconnected

/-- What a handler still has to do: an action of the session, or
    `fountain_proto_ota_failed_note`. -/
inductive HandlerAct where
  | act (a : SessionAct)
  | note

/-- Where the task of the WebSocket client is: outside of `on_ws`, before its `lock`, behind it. -/
inductive WsPc where
  | idle
  | locking (ev : FpWsEvent)
  | handling (todo : List HandlerAct)

/-- Where `task_fn` is: in its delay, before `on_session_lost`, before the look at `s_tx_ok_count`,
    before `lock`, behind it. -/
inductive TaskPc where
  | delay
  | lost
  | running (up : UInt32)
  | locking (up hbS repS : UInt32)
  | handling (todo : List HandlerAct)

/-- The tasks that hold the mutex over several steps. -/
inductive LockHolder where
  | ws
  | task
  deriving DecidableEq

/-- `fp_ctx_t` with the tasks. `recovering` tells whether `fountain_proto_recover` is in
    `esp_websocket_client_stop`. -/
structure Client (σ : Type*) where
  world : FpWorld σ
  lock : Option LockHolder
  ws : WsPc
  task : TaskPc
  tx : TxPath
  ota : OtaSystem
  slowMode : Bool
  lastHb : UInt32
  lastRep : UInt32
  lastTxOk : UInt32
  wasRunning : Bool
  recovering : Bool

/-- What has happened, for the statements: how often a handler has taken the mutex and given it
    back, how often `on_alive` and `on_session_lost` were called and the session has begun to run,
    the offers that were verified with their sessions, and those that `ota_start` has refused. -/
structure ClientHistory where
  taken : ℕ
  given : ℕ
  alive : ℕ
  lost : ℕ
  started : ℕ
  offers : List (FpSession × Json)
  refused : List Json

/-- What the calls of a step answer. -/
structure StepAnswers where
  now : Float
  random : Vector UInt8 16
  up : UInt32
  memory : Bool
  expired : Bool
  ota : OtaStartAnswers

variable {σ : Type*}

/-- The offers among the actions of a handler. -/
def offersOf (acts : List SessionAct) : List Json :=
  acts.filterMap fun a =>
    match a with
    | .call (.onOta m) => some m
    | _ => none

section Steps

variable (E : ClientConfig σ)

/-- The callbacks of the session. `cb_on_ota` hands the offer to `ota_start`, which does not work on
    the state of the application. -/
def ClientConfig.callbacks : FpApp σ := { E.app with onOta := some fun app _ => app }

/-- `fp_ota_status_build` for `fountain_proto_ota_status_send`. -/
def fpOtaStatusBuild (st : OtaStatus) : List (String × Json) :=
  [("target_version", .string st.targetVersion), ("state", .string st.state),
    ("attempt", .number 1), ("progress_pct", .number st.progressPct.toFloat)] ++
  (st.error.map fun e => ("error", Json.string e)).toList ++
  (st.errorDetail.map fun e => ("error_detail", Json.string (E.espErrToName e))).toList

/-- `fp_session_heartbeat_send`. -/
def fpSessionHeartbeatSend (now : Float) (w : FpWorld σ) (uptimeS : UInt32) : FpWorld σ :=
  if !w.session.running then w
  else
    sendMsg E.cfg now w .heartbeat [("uptime_s", .number uptimeS.toFloat),
      ("fw_version", .string E.cfg.fwVersion), ("fault_active", .bool false)] none none

/-- `fp_session_dp_changes_send`. -/
def fpSessionDpChangesSend (now : Float) (w : FpWorld σ) : FpWorld σ :=
  match E.fillChanges with
  | none => w
  | some f =>
    let r := f w.app
    let w := { w with app := r.2.2 }
    if r.1 ≤ 0 then w
    else
      let seq := w.session.reportSeq
      let w := { w with session := { w.session with reportSeq := seq + 1 } }
      sendMsg E.cfg now w .dpReport [("seq", .number seq.toFloat), ("dp", .object r.2.1)] none none

/-- The switch of `on_ws`. -/
def onWs (x : StepAnswers) (w : FpWorld σ) : FpWsEvent → FpWorld σ
  | .connected =>
    fpSessionHelloSend E.cfg x.now { w with session := fpSessionReset w.session } x.random
  | .data json => (fpSessionMessageHandle E.P E.callbacks E.cfg x.now w json).2
  | .disconnected => { w with session := fpSessionReset w.session }

/-- What `task_fn` does under the mutex. -/
def taskSection (x : StepAnswers) (w : FpWorld σ) (heartbeat report : Bool) (up : UInt32) :
    FpWorld σ :=
  let w := if heartbeat then fpSessionHeartbeatSend E x.now w up else w
  if report then dpReportSendNames E.callbacks E.cfg x.now w none none
  else fpSessionDpChangesSend E x.now w

/-- The beginning of a section: the holder has the mutex, and what `w.out` lists is to be done. -/
def Client.enter (c : Client σ) (holder : LockHolder) (w : FpWorld σ) : Client σ :=
  { c with world := { w with out := [] }, lock := some holder }

/-- The session begins to run in a step to `session`. -/
def begins (before after : FpSession) : ℕ := if !before.running && after.running then 1 else 0

/-- How an action of a handler ends: the handler waits in it, or goes on with `todo`. -/
inductive ActEnd (σ : Type*) where
  | waits
  | done (c : Client σ) (h : ClientHistory) (todo : List HandlerAct)

/-- The first action of `todo`. -/
def handlerStep (c : Client σ) (h : ClientHistory) (x : StepAnswers) (a : HandlerAct)
    (todo : List HandlerAct) : ActEnd σ :=
  match a with
  | .act (.send msg) =>
    match txEnqueueOwned c.tx (if x.memory then some msg else none) x.expired with
    | none => .waits
    | some tx => .done { c with tx := tx } h todo
  | .act (.call (.onOta m)) =>
    match otaStart x.ota m with
    | .started job => .done { c with ota := otaTaskCreate c.ota job } h todo
    | .refused status =>
      let frame := status.map fun st => HandlerAct.act <| .send <| .object <|
        fpEnvelopeBuild E.cfg x.now .otaStatus (fpOtaStatusBuild E st) none none
      .done c { h with refused := h.refused ++ [m] } (frame.toList ++ .note :: todo)
  | .act (.call _) => .done c h todo
  | .note =>
    -- `lock` of `fountain_proto_ota_failed_note`
    if c.lock.isSome then .waits
    else
      let w := fountainProtoOtaFailedNote E.callbacks c.world
      .done { c with world := { w with out := [] } }
        { h with started := h.started + begins c.world.session w.session } todo

/-- The next step of the task of the WebSocket client in `on_ws`. -/
def wsTaskStep (c : Client σ) (h : ClientHistory) (x : StepAnswers) : Client σ × ClientHistory :=
  match c.ws with
  | .idle => (c, h)
  | .locking ev =>
    if c.lock.isSome then (c, h)
    else
      let w := onWs E x c.world ev
      ({ c.enter .ws w with ws := .handling (w.out.map .act) },
        { h with
          taken := h.taken + 1
          started := h.started + begins c.world.session w.session
          offers := h.offers ++ (offersOf w.out).map fun m => (c.world.session, m) })
  | .handling [] => ({ c with lock := none, ws := .idle }, { h with given := h.given + 1 })
  | .handling (a :: todo) =>
    match handlerStep E c h x a todo with
    | .waits => (c, h)
    | .done c h todo => ({ c with ws := .handling todo }, h)

/-- The next step of `task_fn`. -/
def taskStep (c : Client σ) (h : ClientHistory) (x : StepAnswers) : Client σ × ClientHistory :=
  match c.task with
  | .delay =>
    if c.world.session.running then ({ c with wasRunning := true, task := .running x.up }, h)
    else if c.wasRunning && E.onSessionLost.isSome then ({ c with task := .lost }, h)
    else ({ c with wasRunning := false }, h)
  | .lost =>
    ({ c with
        world := { c.world with app := (E.onSessionLost.getD id) c.world.app }
        wasRunning := false
        task := .delay },
      { h with lost := h.lost + 1 })
  | .running up =>
    let hbS := if c.slowMode then FP_SLOW_INTERVAL_S else E.heartbeatS
    let repS := if c.slowMode then FP_SLOW_INTERVAL_S else E.reportS
    let c := { c with task := .locking up hbS repS }
    if c.tx.txOk ≠ c.lastTxOk then
      match E.onAlive with
      | some f =>
        ({ c with lastTxOk := c.tx.txOk, world := { c.world with app := f c.world.app } },
          { h with alive := h.alive + 1 })
      | none => ({ c with lastTxOk := c.tx.txOk }, h)
    else (c, h)
  | .locking up hbS repS =>
    if c.lock.isSome then (c, h)
    else
      let heartbeat := decide (hbS ≤ up - c.lastHb)
      let report := decide (repS ≤ up - c.lastRep)
      let w := taskSection E x c.world heartbeat report up
      ({ c.enter .task w with
          task := .handling (w.out.map .act)
          lastHb := if heartbeat then up else c.lastHb
          lastRep := if report then up else c.lastRep },
        { h with taken := h.taken + 1 })
  | .handling [] => ({ c with lock := none, task := .delay }, { h with given := h.given + 1 })
  | .handling (a :: todo) =>
    match handlerStep E c h x a todo with
    | .waits => (c, h)
    | .done c h todo => ({ c with task := .handling todo }, h)

/-- `fountain_proto_ota_failed_note` in the task of update `i`, when it has the mutex. -/
def otaNoteStep (c : Client σ) (h : ClientHistory) (i : ℕ) : Client σ × ClientHistory :=
  match c.ota.tasks[i]? with
  | none => (c, h)
  | some t =>
    if t.pc = .note ∧ c.lock = none then
      let w := fountainProtoOtaFailedNote E.callbacks c.world
      ({ c with world := { w with out := [] }, ota := otaTaskNoted c.ota i },
        { h with started := h.started + begins c.world.session w.session })
    else (c, h)

/-- What happens: an event for the idle client, a step of a task, a frame of another task, steps of
    the application on its own, and a call of `fountain_proto_recover` with its return. -/
inductive ClientOp (σ : Type*) where
  | event (ev : FpWsEvent)
  | ws (x : StepAnswers)
  | task (x : StepAnswers)
  | tx (sent : Bool)
  | frame (json : Option Json) (expired : Bool)
  | otaTask (i : ℕ) (x : OtaAnswers)
  | otaNote (i : ℕ)
  | slowMode (slow : Bool)
  | app (g : σ → σ)
  | recover
  | recovered

/-- `esp_websocket_client_stop` joins the task of the client. -/
def WsPc.isIdle : WsPc → Bool
  | .idle => true
  | _ => false

def clientStep (s : Client σ × ClientHistory) : ClientOp σ → Client σ × ClientHistory
  | .event ev => if s.1.ws.isIdle then ({ s.1 with ws := .locking ev }, s.2) else s
  | .ws x => wsTaskStep E s.1 s.2 x
  | .task x => taskStep E s.1 s.2 x
  | .tx sent => ({ s.1 with tx := txStep s.1.tx (.tx sent) }, s.2)
  | .frame json expired =>
    ({ s.1 with tx := txStep s.1.tx (.enqueue json expired) }, s.2)
  | .otaTask i x => ({ s.1 with ota := otaTaskStep E.P E.slotSize s.1.ota i x }, s.2)
  | .otaNote i => otaNoteStep E s.1 s.2 i
  | .slowMode slow => ({ s.1 with slowMode := slow }, s.2)
  | .app g => ({ s.1 with world := { s.1.world with app := g s.1.world.app } }, s.2)
  | .recover => ({ s.1 with recovering := true }, s.2)
  | .recovered =>
    if s.1.recovering && s.1.ws.isIdle then ({ s.1 with recovering := false }, s.2) else s

/-- The client after `fountain_proto_start`, with the content of the update slot. -/
def clientBoot (app : σ) (slot : Mem) : Client σ × ClientHistory :=
  ({ world := { session := fpSessionInit, app := app, out := [] }
     lock := none
     ws := .idle
     task := .delay
     tx := txBoot
     ota := otaBoot slot
     slowMode := false
     lastHb := 0
     lastRep := 0
     lastTxOk := 0
     wasRunning := false
     recovering := false },
    { taken := 0, given := 0, alive := 0, lost := 0, started := 0, offers := [], refused := [] })

/-- The client after the operations. -/
def clientRun (app : σ) (slot : Mem) (ops : List (ClientOp σ)) : Client σ × ClientHistory :=
  Machine.run (clientStep E) (clientBoot app slot) ops

end Steps

-- ════════════════════════════════════════════════════════════════════════
-- A client to compute with
-- ════════════════════════════════════════════════════════════════════════

/-- The type of an offer. -/
def offerType : CString := literal "ota_available"

/-- An offer without a URL, signed for the connection with the nonce of 16 zero bytes. -/
def offerText : List UInt8 :=
  text "\x7b\"v\":2,\"type\":\"ota_available\"," ++
  text "\"auth\":\x7b\"kid\":\"k1\",\"seq\":1,\"mac\":\"TvGOpMyecvEXWyq+qM3Fsw==\"\x7d\x7d"

/-- The primitives on the texts of a connection with this offer. The hash of its body and its MAC
    under the key `key` are those of SHA-256. -/
def offerPrimitives : Primitives where
  parse json :=
    if json = offerText then
      some (.object [("v", .number 2), ("type", .string offerType),
        ("auth", .object [("kid", .string exampleDevice.authKid), ("seq", .number 1),
          ("mac", .string (literal "TvGOpMyecvEXWyq+qM3Fsw=="))])])
    else examplePrimitives.parse json
  sha256 data :=
    if data = text "\x7b\x7d" then
      .ofFn fun i => [68, 19, 111, 163, 85, 179, 103, 138, 17, 70, 173, 22, 247, 232, 100, 158, 148,
        251, 79, 194, 31, 231, 126, 131, 16, 192, 96, 246, 28, 170, 255, 138].getD i 0
    else Vector.replicate 32 0
  hmac128 _ _ := [78, 241, 142, 164, 204, 158, 114, 241, 23, 91, 42, 190, 168, 205, 197, 179]
  formatG _ _ := []
  strtod _ := 0

/-- The client of the device with the key `key`. -/
def exampleClient : ClientConfig ℕ where
  P := offerPrimitives
  app := readyCounter
  cfg := exampleDevice
  heartbeatS := 30
  reportS := 10
  fillChanges := none
  onAlive := none
  onSessionLost := none
  espErrToName _ := emptyString
  slotSize := 0

/-- Every call succeeds. -/
def exampleAnswers : StepAnswers where
  now := 0
  random := Vector.replicate 16 0
  up := 0
  memory := true
  expired := true
  ota := ⟨false, true, true⟩

end Fountainer.Protocol
