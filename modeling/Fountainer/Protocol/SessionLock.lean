import Fountainer.Protocol.Client

/-!
# The mutex of the session

A handler gives the mutex back after finitely many steps of its own, with one exception:
`fountain_proto_ota_failed_note` takes the mutex itself, and `ota_start` calls it in the task of the
WebSocket client when it refuses an offer, inside of `on_ws`, which has the mutex already. That task
then waits for itself, and with it everyone who needs the session.
-/

namespace Fountainer.Protocol

open Datapoints (Json)
open Network (OtaAnswers OtaStart OtaTask otaStart otaTaskCreate otaTaskNoted otaTaskStep)

variable {σ : Type*} {E : ClientConfig σ} {s s' : Client σ × ClientHistory}

-- ════════════════════════════════════════════════════════════════════════
-- The steps
-- ════════════════════════════════════════════════════════════════════════

/-- An action of a handler that is neither an offer nor the note of a failed update. -/
def HandlerAct.Plain : HandlerAct → Prop
  | .act (.call (.onOta _)) => False
  | .act _ => True
  | .note => False

/-- What the first action of a handler does under the mutex, unless it waits. -/
inductive Acts (E : ClientConfig σ) (c : Client σ) (h : ClientHistory) (todo : List HandlerAct) :
    HandlerAct → Client σ → ClientHistory → List HandlerAct → Prop
  | sent {msg : Json} {tx : TxPath} (json : Option Json) (expired : Bool)
      (htx : txEnqueueOwned c.tx json expired = some tx) :
      Acts E c h todo (.act (.send msg)) { c with tx := tx } h todo
  | started {m : Json} {x : Network.OtaStartAnswers} {job : Network.OtaJob}
      (hstart : otaStart x m = .started job) :
      Acts E c h todo (.act (.call (.onOta m))) { c with ota := otaTaskCreate c.ota job } h todo
  | refused {m : Json} {frame : List HandlerAct} (hframe : ∀ a ∈ frame, a.Plain) :
      Acts E c h todo (.act (.call (.onOta m))) c { h with refused := h.refused ++ [m] }
        (frame ++ .note :: todo)
  | called {cb : Callback} (hplain : (HandlerAct.act (.call cb)).Plain) :
      Acts E c h todo (.act (.call cb)) c h todo

theorem handlerStep_acts {c c' : Client σ} {h h' : ClientHistory} {x : StepAnswers} {a : HandlerAct}
    {todo todo' : List HandlerAct} (hlock : c.lock.isSome = true)
    (hdone : handlerStep E c h x a todo = .done c' h' todo') : Acts E c h todo a c' h' todo' := by
  unfold handlerStep at hdone
  cases a with
  | note =>
    rw [if_pos hlock] at hdone
    cases hdone
  | act a =>
    cases a with
    | send msg =>
      simp only at hdone
      cases htx : txEnqueueOwned c.tx (if x.memory then some msg else none) x.expired with
      | none =>
        rw [htx] at hdone
        cases hdone
      | some tx =>
        rw [htx] at hdone
        cases hdone
        exact .sent _ _ htx
    | call cb =>
      cases cb with
      | onOta m =>
        simp only at hdone
        cases hstart : otaStart x.ota m with
        | started job =>
          rw [hstart] at hdone
          cases hdone
          exact .started hstart
        | refused status =>
          rw [hstart] at hdone
          cases hdone
          refine .refused fun a ha => ?_
          cases status with
          | none => cases ha
          | some st => rw [List.mem_singleton.mp ha]; trivial
      | fillSnapshot | onCommand | onDpWrite | onReady | fillLogBatch | onLogAckPrev
      | fillHistoryBatch =>
        cases hdone
        exact .called trivial

/-- Who has the mutex, and what the holder has to do. -/
structure Locked (s : Client σ × ClientHistory) : Prop where
  out : s.1.world.out = []
  ws : s.1.lock = some .ws ↔ ∃ todo, s.1.ws = .handling todo
  task : s.1.lock = some .task ↔ ∃ todo, s.1.task = .handling todo
  taskPlain : ∀ todo, s.1.task = .handling todo → ∀ a ∈ todo, a.Plain
  refused : s.2.refused ≠ [] ↔ ∃ todo, s.1.ws = .handling todo ∧ .note ∈ todo

/-- What a step changes. -/
inductive Moves (E : ClientConfig σ) (s : Client σ × ClientHistory) :
    Client σ × ClientHistory → Prop
  | event (ev : FpWsEvent) (hpc : s.1.ws = .idle) : Moves E s ({ s.1 with ws := .locking ev }, s.2)
  | wsEnter (ev : FpWsEvent) (x : StepAnswers) (hpc : s.1.ws = .locking ev)
    (hlock : s.1.lock = none) :
      Moves E s
        ({ s.1.enter .ws (onWs E x s.1.world ev) with
            ws := .handling ((onWs E x s.1.world ev).out.map .act) },
          { s.2 with
            taken := s.2.taken + 1
            started := s.2.started + begins s.1.world.session (onWs E x s.1.world ev).session
            offers := s.2.offers ++
              (offersOf (onWs E x s.1.world ev).out).map fun m => (s.1.world.session, m) })
  | wsAct {a : HandlerAct} {todo todo' : List HandlerAct} {c : Client σ} {h : ClientHistory}
      (hpc : s.1.ws = .handling (a :: todo)) (hact : Acts E s.1 s.2 todo a c h todo') :
      Moves E s ({ c with ws := .handling todo' }, h)
  | wsGive (hpc : s.1.ws = .handling []) :
      Moves E s ({ s.1 with lock := none, ws := .idle }, { s.2 with given := s.2.given + 1 })
  | taskRunning (up : UInt32) (hpc : s.1.task = .delay) (hrun : s.1.world.session.running = true) :
      Moves E s ({ s.1 with wasRunning := true, task := .running up }, s.2)
  | taskEnds (hpc : s.1.task = .delay) (hrun : s.1.world.session.running = false)
      (hwas : s.1.wasRunning = true) : Moves E s ({ s.1 with task := .lost }, s.2)
  | taskDelay (hpc : s.1.task = .delay) (hrun : s.1.world.session.running = false) :
      Moves E s ({ s.1 with wasRunning := false, task := .delay }, s.2)
  | taskLost (app : σ) (hpc : s.1.task = .lost) :
      Moves E s
        ({ s.1 with world := { s.1.world with app := app }, wasRunning := false, task := .delay },
          { s.2 with lost := s.2.lost + 1 })
  | taskAlive (up hbS repS : UInt32) (app : σ) (n : ℕ) (hn : n ≤ 1) (hpc : s.1.task = .running up)
      (hne : s.1.tx.txOk ≠ s.1.lastTxOk) :
      Moves E s
        ({ s.1 with
            world := { s.1.world with app := app }
            task := .locking up hbS repS
            lastTxOk := s.1.tx.txOk },
          { s.2 with alive := s.2.alive + n })
  | taskStill (up hbS repS : UInt32) (hpc : s.1.task = .running up)
      (heq : s.1.tx.txOk = s.1.lastTxOk) : Moves E s
      ({ s.1 with task := .locking up hbS repS }, s.2)
  | taskEnter (up lastHb lastRep : UInt32) (x : StepAnswers) (heartbeat report : Bool)
      {hbS repS : UInt32} (hpc : s.1.task = .locking up hbS repS) (hlock : s.1.lock = none) :
      Moves E s
        ({ s.1.enter .task (taskSection E x s.1.world heartbeat report up) with
            task := .handling ((taskSection E x s.1.world heartbeat report up).out.map .act)
            lastHb := lastHb
            lastRep := lastRep },
          { s.2 with taken := s.2.taken + 1 })
  | taskAct {a : HandlerAct} {todo todo' : List HandlerAct} {c : Client σ} {h : ClientHistory}
      (hpc : s.1.task = .handling (a :: todo)) (hact : Acts E s.1 s.2 todo a c h todo') :
      Moves E s ({ c with task := .handling todo' }, h)
  | taskGive (hpc : s.1.task = .handling []) :
      Moves E s ({ s.1 with lock := none, task := .delay }, { s.2 with given := s.2.given + 1 })
  | tx (op : TxOp) : Moves E s ({ s.1 with tx := txStep s.1.tx op }, s.2)
  | otaTask (i : ℕ) (x : OtaAnswers) :
      Moves E s ({ s.1 with ota := otaTaskStep E.P E.slotSize s.1.ota i x }, s.2)
  | otaNote (i : ℕ) (hlock : s.1.lock = none) :
      Moves E s
        ({ s.1 with
            world := { fountainProtoOtaFailedNote E.callbacks s.1.world with out := [] }
            ota := otaTaskNoted s.1.ota i },
          { s.2 with
            started := s.2.started +
              begins s.1.world.session (fountainProtoOtaFailedNote E.callbacks s.1.world).session })
  | app (app : σ) : Moves E s ({ s.1 with world := { s.1.world with app := app } }, s.2)
  | slowMode (slow : Bool) : Moves E s ({ s.1 with slowMode := slow }, s.2)
  | recover : Moves E s ({ s.1 with recovering := true }, s.2)
  | recovered (hpc : s.1.ws = .idle) : Moves E s ({ s.1 with recovering := false }, s.2)

theorem Locked.ws_isSome (h : Locked s) {todo : List HandlerAct} (hpc : s.1.ws = .handling todo) :
    s.1.lock.isSome = true := by
  rw [h.ws.mpr ⟨todo, hpc⟩]
  rfl

theorem Locked.task_isSome (h : Locked s) {todo : List HandlerAct}
    (hpc : s.1.task = .handling todo) : s.1.lock.isSome = true := by
  rw [h.task.mpr ⟨todo, hpc⟩]
  rfl

/-- Not both handlers have the mutex. -/
theorem Locked.not_both (h : Locked s) {todo : List HandlerAct} (hpc : s.1.ws = .handling todo) :
    ∀ todo, s.1.task ≠ .handling todo := by
  intro todo' hpc'
  have hlock := h.task.mpr ⟨todo', hpc'⟩
  rw [h.ws.mpr ⟨todo, hpc⟩] at hlock
  cases hlock

theorem wsTaskStep_moves (h : Locked s) (x : StepAnswers) :
    wsTaskStep E s.1 s.2 x = s ∨ Moves E s (wsTaskStep E s.1 s.2 x) := by
  unfold wsTaskStep
  cases hpc : s.1.ws with
  | idle => exact .inl rfl
  | locking ev =>
    simp only
    split_ifs with hlock
    · exact .inl rfl
    · exact .inr (.wsEnter ev x hpc (Option.not_isSome_iff_eq_none.mp hlock))
  | handling todo =>
    cases todo with
    | nil => exact .inr (.wsGive hpc)
    | cons a todo =>
      simp only
      cases hact : handlerStep E s.1 s.2 x a todo with
      | waits => exact .inl rfl
      | done c h' todo' => exact .inr (.wsAct hpc (handlerStep_acts (h.ws_isSome hpc) hact))

theorem taskStep_moves (h : Locked s) (x : StepAnswers) :
    taskStep E s.1 s.2 x = s ∨ Moves E s (taskStep E s.1 s.2 x) := by
  unfold taskStep
  cases hpc : s.1.task with
  | delay =>
    simp only
    split_ifs with hrun hwas
    · exact .inr (.taskRunning x.up hpc hrun)
    · exact .inr (.taskEnds hpc (Bool.eq_false_iff.mpr hrun) (Bool.and_eq_true_iff.mp hwas).1)
    · exact .inr (.taskDelay hpc (Bool.eq_false_iff.mpr hrun))
  | lost => exact .inr (.taskLost _ hpc)
  | running up =>
    dsimp only
    by_cases hne : s.1.tx.txOk ≠ s.1.lastTxOk
    · rw [if_pos hne]
      cases E.onAlive with
      | none => exact .inr (.taskAlive up _ _ s.1.world.app 0 (Nat.zero_le _) hpc hne)
      | some f => exact .inr (.taskAlive up _ _ (f s.1.world.app) 1 le_rfl hpc hne)
    · rw [if_neg hne]
      exact .inr (.taskStill up _ _ hpc (not_not.mp hne))
  | locking up hbS repS =>
    dsimp only
    by_cases hlock : s.1.lock.isSome = true
    · rw [if_pos hlock]
      exact .inl rfl
    · rw [if_neg hlock]
      exact .inr (.taskEnter up _ _ x _ _ hpc (Option.not_isSome_iff_eq_none.mp hlock))
  | handling todo =>
    cases todo with
    | nil => exact .inr (.taskGive hpc)
    | cons a todo =>
      simp only
      cases hact : handlerStep E s.1 s.2 x a todo with
      | waits => exact .inl rfl
      | done c h' todo' => exact .inr (.taskAct hpc (handlerStep_acts (h.task_isSome hpc) hact))

theorem WsPc.eq_idle {pc : WsPc} (h : pc.isIdle = true) : pc = .idle := by
  cases pc with
  | idle => rfl
  | locking | handling => cases h

theorem clientStep_moves (h : Locked s) (op : ClientOp σ) :
    clientStep E s op = s ∨ Moves E s (clientStep E s op) := by
  cases op with
  | event ev =>
    rw [clientStep]
    split_ifs with hidle
    · exact .inr (.event ev (WsPc.eq_idle hidle))
    · exact .inl rfl
  | ws x => exact wsTaskStep_moves h x
  | task x => exact taskStep_moves h x
  | tx sent => exact .inr (.tx (.tx sent))
  | frame json expired => exact .inr (.tx (.enqueue json expired))
  | otaTask i x => exact .inr (.otaTask i x)
  | otaNote i =>
    rw [clientStep, otaNoteStep]
    cases s.1.ota.tasks[i]? with
    | none => exact .inl rfl
    | some t =>
      simp only
      split_ifs with hnote
      · exact .inr (.otaNote i hnote.2)
      · exact .inl rfl
  | slowMode slow => exact .inr (.slowMode slow)
  | app g => exact .inr (.app (g s.1.world.app))
  | recover => exact .inr .recover
  | recovered =>
    rw [clientStep]
    split_ifs with hidle
    · exact .inr (.recovered (WsPc.eq_idle (Bool.and_eq_true_iff.mp hidle).2))
    · exact .inl rfl

-- ════════════════════════════════════════════════════════════════════════
-- Who has the mutex
-- ════════════════════════════════════════════════════════════════════════

theorem locked_boot (app : σ) (slot : Bytes.Mem) : Locked (clientBoot app slot) := by
  constructor <;> simp [clientBoot]

theorem plain_map_act {acts : List SessionAct} (h : offersOf acts = []) :
    ∀ a ∈ acts.map HandlerAct.act, a.Plain := by
  intro a ha
  obtain ⟨act, hmem, rfl⟩ := List.mem_map.mp ha
  rw [offersOf, List.filterMap_eq_nil_iff] at h
  have hno := h act hmem
  cases act with
  | send msg => trivial
  | call cb =>
    cases cb with
    | onOta m => cases hno
    | _ => trivial

@[simp] theorem offersOf_append (xs ys : List SessionAct) :
    offersOf (xs ++ ys) = offersOf xs ++ offersOf ys := List.filterMap_append

@[simp] theorem offersOf_nil : offersOf [] = [] := rfl

@[simp] theorem offersOf_send (msg : Json) : offersOf [.send msg] = [] := rfl

theorem sendMsg_out (cfg : FpConfig) (now : Float) (w : FpWorld σ) (type : FpMsgType)
    (body : List (String × Json)) (msgId inReplyTo : Option Bytes.CString) :
    offersOf (sendMsg cfg now w type body msgId inReplyTo).out = offersOf w.out := by
  simp [sendMsg, FpWorld.emit]

/-- The protocol task hands no offers on. -/
theorem taskSection_offers (x : StepAnswers) {w : FpWorld σ} (hout : w.out = [])
    (heartbeat report : Bool) (up : UInt32) :
    offersOf (taskSection E x w heartbeat report up).out = [] := by
  have hbeat (w : FpWorld σ) :
      offersOf (fpSessionHeartbeatSend E x.now w up).out = offersOf w.out := by
    rw [fpSessionHeartbeatSend]
    split_ifs
    · rfl
    · exact sendMsg_out _ _ _ _ _ _ _
  have hchanges (w : FpWorld σ) : offersOf (fpSessionDpChangesSend E x.now w).out =
    offersOf w.out := by
    rw [fpSessionDpChangesSend]
    cases E.fillChanges with
    | none => rfl
    | some f =>
      dsimp only
      split_ifs
      · rfl
      · exact sendMsg_out _ _ _ _ _ _ _
  have hreport (w : FpWorld σ) :
      offersOf (dpReportSendNames E.callbacks E.cfg x.now w none none).out = offersOf w.out := by
    rw [dpReportSendNames]
    cases E.callbacks.fillSnapshot with
    | none => exact sendMsg_out _ _ _ _ _ _ _
    | some f =>
      dsimp only
      rw [sendMsg_out]
      simp [FpWorld.emit, offersOf]
  have hstart :
    offersOf (if heartbeat then fpSessionHeartbeatSend E x.now w up else w).out = [] := by
    cases heartbeat with
    | false => simp [hout]
    | true => simp [hbeat, hout]
  unfold taskSection
  cases report with
  | false => exact (hchanges _).trans hstart
  | true => exact (hreport _).trans hstart

/-- What an action of a handler leaves as it is. -/
structure ActFrame (c c' : Client σ) (h h' : ClientHistory) : Prop where
  world : c'.world = c.world
  lock : c'.lock = c.lock
  ws : c'.ws = c.ws
  task : c'.task = c.task
  lastTxOk : c'.lastTxOk = c.lastTxOk
  wasRunning : c'.wasRunning = c.wasRunning
  recovering : c'.recovering = c.recovering
  history : h' = { h with refused := h'.refused }
  refused : h.refused <+: h'.refused

theorem Acts.frame {c c' : Client σ} {h h' : ClientHistory} {todo todo' : List HandlerAct}
    {a : HandlerAct} (hact : Acts E c h todo a c' h' todo') : ActFrame c c' h h' := by
  cases hact with
  | sent | started | called => exact ⟨rfl, rfl, rfl, rfl, rfl, rfl, rfl, rfl, List.prefix_refl _⟩
  | refused => exact ⟨rfl, rfl, rfl, rfl, rfl, rfl, rfl, rfl, List.prefix_append _ _⟩

/-- A plain action refuses nothing. -/
theorem Acts.plain {c c' : Client σ} {h h' : ClientHistory} {todo todo' : List HandlerAct}
    {a : HandlerAct} (hact : Acts E c h todo a c' h' todo') (ha : a.Plain) :
    h' = h ∧ todo' = todo := by
  cases hact with
  | sent => exact ⟨rfl, rfl⟩
  | started => exact ha.elim
  | refused => exact ha.elim
  | called => exact ⟨rfl, rfl⟩

theorem Locked.moves (h : Locked s) (hmove : Moves E s s') : Locked s' := by
  have hnone (hlock : s.1.lock = none) : (¬ ∃ todo, s.1.ws = .handling todo) ∧
      ¬ ∃ todo, s.1.task = .handling todo := by
    rw [← h.ws, ← h.task, hlock]
    exact ⟨nofun, nofun⟩
  cases hmove with
  | event ev hpc =>
    refine ⟨h.out, ?_, h.task, h.taskPlain, ?_⟩
    · rw [h.ws, hpc]
      simp
    · rw [h.refused, hpc]
      simp
  | wsEnter ev x hpc hlock =>
    have hfree := hnone hlock
    refine ⟨rfl, ?_, ?_, h.taskPlain, ?_⟩
    · simp [Client.enter]
    · simpa [Client.enter] using hfree.2
    · have hno : s.2.refused = [] := by
        rw [← not_ne_iff, h.refused]
        rintro ⟨todo, htodo, -⟩
        exact hfree.1 ⟨todo, htodo⟩
      simp [hno]
  | @wsAct a todo todo' c hist hpc hact =>
    have hframe := hact.frame
    refine ⟨?_, ?_, ?_, ?_, ?_⟩
    · rw [hframe.world, h.out]
    · simp only
      rw [hframe.lock, h.ws, hpc]
      simp
    · simp only
      rw [hframe.lock, hframe.task, h.task]
    · simp only
      rw [hframe.task]
      exact h.taskPlain
    · have hbefore := h.refused
      rw [hpc] at hbefore
      cases hact with
      | sent => simpa using hbefore
      | started => simpa using hbefore
      | refused => simp
      | called => simpa using hbefore
  | wsGive hpc =>
    refine ⟨h.out, by simp, ?_, h.taskPlain, ?_⟩
    · simpa using h.not_both hpc
    · rw [h.refused, hpc]
      simp
  | taskRunning up hpc hrun | taskEnds hpc hrun hwas | taskDelay hpc hrun | taskLost app hpc
  | taskAlive up hbS repS app n hn hpc hne | taskStill up hbS repS hpc heq =>
    have hno := h.task
    rw [hpc] at hno
    exact ⟨h.out, h.ws, by simpa using hno, by simp, h.refused⟩
  | taskEnter up lastHb lastRep x heartbeat report hpc hlock =>
    have hfree := hnone hlock
    refine ⟨rfl, ?_, ?_, ?_, h.refused⟩
    · simpa [Client.enter] using hfree.1
    · simp [Client.enter]
    · rintro todo ⟨⟩
      exact plain_map_act (taskSection_offers x h.out heartbeat report up)
  | taskAct hpc hact =>
    have hframe := hact.frame
    have hplain := h.taskPlain _ hpc
    obtain ⟨rfl, rfl⟩ := hact.plain (hplain _ List.mem_cons_self)
    refine ⟨?_, ?_, ?_, ?_, ?_⟩
    · rw [hframe.world, h.out]
    · simp only
      rw [hframe.lock, hframe.ws, h.ws]
    · simp only
      rw [hframe.lock, h.task, hpc]
      simp
    · rintro todo ⟨⟩
      exact fun a ha => hplain a (List.mem_cons_of_mem _ ha)
    · simp only
      rw [hframe.ws, h.refused]
  | taskGive hpc =>
    refine ⟨h.out, ?_, by simp, by simp, h.refused⟩
    simpa using fun todo hws => h.not_both hws _ hpc
  | tx op => exact ⟨h.out, h.ws, h.task, h.taskPlain, h.refused⟩
  | otaTask i x => exact ⟨h.out, h.ws, h.task, h.taskPlain, h.refused⟩
  | otaNote i hlock => exact ⟨rfl, h.ws, h.task, h.taskPlain, h.refused⟩
  | app app => exact ⟨h.out, h.ws, h.task, h.taskPlain, h.refused⟩
  | slowMode slow => exact ⟨h.out, h.ws, h.task, h.taskPlain, h.refused⟩
  | recover => exact ⟨h.out, h.ws, h.task, h.taskPlain, h.refused⟩
  | recovered hpc => exact ⟨h.out, h.ws, h.task, h.taskPlain, h.refused⟩

theorem clientStep_cases (h : Locked s) (op : ClientOp σ) :
    Locked (clientStep E s op) ∧ (clientStep E s op = s ∨ Moves E s (clientStep E s op)) := by
  rcases clientStep_moves (E := E) h op with heq | hmove
  · exact ⟨heq.symm ▸ h, .inl heq⟩
  · exact ⟨h.moves hmove, .inr hmove⟩

/-- **Invariant rule of the client**: what every move preserves holds after every run. -/
theorem client_invariant {I : Client σ × ClientHistory → Prop}
    (hmoves : ∀ s s', Locked s → Moves E s s' → I s → I s') (hlocked : Locked s) (hs : I s)
    (ops : List (ClientOp σ)) :
    Locked (Machine.run (clientStep E) s ops) ∧ I (Machine.run (clientStep E) s ops) := by
  refine Machine.run_invariant (P := fun s => Locked s ∧ I s) (clientStep E) ?_ ⟨hlocked, hs⟩ ops
  rintro s op ⟨hlocked, hs⟩
  obtain ⟨hlocked', heq | hmove⟩ := clientStep_cases (E := E) hlocked op
  · rw [heq]
    exact ⟨hlocked, hs⟩
  · exact ⟨hlocked', hmoves s _ hlocked hmove hs⟩

theorem clientRun_append (app : σ) (slot : Bytes.Mem) (ops more : List (ClientOp σ)) :
    clientRun E app slot (ops ++ more) =
      Machine.run (clientStep E) (clientRun E app slot ops) more :=
  Machine.run_append _ _ _ _

theorem clientRun_locked (E : ClientConfig σ) (app : σ) (slot : Bytes.Mem)
    (ops : List (ClientOp σ)) : Locked (clientRun E app slot ops) :=
  (client_invariant (E := E) (I := fun _ => True) (fun _ _ _ _ _ => trivial) (locked_boot app slot)
    trivial ops).1

-- ════════════════════════════════════════════════════════════════════════
-- Without a refusal
-- ════════════════════════════════════════════════════════════════════════

/-- What the holder of the mutex has to do before it gives it back. -/
def Client.todo (c : Client σ) : LockHolder → List HandlerAct
  | .ws =>
    match c.ws with
    | .handling todo => todo
    | _ => []
  | .task =>
    match c.task with
    | .handling todo => todo
    | _ => []

/-- The steps of the holder before it has given the mutex back. -/
def toReturn (holder : LockHolder) (s : Client σ × ClientHistory) : ℕ :=
  (s.1.todo holder).length + 1

/-- A step of the holder that does not wait for room in the queue any longer. -/
def ClientOp.worksFor : LockHolder → ClientOp σ → Bool
  | .ws, .ws x => x.expired
  | .task, .task x => x.expired
  | _, _ => false

/-- The mutex has been given back since there were `n` of these, or an offer has been refused. -/
def Returned (n : ℕ) (s : Client σ × ClientHistory) : Prop := n < s.2.given ∨ s.2.refused ≠ []

theorem Acts.todo_length {c c' : Client σ} {h h' : ClientHistory} {todo todo' : List HandlerAct}
    {a : HandlerAct} (hact : Acts E c h todo a c' h' todo') : h'.refused ≠ [] ∨ todo' = todo := by
  cases hact with
  | refused => exact .inl (by simp)
  | _ => exact .inr rfl

theorem Moves.mono (hmove : Moves E s s') :
    s.2.given ≤ s'.2.given ∧ s.2.refused <+: s'.2.refused := by
  cases hmove with
  | wsAct hpc hact | taskAct hpc hact =>
    have hframe := hact.frame
    refine ⟨?_, hframe.refused⟩
    rw [hframe.history]
  | wsGive hpc | taskGive hpc => exact ⟨Nat.le_succ _, List.prefix_refl _⟩
  | _ => exact ⟨le_rfl, List.prefix_refl _⟩

theorem Returned.moves {n : ℕ} (h : Returned n s) (hmove : Moves E s s') : Returned n s' := by
  obtain ⟨hgiven, hrefused⟩ := hmove.mono
  rcases h with h | h
  · exact .inl (h.trans_le hgiven)
  · exact .inr fun hnil => h (List.prefix_nil.mp (hnil ▸ hrefused))

/-- A move leaves the holder with the mutex and no more to do, unless it gives the mutex back or
    refuses an offer. -/
theorem Moves.todo_le {holder : LockHolder} {n : ℕ} (hlocked : Locked s) (hmove : Moves E s s')
    (hlock : s.1.lock = some holder) (hn : n ≤ s.2.given) :
    Returned n s' ∨ s'.1.lock = some holder ∧ n ≤ s'.2.given ∧
      (s'.1.todo holder).length ≤ (s.1.todo holder).length := by
  cases holder with
  | ws =>
    obtain ⟨todo, hws⟩ := hlocked.ws.mp hlock
    have htask := hlocked.not_both hws
    cases hmove with
    | event _ hpc | wsEnter _ _ hpc | recovered hpc =>
      rw [hws] at hpc
      cases hpc
    | wsAct hpc hact =>
      have hframe := hact.frame
      rcases hact.todo_length with hrefused | hsame
      · exact .inl (.inr hrefused)
      · refine .inr ⟨hframe.lock.trans hlock, ?_, ?_⟩
        · rw [hframe.history]
          exact hn
        · simp only [Client.todo, hpc, hsame]
          exact Nat.le_succ _
    | wsGive => exact .inl (.inl (Nat.lt_succ_of_le hn))
    | taskEnter _ _ _ _ _ _ _ hfree =>
      rw [hlock] at hfree
      cases hfree
    | taskAct hpc | taskGive hpc => exact absurd hpc (htask _)
    | _ => exact .inr ⟨hlock, hn, le_rfl⟩
  | task =>
    obtain ⟨todo, htask⟩ := hlocked.task.mp hlock
    have hws : ∀ todo, s.1.ws ≠ .handling todo := fun _ hpc => hlocked.not_both hpc _ htask
    cases hmove with
    | wsEnter _ _ _ hfree =>
      rw [hlock] at hfree
      cases hfree
    | wsAct hpc | wsGive hpc => exact absurd hpc (hws _)
    | taskRunning _ hpc | taskEnds hpc | taskDelay hpc | taskLost _ hpc | taskAlive _ _ _ _ _ _ hpc
    | taskStill _ _ _ hpc | taskEnter _ _ _ _ _ _ hpc =>
      rw [htask] at hpc
      cases hpc
    | taskAct hpc hact =>
      have hframe := hact.frame
      rcases hact.todo_length with hrefused | hsame
      · exact .inl (.inr hrefused)
      · refine .inr ⟨hframe.lock.trans hlock, ?_, ?_⟩
        · rw [hframe.history]
          exact hn
        · simp only [Client.todo, hpc, hsame]
          exact Nat.le_succ _
    | taskGive => exact .inl (.inl (Nat.lt_succ_of_le hn))
    | _ => exact .inr ⟨hlock, hn, le_rfl⟩

/-- An action with its wait at an end does not wait, unless it is the note. -/
theorem handlerStep_ne_waits {c : Client σ} {h : ClientHistory} {x : StepAnswers} {a : HandlerAct}
    {todo : List HandlerAct} (ha : a ≠ .note) (hx : x.expired = true) :
    handlerStep E c h x a todo ≠ .waits := by
  unfold handlerStep
  cases a with
  | note => exact absurd rfl ha
  | act a =>
    cases a with
    | send msg =>
      simp only
      rcases txEnqueueOwned_cases c.tx (if x.memory then some msg else none) x.expired with
        ⟨-, hwait⟩ | hsame | ⟨j, ⟨txq, -, hqueued⟩ | hdropped⟩
      · rw [hx] at hwait
        cases hwait
      · rw [hsame]
        nofun
      · rw [hqueued]
        nofun
      · rw [hdropped]
        nofun
    | call cb =>
      cases cb with
      | onOta m => simp only; cases otaStart x.ota m <;> nofun
      | _ => nofun

/-- A step of the holder gets it nearer to its end. -/
theorem todo_lt {holder : LockHolder} {n : ℕ} (hlocked : Locked s) (hlock : s.1.lock = some holder)
    (hn : n ≤ s.2.given) (hrefused : s.2.refused = []) {op : ClientOp σ}
    (hop : op.worksFor holder = true) :
    Returned n (clientStep E s op) ∨
      ((clientStep E s op).1.todo holder).length < (s.1.todo holder).length := by
  cases holder with
  | ws =>
    obtain ⟨todo, hws⟩ := hlocked.ws.mp hlock
    cases op with
    | ws x =>
      rw [clientStep, wsTaskStep, hws]
      cases todo with
      | nil => exact .inl (.inl (Nat.lt_succ_of_le hn))
      | cons a todo =>
        have ha : a ≠ .note := by
          rintro rfl
          exact hlocked.refused.mpr ⟨_, hws, List.mem_cons_self⟩ hrefused
        simp only
        cases hact : handlerStep E s.1 s.2 x a todo with
        | waits => exact absurd hact (handlerStep_ne_waits ha hop)
        | done c h todo' =>
          rcases (handlerStep_acts (hlocked.ws_isSome hws) hact).todo_length with hrefused | rfl
          · exact .inl (.inr hrefused)
          · exact .inr (by simp [Client.todo, hws])
    | _ => cases hop
  | task =>
    obtain ⟨todo, htask⟩ := hlocked.task.mp hlock
    cases op with
    | task x =>
      rw [clientStep, taskStep, htask]
      cases todo with
      | nil => exact .inl (.inl (Nat.lt_succ_of_le hn))
      | cons a todo =>
        have ha : a ≠ .note := by
          rintro rfl
          exact hlocked.taskPlain _ htask _ List.mem_cons_self
        simp only
        cases hact : handlerStep E s.1 s.2 x a todo with
        | waits => exact absurd hact (handlerStep_ne_waits ha hop)
        | done c h todo' =>
          rcases (handlerStep_acts (hlocked.task_isSome htask) hact).todo_length with hrefused | rfl
          · exact .inl (.inr hrefused)
          · exact .inr (by simp [Client.todo, htask])
    | _ => cases hop

/-- **Without a refusal the mutex is given back**: a handler that has the mutex gives it back within
    as many steps of its own as it has actions left, and one more, whatever the other tasks do. -/
theorem handler_returns (E : ClientConfig σ) (app : σ) (slot : Bytes.Mem) (holder : LockHolder)
    (ops more : List (ClientOp σ)) (hlock : (clientRun E app slot ops).1.lock = some holder)
    (hrefused : (clientRun E app slot (ops ++ more)).2.refused = [])
    (hsteps : ((clientRun E app slot ops).1.todo holder).length <
      more.countP (ClientOp.worksFor holder)) :
    (clientRun E app slot ops).2.given < (clientRun E app slot (ops ++ more)).2.given := by
  set n := (clientRun E app slot ops).2.given
  -- Unless the mutex has been returned, the holder still has it.
  have hinv (s : Client σ × ClientHistory) (op : ClientOp σ)
      (h : Locked s ∧ (Returned n s ∨ s.1.lock = some holder ∧ n ≤ s.2.given)) :
      Locked (clientStep E s op) ∧ (Returned n (clientStep E s op) ∨
        (clientStep E s op).1.lock = some holder ∧ n ≤ (clientStep E s op).2.given) := by
    obtain ⟨hlocked', heq | hmove⟩ := clientStep_cases (E := E) h.1 op
    · rwa [heq]
    · refine ⟨hlocked', ?_⟩
      rcases h.2 with hreturned | ⟨hlock, hn⟩
      · exact .inl (hreturned.moves hmove)
      · exact (hmove.todo_le h.1 hlock hn).imp_right fun h => ⟨h.1, h.2.1⟩
  have hkeep (s : Client σ × ClientHistory) (op : ClientOp σ)
      (h : Locked s ∧ (Returned n s ∨ s.1.lock = some holder ∧ n ≤ s.2.given))
      (hreturned : Returned n s) : Returned n (clientStep E s op) := by
    obtain ⟨-, heq | hmove⟩ := clientStep_cases (E := E) h.1 op
    · rwa [heq]
    · exact hreturned.moves hmove
  have hle (s : Client σ × ClientHistory) (op : ClientOp σ)
      (h : Locked s ∧ (Returned n s ∨ s.1.lock = some holder ∧ n ≤ s.2.given))
      (hnot : ¬ Returned n (clientStep E s op)) :
      toReturn holder (clientStep E s op) ≤ toReturn holder s := by
    rcases h.2 with hreturned | ⟨hlock, hn⟩
    · exact absurd (hkeep s op h hreturned) hnot
    · obtain ⟨-, heq | hmove⟩ := clientStep_cases (E := E) h.1 op
      · rw [heq]
      · exact Nat.succ_le_succ ((hmove.todo_le h.1 hlock hn).resolve_left hnot).2.2
  have hdrop (s : Client σ × ClientHistory) (op : ClientOp σ)
      (h : Locked s ∧ (Returned n s ∨ s.1.lock = some holder ∧ n ≤ s.2.given))
      (hop : op.worksFor holder = true) (hnot : ¬ Returned n (clientStep E s op)) :
      toReturn holder (clientStep E s op) < toReturn holder s := by
    rcases h.2 with hreturned | ⟨hlock, hn⟩
    · exact absurd (hkeep s op h hreturned) hnot
    · have hrefused : s.2.refused = [] := by
        by_contra hrefused
        exact hnot (hkeep s op h (.inr hrefused))
      exact Nat.succ_lt_succ ((todo_lt h.1 hlock hn hrefused hop).resolve_left hnot)
  have hstart : Locked (clientRun E app slot ops) ∧ (Returned n (clientRun E app slot ops) ∨
      (clientRun E app slot ops).1.lock = some holder ∧ n ≤ (clientRun E app slot ops).2.given) :=
    ⟨clientRun_locked E app slot ops, .inr ⟨hlock, le_rfl⟩⟩
  rw [clientRun_append] at hrefused ⊢
  rcases Machine.run_rank_of_count (clientStep E) hinv hkeep hle hdrop hstart more with
    hreturned | hrank
  · exact hreturned.resolve_right (not_not.mpr hrefused)
  · rw [toReturn, toReturn] at hrank
    omega

theorem handler_returns_hello :
    (clientRun exampleClient 0 (fun _ => 0) [.event .connected, .ws exampleAnswers]).2.given <
      (clientRun exampleClient 0 (fun _ => 0) ([.event .connected, .ws exampleAnswers] ++
        [.ws exampleAnswers, .task exampleAnswers, .tx true, .ws exampleAnswers])).2.given :=
  handler_returns exampleClient 0 (fun _ => 0) .ws [.event .connected, .ws exampleAnswers]
    [.ws exampleAnswers, .task exampleAnswers, .tx true, .ws exampleAnswers]
    (by decide +kernel) (by decide +kernel) (by decide +kernel)

-- ════════════════════════════════════════════════════════════════════════
-- After a refusal
-- ════════════════════════════════════════════════════════════════════════

/-- One call of `on_alive` is left, unless the protocol task waits for the mutex. -/
def TaskPc.aliveLeft : TaskPc → ℕ
  | .locking _ _ _ => 0
  | _ => 1

/-- What stays as it was in `s` once an offer has been refused. -/
structure Blocked (s s' : Client σ × ClientHistory) : Prop where
  refused : s'.2.refused ≠ []
  session : s'.1.world.session = s.1.world.session
  taken : s'.2.taken = s.2.taken
  given : s'.2.given = s.2.given
  started : s'.2.started = s.2.started
  alive : s'.2.alive + s'.1.task.aliveLeft ≤ s.2.alive + s.1.task.aliveLeft
  recovering : s.1.recovering = true → s'.1.recovering = true

theorem Blocked.refl (h : s.2.refused ≠ []) : Blocked s s := ⟨h, rfl, rfl, rfl, rfl, le_rfl, id⟩

theorem Blocked.moves {s₀ : Client σ × ClientHistory} (hlocked : Locked s) (hmove : Moves E s s')
    (h : Blocked s₀ s) : Blocked s₀ s' := by
  obtain ⟨todo, hws, hnote⟩ := hlocked.refused.mp h.refused
  have hlock := hlocked.ws.mpr ⟨todo, hws⟩
  have htask := hlocked.not_both hws
  cases hmove with
  | event ev hpc => rw [hws] at hpc; cases hpc
  | wsEnter ev x hpc hfree => rw [hws] at hpc; cases hpc
  | wsAct hpc hact =>
    obtain ⟨hworld, -, -, htask', -, -, hrecovering, hhistory, hrefused⟩ := hact.frame
    refine ⟨?_, ?_, ?_, ?_, ?_, ?_, ?_⟩
    · exact fun hnil => h.refused (List.prefix_nil.mp (hnil ▸ hrefused))
    · rw [hworld, h.session]
    · rw [hhistory, ← h.taken]
    · rw [hhistory, ← h.given]
    · rw [hhistory, ← h.started]
    · rw [hhistory, htask']
      exact h.alive
    · rw [hrecovering]
      exact h.recovering
  | wsGive hpc =>
    rw [hws] at hpc
    cases hpc
    cases hnote
  | taskRunning up hpc hrun | taskEnds hpc hrun hwas | taskDelay hpc hrun | taskLost app hpc =>
    have halive := h.alive
    rw [hpc] at halive
    exact ⟨h.refused, h.session, h.taken, h.given, h.started, halive, h.recovering⟩
  | taskAlive up hbS repS app n hn hpc hne =>
    have halive := h.alive
    rw [hpc] at halive
    refine ⟨h.refused, h.session, h.taken, h.given, h.started, ?_, h.recovering⟩
    simp only [TaskPc.aliveLeft] at halive ⊢
    omega
  | taskStill up hbS repS hpc heq =>
    have halive := h.alive
    rw [hpc] at halive
    refine ⟨h.refused, h.session, h.taken, h.given, h.started, ?_, h.recovering⟩
    simp only [TaskPc.aliveLeft] at halive ⊢
    omega
  | taskEnter up lastHb lastRep x heartbeat report hpc hfree => rw [hlock] at hfree; cases hfree
  | taskAct hpc hact => exact absurd hpc (htask _)
  | taskGive hpc => exact absurd hpc (htask _)
  | otaNote i hfree => rw [hlock] at hfree; cases hfree
  | recovered hpc => rw [hws] at hpc; cases hpc
  | recover => exact ⟨h.refused, h.session, h.taken, h.given, h.started, h.alive, fun _ => rfl⟩
  | tx | otaTask | app | slowMode =>
    exact ⟨h.refused, h.session, h.taken, h.given, h.started, h.alive, h.recovering⟩

/-- **A refusal in `on_ws` is the end of the session**: once `ota_start` has refused an offer, the
    task of the WebSocket client keeps the mutex for ever. No handler takes or gives back the mutex
    any more, the session stays as it is, `on_alive` is called at most once, and a call of
    `fountain_proto_recover` does not return. -/
theorem refusal_keeps_lock (E : ClientConfig σ) (app : σ) (slot : Bytes.Mem)
    (ops more : List (ClientOp σ)) (hrefused : (clientRun E app slot ops).2.refused ≠ []) :
    let s := clientRun E app slot ops
    let s' := clientRun E app slot (ops ++ more)
    s'.1.lock = some .ws ∧ s'.1.world.session = s.1.world.session ∧ s'.2.taken = s.2.taken ∧
      s'.2.given = s.2.given ∧ s'.2.started = s.2.started ∧ s'.2.alive ≤ s.2.alive + 1 ∧
      (s.1.recovering = true → s'.1.recovering = true) := by
  intro s s'
  obtain ⟨hlocked, hblocked⟩ := client_invariant (E := E) (I := Blocked s)
    (fun _ _ hlocked hmove h => h.moves hlocked hmove) (clientRun_locked E app slot ops)
    (Blocked.refl hrefused) more
  rw [← clientRun_append] at hlocked hblocked
  obtain ⟨todo, hws, -⟩ := hlocked.refused.mp hblocked.refused
  have hleft : s.1.task.aliveLeft ≤ 1 := by cases s.1.task <;> simp [TaskPc.aliveLeft]
  exact ⟨hlocked.ws.mpr ⟨todo, hws⟩, hblocked.session, hblocked.taken, hblocked.given,
    hblocked.started, Nat.le_of_add_right_le (hblocked.alive.trans (Nat.add_le_add_left hleft _)),
    hblocked.recovering⟩

/-- A greeting, an offer that has no URL and a try to recover. -/
def refusedOfferOps : List (ClientOp ℕ) :=
  [.event .connected, .ws exampleAnswers, .ws exampleAnswers, .ws exampleAnswers,
    .event (.data helloAckText), .ws exampleAnswers, .ws exampleAnswers, .ws exampleAnswers,
    .event (.data offerText), .ws exampleAnswers, .ws exampleAnswers, .recover]

theorem refusal_keeps_lock_offer :
    let s := clientRun exampleClient 0 (fun _ => 0) refusedOfferOps
    let s' := clientRun exampleClient 0 (fun _ => 0)
      (refusedOfferOps ++ [.ws exampleAnswers, .task exampleAnswers, .recovered])
    s'.1.lock = some .ws ∧ s'.1.world.session = s.1.world.session ∧ s'.2.taken = s.2.taken ∧
      s'.2.given = s.2.given ∧ s'.2.started = s.2.started ∧ s'.2.alive ≤ s.2.alive + 1 ∧
      (s.1.recovering = true → s'.1.recovering = true) :=
  refusal_keeps_lock exampleClient 0 (fun _ => 0) refusedOfferOps
    [.ws exampleAnswers, .task exampleAnswers, .recovered] (by decide +kernel)

end Fountainer.Protocol
