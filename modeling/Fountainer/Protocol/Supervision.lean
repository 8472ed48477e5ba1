import Fountainer.Protocol.SessionLock

/-!
# What the watchdog hears of the session

`task_fn` reports progress only after a frame has left the device, so a connection that is half open
falls silent although the session counts as running; and it reports the loss of a session at most
once for each time that the session has begun to run.
-/

namespace Fountainer.Protocol

variable {σ : Type*} {E : ClientConfig σ} {s s' : Client σ × ClientHistory}

-- ════════════════════════════════════════════════════════════════════════
-- Progress
-- ════════════════════════════════════════════════════════════════════════

theorem txRun_concat (ops : List TxOp) (op : TxOp) : txRun (ops ++ [op]) = txStep (txRun ops) op :=
  Machine.run_concat _ _ _ _

/-- A call of `on_alive` is due: the counter has moved since the last look. -/
def aliveDue (txOk lastTxOk : UInt32) : ℕ := if txOk ≠ lastTxOk then 1 else 0

theorem aliveDue_le (txOk lastTxOk : UInt32) : aliveDue txOk lastTxOk ≤ 1 := by
  rw [aliveDue]
  split_ifs <;> omega

/-- Along a run from `s₀` every call of `on_alive` is for a frame of its own, but for the one that
    was due at the start. -/
def Fed (s₀ s : Client σ × ClientHistory) : Prop :=
  s.2.alive + aliveDue s.1.tx.txOk s.1.lastTxOk + s₀.1.tx.oks ≤
    s₀.2.alive + aliveDue s₀.1.tx.txOk s₀.1.lastTxOk + s.1.tx.oks

/-- A step of the transmit path counts a frame that has left, or leaves the counter. -/
theorem txStep_oks (t : TxPath) (op : TxOp) :
    (txStep t op).oks = t.oks + 1 ∨ (txStep t op).oks = t.oks ∧ (txStep t op).txOk = t.txOk := by
  cases op with
  | enqueue json expired =>
    refine .inr ?_
    rw [txStep]
    rcases txEnqueueOwned_cases t json expired with ⟨h, -⟩ | h | ⟨j, ⟨txq, -, h⟩ | h⟩ <;>
      rw [h] <;> exact ⟨rfl, rfl⟩
  | tx sent =>
    rw [txStep, txTaskStep]
    cases t.json with
    | none =>
      cases t.txq.receive with
      | none => exact .inr ⟨rfl, rfl⟩
      | some p => exact .inr ⟨rfl, rfl⟩
    | some f =>
      cases sent with
      | true => exact .inl (by simp [TxPath.oks])
      | false => exact .inr ⟨by simp [TxPath.oks], rfl⟩

theorem Fed.tx {s₀ : Client σ × ClientHistory} (h : Fed s₀ s) (op : TxOp) :
    Fed s₀ ({ s.1 with tx := txStep s.1.tx op }, s.2) := by
  unfold Fed at h ⊢
  rcases txStep_oks s.1.tx op with hsent | ⟨hoks, htxOk⟩
  · have hle := aliveDue_le (txStep s.1.tx op).txOk s.1.lastTxOk
    simp only [hsent]
    omega
  · simp only [hoks, htxOk]
    exact h

/-- An action of a handler reaches the transmit path by a step of a sender only. -/
theorem Acts.tx {c c' : Client σ} {h h' : ClientHistory} {todo todo' : List HandlerAct}
    {a : HandlerAct} (hact : Acts E c h todo a c' h' todo') :
    c'.tx = c.tx ∨ ∃ op, c'.tx = txStep c.tx op := by
  cases hact with
  | sent json expired htx => exact .inr ⟨.enqueue json expired, by simp [txStep, htx]⟩
  | _ => exact .inl rfl

/-- The tasks of the client are senders of its transmit path. -/
theorem clientRun_tx (E : ClientConfig σ) (app : σ) (slot : Bytes.Mem) (ops : List (ClientOp σ)) :
    ∃ txOps, (clientRun E app slot ops).1.tx = txRun txOps := by
  refine (client_invariant (I := fun s => ∃ txOps, s.1.tx = txRun txOps) ?_ (locked_boot app slot)
    ⟨[], rfl⟩ ops).2
  rintro s s' - hmove ⟨txOps, htx⟩
  cases hmove with
  | wsAct hpc hact | taskAct hpc hact =>
    rcases hact.tx with hsame | ⟨op, hop⟩
    · exact ⟨txOps, hsame.trans htx⟩
    · exact ⟨txOps ++ [op], by rw [txRun_concat, ← htx, ← hop]⟩
  | tx op => exact ⟨txOps ++ [op], by rw [txRun_concat, ← htx]⟩
  | _ => exact ⟨txOps, htx⟩

theorem Fed.acts {s₀ : Client σ × ClientHistory} {c : Client σ} {h : ClientHistory}
    {todo todo' : List HandlerAct} {a : HandlerAct} (hfed : Fed s₀ s)
    (hact : Acts E s.1 s.2 todo a c h todo') : Fed s₀ (c, h) := by
  have hframe := hact.frame
  have hcount : h.alive = s.2.alive := by rw [hframe.history]
  unfold Fed
  rcases hact.tx with hsame | ⟨op, hop⟩
  · simp only [hframe.lastTxOk, hcount, hsame]
    exact hfed
  · simp only [hframe.lastTxOk, hcount, hop]
    exact hfed.tx op

theorem Fed.moves {s₀ : Client σ × ClientHistory} (hmove : Moves E s s') (h : Fed s₀ s) :
    Fed s₀ s' := by
  cases hmove with
  | wsAct hpc hact | taskAct hpc hact =>
    have hfed := h.acts hact
    exact hfed
  | taskAlive up hbS repS app n hn hpc hne =>
    have hdue : aliveDue s.1.tx.txOk s.1.lastTxOk = 1 := if_pos hne
    have hpaid : aliveDue s.1.tx.txOk s.1.tx.txOk = 0 := if_neg (not_not.mpr rfl)
    unfold Fed at h ⊢
    simp only [hpaid]
    omega
  | tx op => exact h.tx op
  | _ => exact h

/-- **Progress is a frame that has left**: `on_alive` is called at most once for each frame that
    `fp_ws_send` has sent, in every run; and in a stretch of a run in which nothing can be sent it
    is called at most once, whatever the session and the other tasks do. -/
theorem alive_needs_sends (E : ClientConfig σ) (app : σ) (slot : Bytes.Mem)
    (ops more : List (ClientOp σ)) :
    let s := clientRun E app slot ops
    let s' := clientRun E app slot (ops ++ more)
    s.2.alive ≤ s.1.tx.oks ∧ s'.2.alive + s.1.tx.oks ≤ s.2.alive + 1 + s'.1.tx.oks := by
  intro s s'
  have hfrom {s₀ : Client σ × ClientHistory} (hlocked : Locked s₀) (ops : List (ClientOp σ)) :
      Fed s₀ (Machine.run (clientStep E) s₀ ops) :=
    (client_invariant (I := Fed s₀) (fun _ _ _ hmove h => h.moves hmove) hlocked le_rfl ops).2
  have hstart : Fed (clientBoot app slot) s := hfrom (locked_boot app slot) ops
  have hmore : Fed s s' := by
    have := hfrom (clientRun_locked E app slot ops) more
    rwa [← clientRun_append] at this
  refine ⟨?_, ?_⟩
  · have hle : s.2.alive + aliveDue s.1.tx.txOk s.1.lastTxOk ≤ s.1.tx.oks := by
      simpa [Fed, clientBoot, aliveDue, txBoot, TxPath.oks] using hstart
    exact Nat.le_of_add_right_le hle
  · have hdue := aliveDue_le s.1.tx.txOk s.1.lastTxOk
    unfold Fed at hmore
    omega

-- ════════════════════════════════════════════════════════════════════════
-- Losses
-- ════════════════════════════════════════════════════════════════════════

/-- The protocol task is about to report a loss. -/
def TaskPc.losing : TaskPc → Bool
  | .lost => true
  | _ => false

/-- The beginnings of the session whose losses are still to be reported: the one that the protocol
    task has seen, and one that it has not seen or that came before its report. -/
def unreported (running wasRunning losing : Bool) : ℕ :=
  (if wasRunning then 1 else 0) + (if running && (!wasRunning || losing) then 1 else 0)

/-- Each report of a loss is for another beginning. -/
structure Reported (s : Client σ × ClientHistory) : Prop where
  losing : s.1.task.losing = true → s.1.wasRunning = true
  count : s.2.lost + unreported s.1.world.session.running s.1.wasRunning s.1.task.losing ≤
    s.2.started

/-- A task that is not about to report a loss has only the count to keep. -/
theorem Reported.of_count {s : Client σ × ClientHistory} (htask : s.1.task.losing = false)
    (hcount : s.2.lost + unreported s.1.world.session.running s.1.wasRunning s.1.task.losing ≤
      s.2.started) : Reported s :=
  ⟨fun hlosing => absurd (htask.symm.trans hlosing) Bool.false_ne_true, hcount⟩

theorem unreported_begins (before after : FpSession) (wasRunning losing : Bool) :
    unreported after.running wasRunning losing ≤
      unreported before.running wasRunning losing + begins before after := by
  rw [begins]
  generalize before.running = r
  generalize after.running = r'
  revert r r' wasRunning losing
  decide

theorem taskSection_running (x : StepAnswers) (w : FpWorld σ) (heartbeat report : Bool)
    (up : UInt32) :
    (taskSection E x w heartbeat report up).session.running = w.session.running := by
  have hbeat : (if heartbeat then fpSessionHeartbeatSend E x.now w up else w).session.running =
      w.session.running := by
    rw [fpSessionHeartbeatSend]
    split_ifs <;> rfl
  unfold taskSection
  cases report with
  | false =>
    rw [← hbeat, if_neg Bool.false_ne_true, fpSessionDpChangesSend]
    cases E.fillChanges with
    | none => rfl
    | some f =>
      dsimp only
      split_ifs <;> rfl
  | true =>
    rw [← hbeat, if_pos rfl, dpReportSendNames]
    cases E.callbacks.fillSnapshot <;> rfl

theorem Reported.moves (hmove : Moves E s s') (h : Reported s) : Reported s' := by
  have hcount := h.count
  cases hmove with
  | wsEnter ev x hpc hlock =>
    refine ⟨h.losing, ?_⟩
    have hbegins := unreported_begins s.1.world.session (onWs E x s.1.world ev).session
      s.1.wasRunning s.1.task.losing
    simp only [Client.enter]
    omega
  | otaNote i hlock =>
    refine ⟨h.losing, ?_⟩
    have hbegins := unreported_begins s.1.world.session
      (fountainProtoOtaFailedNote E.callbacks s.1.world).session s.1.wasRunning s.1.task.losing
    simp only
    omega
  | wsAct hpc hact =>
    have hframe := hact.frame
    refine ⟨?_, ?_⟩
    · simp only [hframe.task, hframe.wasRunning]
      exact h.losing
    · simp only [hframe.task, hframe.wasRunning, hframe.world]
      rw [hframe.history]
      exact hcount
  | taskAct hpc hact =>
    have hframe := hact.frame
    rw [hpc] at hcount
    refine .of_count rfl ?_
    simp only [hframe.wasRunning, hframe.world]
    rw [hframe.history]
    exact hcount
  | taskRunning up hpc hrun =>
    rw [hpc, hrun] at hcount
    refine .of_count rfl ?_
    simp only [hrun]
    revert hcount
    cases s.1.wasRunning <;> exact id
  | taskEnds hpc hrun hwas =>
    rw [hrun, hwas] at hcount
    refine ⟨fun _ => hwas, ?_⟩
    simp only [hrun, hwas]
    refine le_trans (Nat.add_le_add_left ?_ _) hcount
    cases s.1.task.losing <;> decide
  | taskDelay hpc hrun =>
    rw [hrun] at hcount
    refine .of_count rfl ?_
    simp only [hrun]
    exact le_trans (Nat.add_le_add_left (Nat.zero_le _) _) hcount
  | taskLost app hpc =>
    have hwas := h.losing (by rw [hpc]; rfl)
    rw [hpc, hwas] at hcount
    refine .of_count rfl ?_
    simp only
    cases hrun : s.1.world.session.running with
    | false => simpa [hrun, unreported, TaskPc.losing] using hcount
    | true =>
      simp only [hrun, unreported, TaskPc.losing] at hcount ⊢
      simp at hcount ⊢
      omega
  | taskAlive up hbS repS app n hn hpc hne =>
    rw [hpc] at hcount
    exact .of_count rfl hcount
  | taskStill up hbS repS hpc heq =>
    rw [hpc] at hcount
    exact .of_count rfl hcount
  | taskEnter up lastHb lastRep x heartbeat report hpc hlock =>
    rw [hpc] at hcount
    refine .of_count rfl ?_
    simp only [Client.enter, taskSection_running]
    exact hcount
  | taskGive hpc =>
    rw [hpc] at hcount
    exact .of_count rfl hcount
  | event | wsGive | tx | otaTask | app | slowMode | recover | recovered =>
    exact ⟨h.losing, hcount⟩

/-- **Every loss has its beginning**: `on_session_lost` is called at most once for each time that
    the session has begun to run, and less often while it runs. -/
theorem losses_have_beginnings (E : ClientConfig σ) (app : σ) (slot : Bytes.Mem)
    (ops : List (ClientOp σ)) :
    let s := clientRun E app slot ops
    s.2.lost ≤ s.2.started ∧ (s.1.world.session.running = true → s.2.lost < s.2.started) := by
  intro s
  have h : Reported s := (client_invariant (I := Reported) (fun _ _ _ hmove h => h.moves hmove)
    (locked_boot app slot) ⟨nofun, le_rfl⟩ ops).2
  refine ⟨Nat.le_of_add_right_le h.count, fun hrun => ?_⟩
  have hcount := h.count
  rw [hrun] at hcount
  have hleft : 0 < unreported true s.1.wasRunning s.1.task.losing := by
    cases s.1.wasRunning <;> simp [unreported]
  omega

end Fountainer.Protocol
