import Fountainer.Pump.Start

/-!
# The demand event in IDLE

IDLE is meant to have no open event. The ticks close it on their ways from PRESSURE_DROP and
RECOVERING, and the acknowledge does; `pm_request_off` does not, nor does the way through LOCKOUT
from STARTING.
-/

namespace Fountainer.Pump

variable {F : Type*}

/-- No demand event is open. -/
structure Pm.Closed (s : Pm F) : Prop where
  start : s.eventStartMs = 0
  duration : s.m.eventDurationMs = 0
  demand : s.m.demand = .none

/-- The fields of the event, which decide whether it is open. -/
def Pm.event (s : Pm F) : UInt64 × UInt32 × PmDemand :=
  (s.eventStartMs, s.m.eventDurationMs, s.m.demand)

theorem closed_iff (s : Pm F) : s.Closed ↔ s.event = (0, 0, .none) := by
  constructor
  · rintro ⟨hstart, hduration, hdemand⟩
    simp [Pm.event, hstart, hduration, hdemand]
  · intro h
    simp only [Pm.event, Prod.mk.injEq] at h
    exact ⟨h.1, h.2.1, h.2.2⟩

theorem closed_congr {s r : Pm F} (h : s.event = r.event) : s.Closed ↔ r.Closed := by
  rw [closed_iff, closed_iff, h]

/-- The begin of the event, and the present pressure. -/
def Pm.eventStart (s : Pm F) : UInt64 × UInt32 × F × F :=
  (s.eventStartMs, s.m.eventDurationMs, s.m.eventStartBar, s.m.pressureFilteredBar)

theorem enterState_eventStart (s : Pm F) (new : PmState) (now : UInt64) :
    (enterState s new now).eventStart = s.eventStart := by
  unfold enterState
  split <;> rfl

theorem Pm.Closed.congr {s r : Pm F} (h : s.Closed) (hevent : r.event = s.event) : r.Closed :=
  (closed_congr hevent).mpr h

@[simp] theorem enterState_event (s : Pm F) (new : PmState) (now : UInt64) :
    (enterState s new now).event = s.event := by
  unfold enterState
  split <;> rfl

/-- The pause since the last stop is over. -/
def PauseOver (s : Pm F) (now : UInt64) : Prop :=
  s.pumpStopMs = 0 ∨ now - s.pumpStopMs ≥ s.cfg.minOffMs.toUInt64

theorem updateLockout_idle {s : Pm F} {now : UInt64} (hoff : s.relayOn = false)
    (hpause : PauseOver s now) : updateLockout s now = enterState s .idle now := by
  simp only [updateLockout, relayOff_eq s hoff]
  exact if_pos hpause

variable [FloatArith F]

theorem eventEnd_closed (s : Pm F) : (eventEnd s).Closed := ⟨rfl, rfl, rfl⟩

/-- The call that enters IDLE from a resting state without closing the event does so with the
    event closed: a request off, or a tick in LOCKOUT when the pause is over. -/
def EventGuard (s : Pm F) : PmCall F → Prop
  | .requestOff _ => s.state ≠ .fault → s.relayOn = false → s.Closed
  | .update _ sensorOk now =>
    s.state = .lockout → sensorOk = true → PauseOver s now → s.Closed
  | _ => True

/-- A demand that begins in IDLE begins a fresh event: it starts with this call, at the present
    pressure. -/
def BeginsFresh (s : Pm F) (c : PmCall F) : Prop :=
  s.state = .idle → (call s c).state = .pressureDrop ∨ (call s c).state = .running →
    c.time? = some (call s c).eventStartMs ∧ (call s c).m.eventDurationMs = 0 ∧
      (call s c).m.eventStartBar = (call s c).m.pressureFilteredBar

-- ════════════════════════════════════════════════════════════════════════
-- What a call does to the event
-- ════════════════════════════════════════════════════════════════════════

theorem filtersUpdate_event (s : Pm F) (bar : F) (now : UInt64) :
    (filtersUpdate s bar now).event = s.event := by
  unfold filtersUpdate
  split <;> rfl

/-- The metrics of an event neither open nor close it. -/
theorem eventUpdate_closed (s : Pm F) (now : UInt64) : (eventUpdate s now).Closed ↔ s.Closed := by
  unfold eventUpdate
  split
  · rfl
  next hopen =>
    refine iff_of_false (fun h => hopen ?_) (fun h => hopen h.start)
    have hstart := h.start
    dsimp only at hstart
    split at hstart <;> exact hstart

theorem metricsUpdate_event (s : Pm F) (now : UInt64) : (metricsUpdate s now).event = s.event := by
  unfold metricsUpdate
  dsimp only
  split <;> rfl

theorem metricsUpdate_eventStart (s : Pm F) (now : UInt64) :
    (metricsUpdate s now).eventStart = s.eventStart := by
  unfold metricsUpdate
  dsimp only
  split <;> rfl

theorem beginsFresh_of_eventStart {s : Pm F} {c : PmCall F} {now : UInt64} (p : F)
    (hnow : c.time? = some now) (h : (call s c).eventStart = (now, 0, p, p)) :
    c.time? = some (call s c).eventStartMs ∧ (call s c).m.eventDurationMs = 0 ∧
      (call s c).m.eventStartBar = (call s c).m.pressureFilteredBar := by
  simp only [Pm.eventStart, Prod.mk.injEq] at h
  obtain ⟨hstart, hduration, hbar, hp⟩ := h
  exact ⟨hnow.trans (congrArg some hstart.symm), hduration, hbar.trans hp.symm⟩

/-- The state of a tick when the switch is reached. -/
def tickInput (s : Pm F) (bar : F) (now : UInt64) : Pm F :=
  eventUpdate (filtersUpdate s bar now) now

theorem tickInput_control (s : Pm F) (bar : F) (now : UInt64) :
    (tickInput s bar now).control = s.control := by
  simp [tickInput]

theorem tickInput_closed (s : Pm F) (bar : F) (now : UInt64) :
    (tickInput s bar now).Closed ↔ s.Closed :=
  (eventUpdate_closed _ now).trans (closed_congr (filtersUpdate_event s bar now))

/-- A tick either latches a fault, or runs the switch on its input; the epilogue changes neither
    the control nor the event. -/
theorem pmUpdate_cases (s : Pm F) (bar : F) (sensorOk : Bool) (now : UInt64) :
    (pmUpdate s bar sensorOk now).state = .fault ∨
      (pmUpdate s bar sensorOk now).state = (stateUpdate (tickInput s bar now) sensorOk now).state ∧
        ((pmUpdate s bar sensorOk now).Closed ↔
          (stateUpdate (tickInput s bar now) sensorOk now).Closed) ∧
        protections (tickInput s bar now) sensorOk now = tickInput s bar now := by
  have hstate : (pmUpdate s bar sensorOk now).state =
      (stateUpdate (protections (tickInput s bar now) sensorOk now) sensorOk now).state :=
    congrArg Control.state (metricsUpdate_control _ now)
  rcases protections_cases (tickInput s bar now) sensorOk now with hp | ⟨-, r, f, -, -, hp⟩
  · refine .inr ⟨hp ▸ hstate, ?_, hp⟩
    exact (closed_congr (metricsUpdate_event _ now)).trans (by rw [← tickInput, hp])
  · rw [hp, stateUpdate_latchFault] at hstate
    exact .inl (hstate.trans (congrArg Control.state (latchFault_control r f now)))

/-- The switch enters or keeps IDLE with a closed event, unless the event is open there or on the
    way out of LOCKOUT. -/
theorem stateUpdate_idle (s : Pm F) (sensorOk : Bool) (now : UInt64)
    (hclosed : s.state = .init ∨ s.state = .idle → s.Closed)
    (hlock : s.state = .lockout → PauseOver s now → s.Closed)
    (h : (stateUpdate s sensorOk now).state = .idle ∨ (stateUpdate s sensorOk now).state = .init) :
    (stateUpdate s sensorOk now).Closed := by
  revert h
  unfold stateUpdate
  cases hs : s.state with
  | init =>
    intro _
    have hclosed' : ({ s with relayOn := false } : Pm F).Closed :=
      (hclosed (.inl hs)).congr rfl
    simp only [updateInit]
    split
    · exact hclosed'.congr (enterState_event _ _ _)
    · exact hclosed'
  | idle =>
    simp only [updateIdle]
    split
    · simp
    · exact fun _ => (hclosed (.inr hs)).congr rfl
  | pressureDrop =>
    simp only [updatePressureDrop]
    split_ifs
    · exact fun _ => (eventEnd_closed _).congr (enterState_event _ _ _)
    · exact fun _ => (eventEnd_closed _).congr (enterState_event _ _ _)
    · simp [latchFault]
    · simp
    · simp [hs]
  | starting =>
    simp only [updateStarting]
    split_ifs
    · simp [latchFault]
    · simp
    · simp
  | running =>
    simp only [updateRunning]
    split_ifs <;> simp [setDemand, hs]
  | recovering =>
    simp only [updateRecovering]
    split_ifs
    · simp
    · simp [hs]
  | lockout =>
    simp only [updateLockout]
    split_ifs with hpause
    · exact fun _ => (hlock hs hpause).congr (enterState_event _ _ _)
    · simp [hs]
  | fault => simp

/-- The states in which no event is open: IDLE, and INIT before it. -/
def Pm.IdleClosed (s : Pm F) : Prop := s.state = .idle ∨ s.state = .init → s.Closed

theorem pmUpdate_idleClosed {s : Pm F} (hs : s.IdleClosed) (bar : F) (sensorOk : Bool)
    (now : UInt64) (hG : EventGuard s (.update bar sensorOk now)) :
    (pmUpdate s bar sensorOk now).IdleClosed := by
  have hc := tickInput_control s bar now
  have hstate : (tickInput s bar now).state = s.state := congrArg Control.state hc
  intro h
  rcases pmUpdate_cases s bar sensorOk now with hfault | ⟨hst, hclosed, hpass⟩
  · simp [hfault] at h
  rw [hst] at h
  refine hclosed.mpr (stateUpdate_idle _ sensorOk now ?_ ?_ h)
  · rw [hstate, tickInput_closed]
    exact fun h => hs h.symm
  · rw [hstate, tickInput_closed]
    intro hlock hpause
    -- With a broken sensor the tick would have latched a fault.
    have hok : sensorOk = true := by
      by_contra hno
      have hlatch : (protections (tickInput s bar now) sensorOk now).state = .fault := by
        simp [protections, hstate, hlock, hno, latchFault]
      rw [hpass, hstate, hlock] at hlatch
      cases hlatch
    exact hG hlock hok ((iff_of_eq (congrArg (fun a : Control F =>
      a.pumpStopMs = 0 ∨ now - a.pumpStopMs ≥ a.cfg.minOffMs.toUInt64) hc)).mp hpause)

theorem call_idleClosed {s : Pm F} (h : s.control.Safe) (hs : s.IdleClosed) (c : PmCall F)
    (hG : EventGuard s c) : (call s c).IdleClosed := by
  cases c with
  | configSet cfg => exact fun h => (hs h).congr rfl
  | update bar sensorOk now => exact pmUpdate_idleClosed hs bar sensorOk now hG
  | requestOn d now =>
    simp only [call, pmRequestOn]
    split_ifs
    · exact hs
    · exact hs
    · exact hs
    · exact hs
    · simp [Pm.IdleClosed, manualRun]
  | requestOff now =>
    simp only [call, pmRequestOff]
    split_ifs with hfault hon
    · simp [Pm.IdleClosed, hfault]
    · have hrun : s.state = .running := h.relay_iff.mp hon
      simp [Pm.IdleClosed, hrun]
    · have hrun : s.state = .running := h.relay_iff.mp hon
      simp [Pm.IdleClosed, hrun]
    · intro _
      have hclosed : s.Closed := hG hfault (by simpa using hon)
      exact hclosed.congr (enterState_event _ _ _)
  | requestRestart now =>
    simp only [call, pmRequestRestart]
    split_ifs
    · exact hs
    · simp [Pm.IdleClosed]
    · exact hs
  | modeSet mode now =>
    simp only [call, pmModeSet]
    split_ifs
    · exact fun h => (hs h).congr rfl
    · exact fun h => (hs h).congr rfl
  | faultAck sensorOk now =>
    simp only [call, pmFaultAck]
    split_ifs
    · exact hs
    · exact fun _ => (eventEnd_closed _).congr (enterState_event _ _ _)
    · exact hs

/-- A call that breaks the guard enters IDLE with the event open. -/
theorem call_guard {s : Pm F} (h : s.control.Safe) (c : PmCall F)
    (hclosed : (call s c).state = .idle → (call s c).Closed) : EventGuard s c := by
  cases c with
  | requestOff now =>
    intro hfault hoff
    have hcall : call s (.requestOff now) = enterState { s with mode := .manual } .idle now := by
      simp [call, pmRequestOff, hfault, hoff]
    rw [hcall] at hclosed
    exact (hclosed (enterState_state _ _ _)).congr
      (enterState_event { s with mode := .manual } .idle now).symm
  | update bar sensorOk now =>
    intro hlock hok hpause
    subst hok
    have hc := tickInput_control s bar now
    have hstate : (tickInput s bar now).state = .lockout := (congrArg Control.state hc).trans hlock
    have hoff : (tickInput s bar now).relayOn = false :=
      (congrArg Control.relayOn hc).trans (h.off (by simp [Pm.control, hlock]))
    have hpass : protections (tickInput s bar now) true now = tickInput s bar now := by
      simp [protections, hstate, hoff]
    have hpause' : PauseOver (tickInput s bar now) now :=
      (iff_of_eq (congrArg (fun a : Control F =>
        a.pumpStopMs = 0 ∨ now - a.pumpStopMs ≥ a.cfg.minOffMs.toUInt64) hc)).mpr hpause
    have hswitch : stateUpdate (tickInput s bar now) true now
        = enterState (tickInput s bar now) .idle now := by
      rw [show stateUpdate (tickInput s bar now) true now =
        updateLockout (tickInput s bar now) now by
        simp only [stateUpdate, hstate]]
      exact updateLockout_idle hoff hpause'
    have hnext : (pmUpdate s bar true now).state = .idle :=
      (congrArg Control.state (metricsUpdate_control _ now)).trans (by
        rw [← tickInput, hpass, hswitch]
        exact enterState_state _ _ _)
    have hafter : (pmUpdate s bar true now).Closed ↔ s.Closed := by
      rw [← tickInput_closed s bar now]
      refine closed_congr ((metricsUpdate_event _ now).trans ?_)
      rw [← tickInput, hpass, hswitch, enterState_event]
    exact hafter.mp (hclosed hnext)
  | _ => trivial

/-- From IDLE without an open event every demand begins a fresh one. -/
theorem call_beginsFresh {s : Pm F} (hs : s.IdleClosed) (c : PmCall F) : BeginsFresh s c := by
  intro hidle hnew
  have hclosed := hs (.inl hidle)
  cases c with
  | configSet cfg =>
    change s.state = _ ∨ s.state = _ at hnew
    simp [hidle] at hnew
  | update bar sensorOk now =>
    have hc := tickInput_control s bar now
    have hstate : (tickInput s bar now).state = .idle := (congrArg Control.state hc).trans hidle
    rcases pmUpdate_cases s bar sensorOk now with hfault | ⟨hst, -, hpass⟩
    · change (pmUpdate s bar sensorOk now).state = _ ∨
        (pmUpdate s bar sensorOk now).state = _ at hnew
      simp [hfault] at hnew
    change (pmUpdate s bar sensorOk now).state = _ ∨ (pmUpdate s bar sensorOk now).state = _ at hnew
    rw [hst] at hnew
    have hbegin : stateUpdate (tickInput s bar now) sensorOk now = enterState (eventBegin
        { tickInput s bar now with relayOn := false } now) .pressureDrop now := by
      simp only [stateUpdate, hstate, updateIdle] at hnew ⊢
      split_ifs at hnew ⊢ with hlow
      · rfl
      · simp at hnew
    refine beginsFresh_of_eventStart (tickInput s bar now).m.pressureFilteredBar rfl ?_
    change (pmUpdate s bar sensorOk now).eventStart = _
    rw [pmUpdate, metricsUpdate_eventStart, ← tickInput, hpass, hbegin, enterState_eventStart]
    rfl
  | requestOn d now =>
    simp only [call, pmRequestOn] at hnew
    split_ifs at hnew with hstate hbar hpause hquota
    · simp [hidle] at hnew
    · simp [hidle] at hnew
    · simp [hidle] at hnew
    · simp [hidle] at hnew
    · refine beginsFresh_of_eventStart (c := .requestOn d now) s.m.pressureFilteredBar rfl ?_
      have hcall : call s (.requestOn d now) = manualRun s d now := by
        simp [call, pmRequestOn, hstate, hbar, hpause, hquota]
      rw [hcall, manualRun, enterState_eventStart]
      simp only [hclosed.start, if_true]
      split <;> rfl
  | requestOff now =>
    simp only [call, pmRequestOff] at hnew
    split_ifs at hnew <;> simp [hidle] at hnew
  | requestRestart now =>
    simp only [call, pmRequestRestart] at hnew
    split_ifs at hnew <;> simp [hidle] at hnew
  | modeSet mode now =>
    simp only [call, pmModeSet] at hnew
    split_ifs at hnew <;> simp [hidle] at hnew
  | faultAck sensorOk now =>
    simp only [call, pmFaultAck] at hnew
    split_ifs at hnew <;> simp [hidle] at hnew

-- ════════════════════════════════════════════════════════════════════════
-- Runs
-- ════════════════════════════════════════════════════════════════════════

/-- In every state of the run IDLE has no open event, and the demands that begin in IDLE begin
    fresh events. -/
def NoStaleEvent (cfg : PmConfig F) (calls : List (PmCall F)) : Prop :=
  (∀ i, (pmRun cfg (calls.take i)).state = .idle → (pmRun cfg (calls.take i)).Closed) ∧
    ∀ i c, calls[i]? = some c → BeginsFresh (pmRun cfg (calls.take i)) c

theorem pmInit_idleClosed (cfg : PmConfig F) : (pmInit cfg).IdleClosed := fun _ => ⟨rfl, rfl, rfl⟩

/-- **Events and IDLE.** IDLE has no open event in a run, and demands begin fresh there, if and
    only if the requests off outside RUNNING and FAULT, and the ticks that leave LOCKOUT, find the
    event closed. -/
theorem noStaleEvent_iff (cfg : PmConfig F) (calls : List (PmCall F)) :
    NoStaleEvent cfg calls ↔
      ∀ i c, calls[i]? = some c → EventGuard (pmRun cfg (calls.take i)) c := by
  constructor
  · intro h i c hc
    refine call_guard (pmRun_safe cfg _) c ?_
    have hidle := h.1 (i + 1)
    rwa [pmRun, Machine.run_take_succ call hc] at hidle
  · intro h
    have hinv (i : ℕ) : (pmRun cfg (calls.take i)).IdleClosed := by
      induction i with
      | zero => exact pmInit_idleClosed cfg
      | succ i ih =>
        cases hc : calls[i]? with
        | none => rwa [List.take_add_one, hc, Option.toList_none, List.append_nil]
        | some c =>
          rw [pmRun, Machine.run_take_succ call hc]
          exact call_idleClosed (pmRun_safe cfg _) ih c (h i c hc)
    exact ⟨fun i hidle => hinv i (.inl hidle), fun i c _ => call_beginsFresh (hinv i) c⟩

/-- A request off while a pressure drop is being confirmed. -/
def offInDrop : List (PmCall Float32) :=
  [.update 3.0 true 200, .modeSet .auto 200, .update 1.0 true 400, .requestOff 600]

/-- After `offInDrop` the state is IDLE, and the event of the drop is still open. -/
theorem offInDrop_stale :
    ¬ ∀ (cfg : PmConfig Float32) (calls : List (PmCall Float32)), NoStaleEvent cfg calls := by
  intro h
  have hclosed := (h plantConfig offInDrop).1 4 (by decide +kernel)
  exact absurd hclosed.start (by decide +kernel)

end Fountainer.Pump
