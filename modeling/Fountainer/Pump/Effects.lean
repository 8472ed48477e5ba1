import Fountainer.Lib.OverwriteRing
import Fountainer.Pump.Manager

/-!
# What one call can do to the pump

The fields that decide about the relay, without the metrics, are the `Control`
of a state. The filters, the event metrics and the metrics epilogue leave it
alone; what is left of a call does one of six things: it keeps the pump as it
is, starts it, stops it, latches a fault, releases one, or changes the
configuration (`Effect`). Results about runs are derived from `call_effect`,
not from the code of the calls.
-/

namespace Fountainer.Pump

variable {F : Type*}

/-- The part of the state that decides about the relay. -/
structure Control (F : Type*) where
  cfg : PmConfig F
  state : PmState
  mode : PmMode
  fault : PmFault
  relayOn : Bool
  pumpStartMs : UInt64
  pumpStopMs : UInt64
  manualUntilMs : UInt64
  startBar : F
  startsMs : Fin pmStartHistory → UInt64
  startsIdx : Fin pmStartHistory

def Pm.control (s : Pm F) : Control F where
  cfg := s.cfg
  state := s.state
  mode := s.mode
  fault := s.fault
  relayOn := s.relayOn
  pumpStartMs := s.pumpStartMs
  pumpStopMs := s.pumpStopMs
  manualUntilMs := s.manualUntilMs
  startBar := s.startBar
  startsMs := s.startsMs
  startsIdx := s.startsIdx

/-- The relay is on exactly in RUNNING, and a fault is recorded exactly in FAULT. -/
structure Control.Safe (a : Control F) : Prop where
  relay_iff : a.relayOn = true ↔ a.state = .running
  fault_iff : a.state = .fault ↔ a.fault ≠ .none

/-- The states in which the pump is off without a fault. -/
def PmState.Resting (st : PmState) : Prop := st ≠ .running ∧ st ≠ .fault

instance (st : PmState) : Decidable st.Resting := inferInstanceAs (Decidable (_ ∧ _))

/-- The entries of the start ring that fall into the last hour. -/
def startsInHour (ring : Fin pmStartHistory → UInt64) (now : UInt64) : UInt8 :=
  (List.finRange pmStartHistory).foldl
    (fun n i => if startCounts now (ring i) then n + 1 else n) 0

/-- The counter of the hourly guard counts the ring entries of the last hour. -/
theorem startsInHour_toNat (ring : Fin pmStartHistory → UInt64) (now : UInt64) :
    (startsInHour ring now).toNat =
      (List.finRange pmStartHistory).countP (fun i => startCounts now (ring i)) := by
  have h := OverwriteRing.foldl_count_toNat (fun i => startCounts now (ring i))
    (List.finRange pmStartHistory) 0 (by decide)
  simpa [startsInHour] using h

theorem startsInHour_le (ring : Fin pmStartHistory → UInt64) (now : UInt64) :
    (startsInHour ring now).toNat ≤ pmStartHistory := by
  rw [startsInHour_toNat]
  exact List.countP_le_length.trans (by simp)

/-- Run time of a pump started at `start`. -/
def runTime (start now : UInt64) : UInt64 := if now > start then now - start else 0

/-- The calls that take the state out of INIT without a fault. -/
def PmCall.LeavesInit (c : PmCall F) : Prop :=
  (∃ bar now, c = .update bar true now) ∨ ∃ now, c = .requestOff now

/-- What the call `c` may do to the control `a`. -/
inductive Effect (a : Control F) (c : PmCall F) : Control F → Prop
  | stay (st : PmState) (md : PmMode) (deadline : UInt64)
      (hstate : st = a.state ∨ a.state.Resting ∧ st.Resting)
      (hstarting : st = .starting → a.state = .starting ∨ a.mode = .auto ∧ md = .auto)
      (hmode : md = a.mode ∨ md = .manual ∧ st ≠ .starting ∨ ∃ now, c = .modeSet md now)
      (hinit : a.state = .init → st = .init ∨ c.LeavesInit) :
      Effect a c { a with state := st, mode := md, manualUntilMs := deadline }
  | start (now : UInt64) (md : PmMode) (deadline : UInt64) (bar : F)
      (htime : c.time? = some now) (hoff : a.relayOn = false) (hrest : a.state.Resting)
      (hinit : a.state ≠ .init)
      (hcause : a.state = .starting ∨ ∃ d, c = .requestOn d now)
      (hpause : a.pumpStopMs = 0 ∨ now - a.pumpStopMs ≥ a.cfg.minOffMs.toUInt64)
      (hquota : startsInHour a.startsMs now < a.cfg.maxStartsPerHour) :
      Effect a c { a with
        state := .running
        mode := md
        relayOn := true
        manualUntilMs := deadline
        pumpStartMs := now
        startBar := bar
        startsMs := Function.update a.startsMs a.startsIdx now
        startsIdx := a.startsIdx + 1 }
  | stop (now : UInt64) (htime : c.time? = some now) (hon : a.relayOn = true)
      (hrun : runTime a.pumpStartMs now ≥ a.cfg.minOnMs.toUInt64 ∨ c = .requestRestart now) :
      Effect a c { a with
        state := .recovering
        relayOn := false
        pumpStopMs := now
        manualUntilMs := 0 }
  | latch (now : UInt64) (f : PmFault) (htime : c.time? = some now)
      (hstate : a.state ≠ .fault) (hfault : f ≠ .none) :
      Effect a c { a with
        state := .fault
        fault := f
        relayOn := false
        pumpStopMs :=
          if a.relayOn ∨ a.pumpStartMs > a.pumpStopMs then now else a.pumpStopMs }
  | ack (now : UInt64) (hcall : c = .faultAck true now) (hstate : a.state = .fault) :
      Effect a c { a with state := .idle, fault := .none }
  | config (cfg : PmConfig F) (hcall : c = .configSet cfg) :
      Effect a c { a with cfg := cfg }

theorem Effect.of_eq {a b b' : Control F} {c : PmCall F} (h : b = b') (he : Effect a c b') :
    Effect a c b := h ▸ he

/-- Nothing changes. -/
theorem Effect.refl (a : Control F) (c : PmCall F) : Effect a c a :=
  .stay a.state a.mode a.manualUntilMs (.inl rfl) .inl (.inl rfl) .inl

/-- Moving between two states in which the pump is off. -/
theorem Effect.move {a : Control F} {c : PmCall F} (st : PmState) (ha : a.state.Resting)
    (hst : st.Resting) (hstarting : st = .starting → a.state = .starting ∨ a.mode = .auto)
    (hinit : a.state = .init → c.LeavesInit) : Effect a c { a with state := st } :=
  .stay st a.mode a.manualUntilMs (.inr ⟨ha, hst⟩)
    (fun h => (hstarting h).imp_right (fun ha => ⟨ha, ha⟩)) (.inl rfl) (fun h => .inr (hinit h))

/-- In a safe state the relay is off outside RUNNING. -/
theorem Control.Safe.off {a : Control F} (h : a.Safe) (hs : a.state ≠ .running) :
    a.relayOn = false := by
  rw [← Bool.not_eq_true, h.relay_iff]
  exact hs

theorem enterState_control (s : Pm F) (new : PmState) (now : UInt64) :
    (enterState s new now).control = { s.control with state := new } := by
  unfold enterState
  split
  · rename_i h
    subst h
    rfl
  · rfl

@[simp] theorem enterState_state (s : Pm F) (new : PmState) (now : UInt64) :
    (enterState s new now).state = new :=
  congrArg Control.state (enterState_control s new now)

theorem latchFault_control (s : Pm F) (f : PmFault) (now : UInt64) :
    (latchFault s f now).control = { s.control with
      state := .fault
      fault := f
      relayOn := false
      pumpStopMs := if s.relayOn ∨ s.pumpStartMs > s.pumpStopMs then now else s.pumpStopMs } := by
  simp only [latchFault, enterState_control]
  rfl

theorem latchFault_relayOn (s : Pm F) (f : PmFault) (now : UInt64) :
    (latchFault s f now).relayOn = false :=
  congrArg Control.relayOn (latchFault_control s f now)

/-- Latching from a state with the control `a`. -/
theorem latchFault_effect {a : Control F} {c : PmCall F} {now : UInt64} {f : PmFault}
    (htime : c.time? = some now) (ha : a.state ≠ .fault) (hf : f ≠ .none) (s : Pm F)
    (hs : s.control = a) : Effect a c (latchFault s f now).control := by
  rw [latchFault_control]
  subst hs
  exact .latch now f htime ha hf

/-- Writing `false` to a relay that is off changes nothing. -/
theorem relayOff_eq (s : Pm F) (h : s.relayOn = false) : { s with relayOn := false } = s := by
  cases s
  simp_all

theorem relayOn_eq (s : Pm F) (h : s.relayOn = true) : { s with relayOn := true } = s := by
  cases s
  simp_all

@[simp] theorem setDemand_control (s : Pm F) (demand : PmDemand) :
    (setDemand s demand).control = s.control := rfl

section Frame

variable [FloatArith F]

@[simp] theorem filtersUpdate_control (s : Pm F) (bar : F) (now : UInt64) :
    (filtersUpdate s bar now).control = s.control := by
  unfold filtersUpdate
  split <;> rfl

@[simp] theorem eventUpdate_control (s : Pm F) (now : UInt64) :
    (eventUpdate s now).control = s.control := by
  unfold eventUpdate
  split
  · rfl
  · dsimp only
    split <;> rfl

@[simp] theorem metricsUpdate_control (s : Pm F) (now : UInt64) :
    (metricsUpdate s now).control = s.control := by
  unfold metricsUpdate
  dsimp only
  split <;> rfl

@[simp] theorem metricsUpdate_filtered (s : Pm F) (now : UInt64) :
    (metricsUpdate s now).m.pressureFilteredBar = s.m.pressureFilteredBar := by
  unfold metricsUpdate
  dsimp only
  split <;> rfl

@[simp] theorem eventBegin_control (s : Pm F) (now : UInt64) :
    (eventBegin s now).control = s.control := rfl

@[simp] theorem eventEnd_control (s : Pm F) : (eventEnd s).control = s.control := rfl

/-- In FAULT the switch only repeats the relay write. -/
theorem stateUpdate_latchFault (s : Pm F) (f : PmFault) (sensorOk : Bool) (now : UInt64) :
    stateUpdate (latchFault s f now) sensorOk now = latchFault s f now := by
  have hc := latchFault_control s f now
  have hst : (latchFault s f now).state = .fault := congrArg Control.state hc
  simp only [stateUpdate, hst]
  rw [← hst]
  exact relayOff_eq _ (latchFault_relayOn s f now)

/-- The protections either let the state pass or latch a fault. -/
theorem protections_cases (s : Pm F) (sensorOk : Bool) (now : UInt64) :
    protections s sensorOk now = s ∨
      s.state ≠ .fault ∧ ∃ r f, r.control = s.control ∧ f ≠ .none ∧
        protections s sensorOk now = latchFault r f now := by
  unfold protections
  by_cases hf : s.state = .fault
  · exact .inl (by simp [hf])
  · simp only [hf, if_false]
    split_ifs
    · exact .inr ⟨hf, setDemand s .pipeBreak, .criticalLow, rfl, by decide, rfl⟩
    · exact .inr ⟨hf, s, .maxRuntime, rfl, by decide, rfl⟩
    · exact .inr ⟨hf, s, .dryRun, rfl, by decide, rfl⟩
    · exact .inl rfl
    · exact .inl rfl
    · exact .inr ⟨hf, setDemand s .sensorFault, .sensor, rfl, by decide, rfl⟩

end Frame

-- ════════════════════════════════════════════════════════════════════════
-- The state switch, case by case
-- ════════════════════════════════════════════════════════════════════════

section Switch

variable {s : Pm F} {c : PmCall F} {now : UInt64}

theorem updateInit_effect (hoff : s.relayOn = false) (hs : s.control.state = .init)
    (sensorOk : Bool) (hc : sensorOk = true → c.LeavesInit) :
    Effect s.control c (updateInit s sensorOk now).control := by
  simp only [updateInit, relayOff_eq s hoff]
  split
  · rename_i hok
    rw [enterState_control]
    exact .move .idle (by rw [hs]; decide) (by decide) (by simp) (fun _ => hc hok)
  · exact .refl _ _

theorem updateIdle_effect [FloatArith F] (hoff : s.relayOn = false)
    (hs : s.control.state = .idle) : Effect s.control c (updateIdle s now).control := by
  simp only [updateIdle, relayOff_eq s hoff]
  split
  · rw [enterState_control, eventBegin_control]
    exact .move .pressureDrop (by rw [hs]; decide) (by decide) (by simp) (by simp [hs])
  · exact .refl _ _

theorem updatePressureDrop_effect [FloatArith F] (htime : c.time? = some now)
    (hoff : s.relayOn = false) (hs : s.control.state = .pressureDrop) :
    Effect s.control c (updatePressureDrop s now).control := by
  have hrest : s.control.state.Resting := by rw [hs]; decide
  simp only [updatePressureDrop, relayOff_eq s hoff]
  split_ifs with hauto
  · rw [enterState_control, eventEnd_control]
    exact .move .idle hrest (by decide) (by simp) (by simp [hs])
  · rw [enterState_control, eventEnd_control]
    exact .move .idle hrest (by decide) (by simp) (by simp [hs])
  · exact latchFault_effect htime hrest.2 (by decide) _ rfl
  · -- STARTING is entered from a confirmed drop, and only in AUTO.
    rw [enterState_control, setDemand_control]
    exact .move .starting hrest (by decide) (fun _ => .inr (not_not.mp hauto)) (by simp [hs])
  · exact .refl _ _

theorem updateStarting_effect (htime : c.time? = some now) (hoff : s.relayOn = false)
    (hs : s.control.state = .starting) : Effect s.control c (updateStarting s now).control := by
  have hrest : s.control.state.Resting := by rw [hs]; decide
  simp only [updateStarting]
  split_ifs with hquota hpause
  · exact latchFault_effect htime hrest.2 (by decide) s rfl
  · rw [enterState_control]
    exact .start now s.mode s.manualUntilMs s.m.pressureFilteredBar htime hoff hrest
      (by simp [hs]) (.inl hs) hpause (UInt8.not_le.mp hquota)
  · rw [enterState_control]
    exact .move .lockout hrest (by decide) (by simp) (by simp [hs])

theorem updateRunning_effect [FloatArith F] (htime : c.time? = some now) (hon : s.relayOn = true) :
    Effect s.control c (updateRunning s now).control := by
  simp only [updateRunning, relayOn_eq s hon]
  split_ifs with hauto hoff hoff
  · rw [enterState_control]
    exact .stop now htime hon (.inl hoff.2)
  · exact .refl _ _
  · rw [enterState_control]
    exact .stop now htime hon (.inl hoff.2.2)
  · exact .refl _ _

theorem updateRecovering_effect [FloatArith F] (hoff : s.relayOn = false)
    (hs : s.control.state = .recovering) :
    Effect s.control c (updateRecovering s now).control := by
  simp only [updateRecovering, relayOff_eq s hoff]
  split
  · rw [enterState_control, eventEnd_control]
    exact .move .lockout (by rw [hs]; decide) (by decide) (by simp) (by simp [hs])
  · exact .refl _ _

theorem updateLockout_effect (hoff : s.relayOn = false) (hs : s.control.state = .lockout) :
    Effect s.control c (updateLockout s now).control := by
  simp only [updateLockout, relayOff_eq s hoff]
  split
  · rw [enterState_control]
    exact .move .idle (by rw [hs]; decide) (by decide) (by simp) (by simp [hs])
  · exact .refl _ _

theorem stateUpdate_effect [FloatArith F] (h : s.control.Safe) (htime : c.time? = some now)
    (sensorOk : Bool) (hc : sensorOk = true → c.LeavesInit) :
    Effect s.control c (stateUpdate s sensorOk now).control := by
  have hoff : s.control.state ≠ .running → s.relayOn = false := fun hs => h.off hs
  unfold stateUpdate
  cases hs : s.state with
  | init => exact updateInit_effect (hoff (by simp [Pm.control, hs])) hs sensorOk hc
  | idle => exact updateIdle_effect (hoff (by simp [Pm.control, hs])) hs
  | pressureDrop =>
    exact updatePressureDrop_effect htime (hoff (by simp [Pm.control, hs])) hs
  | starting => exact updateStarting_effect htime (hoff (by simp [Pm.control, hs])) hs
  | running => exact updateRunning_effect htime (h.relay_iff.mpr hs)
  | recovering => exact updateRecovering_effect (hoff (by simp [Pm.control, hs])) hs
  | lockout => exact updateLockout_effect (hoff (by simp [Pm.control, hs])) hs
  | fault =>
    have hrel : s.relayOn = false := hoff (by simp [Pm.control, hs])
    exact .of_eq (by simp [Pm.control, hs, hrel]) (.refl _ _)

end Switch

theorem pmRequestOff_effect (s : Pm F) (h : s.control.Safe) (now : UInt64) :
    Effect s.control (.requestOff now) (pmRequestOff s now).2.control := by
  simp only [pmRequestOff]
  by_cases hfault : s.state = .fault
  · rw [if_pos hfault]
    exact .stay s.state .manual s.manualUntilMs (.inl rfl) .inl
      (.inr (.inl ⟨rfl, by simp [hfault]⟩)) .inl
  · rw [if_neg hfault]
    by_cases hon : s.relayOn = true
    · have hrun : s.state = .running := h.relay_iff.mp hon
      rw [if_pos hon]
      exact .stay s.state .manual _ (.inl rfl) .inl (.inr (.inl ⟨rfl, by simp [hrun]⟩)) .inl
    · rw [if_neg hon, enterState_control]
      have hrest : s.control.state.Resting := ⟨fun hr => hon (h.relay_iff.mpr hr), hfault⟩
      -- The state becomes IDLE whatever it was, INIT included.
      exact .stay .idle .manual s.manualUntilMs (.inr ⟨hrest, by decide⟩) (by simp)
        (.inr (.inl ⟨rfl, by decide⟩)) (fun _ => .inr (.inr ⟨now, rfl⟩))

theorem pmRequestRestart_effect (s : Pm F) (now : UInt64) :
    Effect s.control (.requestRestart now) (pmRequestRestart s now).2.control := by
  unfold pmRequestRestart
  split_ifs with hfault hon
  · exact .refl _ _
  · rw [enterState_control]
    exact .stop now rfl hon (.inr rfl)
  · exact .refl _ _

theorem pmModeSet_effect (s : Pm F) (mode : PmMode) (now : UInt64) :
    Effect s.control (.modeSet mode now) (pmModeSet s mode now).2.control := by
  unfold pmModeSet
  dsimp only
  split_ifs
  · exact .stay s.state mode 0 (.inl rfl) .inl (.inr (.inr ⟨now, rfl⟩)) .inl
  · exact .stay s.state mode _ (.inl rfl) .inl (.inr (.inr ⟨now, rfl⟩)) .inl

section Calls

variable [FloatArith F]

theorem pmUpdate_effect (s : Pm F) (h : s.control.Safe) (bar : F) (sensorOk : Bool)
    (now : UInt64) :
    Effect s.control (.update bar sensorOk now) (pmUpdate s bar sensorOk now).control := by
  have hm : (eventUpdate (filtersUpdate s bar now) now).control = s.control := by simp
  simp only [pmUpdate, metricsUpdate_control]
  generalize eventUpdate (filtersUpdate s bar now) now = r at hm
  rw [← hm] at h ⊢
  rcases protections_cases r sensorOk now with hp | ⟨hr, q, f, hq, hf, hp⟩
  · rw [hp]
    exact stateUpdate_effect h rfl sensorOk (fun hok => .inl ⟨bar, now, by rw [hok]⟩)
  · -- A fault latched on the way stands.
    rw [hp, stateUpdate_latchFault]
    exact latchFault_effect rfl hr hf q hq

/-- An accepted request while running: only the mode and the deadline change. -/
theorem manualRun_control_on (s : Pm F) (hon : s.relayOn = true) (d : UInt32) (now : UInt64) :
    (manualRun s d now).control = { s.control with
      state := .running
      mode := .manual
      manualUntilMs := manualDeadline d now } := by
  simp only [manualRun, enterState_control]
  by_cases hev : s.eventStartMs = 0 <;> simp [hev, hon, eventBegin, Pm.control]

theorem manualRun_control_off (s : Pm F) (hoff : s.relayOn = false) (d : UInt32) (now : UInt64) :
    (manualRun s d now).control = { s.control with
      state := .running
      mode := .manual
      relayOn := true
      manualUntilMs := manualDeadline d now
      pumpStartMs := now
      startBar := s.m.pressureFilteredBar
      startsMs := Function.update s.startsMs s.startsIdx now
      startsIdx := s.startsIdx + 1 } := by
  simp only [manualRun, enterState_control]
  by_cases hev : s.eventStartMs = 0 <;> simp [hev, hoff, eventBegin, pumpOn, Pm.control]

theorem pmRequestOn_effect (s : Pm F) (h : s.control.Safe) (d : UInt32) (now : UInt64) :
    Effect s.control (.requestOn d now) (pmRequestOn s d now).2.control := by
  unfold pmRequestOn
  split_ifs with hstate hbar hpause hquota
  · exact .refl _ _
  · exact .refl _ _
  · exact .refl _ _
  · exact .refl _ _
  · rw [not_or] at hstate
    by_cases hon : s.relayOn = true
    · have hrun : s.control.state = .running := h.relay_iff.mp hon
      rw [manualRun_control_on s hon]
      exact .stay .running .manual (manualDeadline d now) (.inl hrun.symm) (by simp)
        (.inr (.inl ⟨rfl, by decide⟩)) (by simp [hrun])
    · have hoff : s.relayOn = false := by simpa using hon
      rw [manualRun_control_off s hoff]
      refine .start now .manual (manualDeadline d now) s.m.pressureFilteredBar rfl hoff
        ⟨fun hr => hon (h.relay_iff.mpr hr), hstate.1⟩ hstate.2 (.inr ⟨d, rfl⟩) ?_
        (UInt8.not_le.mp hquota)
      by_cases hz : s.pumpStopMs = 0
      · exact .inl hz
      · exact .inr (UInt64.not_lt.mp (fun hlt => hpause ⟨hz, hlt⟩))

theorem pmFaultAck_effect (s : Pm F) (sensorOk : Bool) (now : UInt64) :
    Effect s.control (.faultAck sensorOk now) (pmFaultAck s sensorOk now).2.control := by
  unfold pmFaultAck
  split_ifs with hstate hok
  · exact .refl _ _
  · rw [enterState_control, eventEnd_control]
    exact .ack now (by rw [hok]) (not_not.mp hstate)
  · exact .refl _ _

/-- **Effect of a call** on a safe state. -/
theorem call_effect (s : Pm F) (h : s.control.Safe) (c : PmCall F) :
    Effect s.control c (call s c).control := by
  cases c with
  | configSet cfg => exact .config cfg rfl
  | update bar sensorOk now => exact pmUpdate_effect s h bar sensorOk now
  | requestOn d now => exact pmRequestOn_effect s h d now
  | requestOff now => exact pmRequestOff_effect s h now
  | requestRestart now => exact pmRequestRestart_effect s now
  | modeSet mode now => exact pmModeSet_effect s mode now
  | faultAck sensorOk now => exact pmFaultAck_effect s sensorOk now

end Calls

end Fountainer.Pump
