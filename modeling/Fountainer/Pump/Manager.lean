import Fountainer.Lib.Runs
import Fountainer.Pump.Types
import Mathlib.Data.List.FinRange

/-!
# The pump manager

The functions of `pump_manager.c`. `pmUpdate` is one control tick; the source's
single function body is split here at its own section comments: the filters,
the event metrics, the global protections, the state switch (one definition for
each case) and the metrics epilogue.
-/

namespace Fountainer.Pump

variable {F : Type*} [FloatArith F]

open FloatArith (ofUnsigned fabs sqrtf)

def enterState (s : Pm F) (new : PmState) (now : UInt64) : Pm F :=
  if s.state = new then s else { s with state := new, stateEnterMs := now }

/-- A fault switches the relay off. The stop stamp moves only when the pump was
    on, or when its last start is newer than its last stop. -/
def latchFault (s : Pm F) (f : PmFault) (now : UInt64) : Pm F :=
  let off := { s with
    fault := f
    relayOn := false
    pumpStopMs := if s.relayOn ∨ s.pumpStartMs > s.pumpStopMs then now else s.pumpStopMs }
  enterState off .fault now

def pumpOn (s : Pm F) (now : UInt64) : Pm F :=
  { s with
    relayOn := true
    pumpStartMs := now
    startBar := s.m.pressureFilteredBar
    m := { s.m with cyclesTotal := s.m.cyclesTotal + 1 }
    startsMs := Function.update s.startsMs s.startsIdx now
    startsIdx := s.startsIdx + 1 }

def pumpOff (s : Pm F) (now : UInt64) : Pm F :=
  { s with relayOn := false, pumpStopMs := now, manualUntilMs := 0 }

/-- Run time since the start. A request may carry a newer time than the running
    cycle; the difference is then 0 and does not wrap. -/
def runMs (s : Pm F) (now : UInt64) : UInt64 :=
  if now > s.pumpStartMs then now - s.pumpStartMs else 0

/-- An entry of the start ring counts when it is used and at most an hour old. -/
def startCounts (now stamp : UInt64) : Bool :=
  stamp != 0 && decide (now - stamp ≤ 3600000)

def startsInLastHour (s : Pm F) (now : UInt64) : UInt8 :=
  (List.finRange pmStartHistory).foldl
    (fun n i => if startCounts now (s.startsMs i) then n + 1 else n) 0

def eventBegin (s : Pm F) (now : UInt64) : Pm F :=
  { s with
    eventStartMs := now
    m := { s.m with
      eventDurationMs := 0
      eventStartBar := s.m.pressureFilteredBar
      eventMinBar := s.m.pressureFilteredBar
      eventMaxBar := s.m.pressureFilteredBar
      plateauBar := s.m.pressureFilteredBar
      estVolumeLEvent := 0.0 } }

def eventEnd (s : Pm F) : Pm F :=
  { s with
    eventStartMs := 0
    m := { s.m with eventDurationMs := 0, demand := .none, estFlowLMin := 0.0 } }

def setDemand (s : Pm F) (demand : PmDemand) : Pm F :=
  { s with m := { s.m with demand := demand } }

/-- Demand classification from the plateau of the stable phase. -/
def classifyDemand (s : Pm F) : PmDemand :=
  let c := s.cfg
  let p := s.m.plateauBar
  if s.m.pressureFilteredBar < c.criticalBar then .pipeBreak
  else if c.handMinBar ≤ p ∧ p ≤ c.handMaxBar then .hand
  else if c.tankMinBar ≤ p ∧ p ≤ c.tankMaxBar then .tank
  else .unknown

def anomalyScore (s : Pm F) : UInt16 :=
  let c := s.cfg
  let m := s.m
  let add (b : Bool) (points score : UInt16) : UInt16 := if b then score + points else score
  add (m.demand = .leakSuspect) 30 <|
  add (m.startsLastHour > c.maxStartsPerHour) 30 <|
  add (s.relayOn ∧ m.runTimeS.toUInt64 * 1000 > c.maxOnMs.toUInt64 / 2) 20 <|
  add (m.eventDurationMs > 2 * c.unknownMaxMs) 40 <|
  add (m.eventDurationMs > c.unknownMaxMs) 20 <|
  add (m.pressureFilteredBar < c.criticalBar) 50 <|
  add (m.pressureFilteredBar < c.onBar) 5 0

/-- Calibrated flow model; an uncalibrated factor reports 0. -/
def flowEstimate (s : Pm F) : F :=
  let flow (k : F) : F :=
    let dp := s.cfg.offBar - s.m.plateauBar
    if k ≤ 0.0 ∨ dp ≤ 0.0 then 0.0 else k * sqrtf dp
  match s.m.demand with
  | .hand => flow s.cfg.flowKHand
  | .tank => flow s.cfg.flowKTank
  | _ => 0.0

def filtersUpdate (s : Pm F) (bar : F) (now : UInt64) : Pm F :=
  if s.lastUpdateMs = 0 then
    { s with
      lastFilteredBar := bar
      m := { s.m with pressureBar := bar, pressureFilteredBar := bar, pressureSlopeBarS := 0.0 } }
  else
    let a := s.cfg.filterAlpha
    let filtered := a * bar + (1.0 - a) * s.m.pressureFilteredBar
    let dtS := ofUnsigned (now - s.lastUpdateMs).toNat / 1000.0
    let slope :=
      if dtS > 0.001 then (filtered - s.lastFilteredBar) / dtS else s.m.pressureSlopeBarS
    -- The plateau follows the pressure only during the stable phases of an event.
    let plateau :=
      if s.eventStartMs ≠ 0 ∧ fabs slope < s.cfg.stableSlopeBarS then
        0.9 * s.m.plateauBar + 0.1 * filtered
      else s.m.plateauBar
    { s with
      lastFilteredBar := filtered
      m := { s.m with
        pressureBar := bar
        pressureFilteredBar := filtered
        pressureSlopeBarS := slope
        plateauBar := plateau } }

def eventUpdate (s : Pm F) (now : UInt64) : Pm F :=
  if s.eventStartMs = 0 then s
  else
    let p := s.m.pressureFilteredBar
    let flow := flowEstimate s
    let tracked : PmMetrics F := { s.m with
      eventDurationMs := (now - s.eventStartMs).toUInt32
      eventMinBar := if p < s.m.eventMinBar then p else s.m.eventMinBar
      eventMaxBar := if s.m.eventMaxBar < p then p else s.m.eventMaxBar
      estFlowLMin := flow }
    -- Volume only while pumping and calibrated.
    if s.relayOn ∧ flow > 0.0 ∧ s.lastUpdateMs ≠ 0 then
      let dl := flow * ofUnsigned (now - s.lastUpdateMs).toNat / 60000.0
      { s with m := { tracked with
          estVolumeLEvent := tracked.estVolumeLEvent + dl
          estVolumeLTotal := tracked.estVolumeLTotal + dl } }
    else { s with m := tracked }

-- ════════════════════════════════════════════════════════════════════════
-- The control tick
-- ════════════════════════════════════════════════════════════════════════

def pmInit (cfg : PmConfig F) : Pm F where
  cfg := cfg
  state := .init
  mode := .manual
  fault := .none
  relayOn := false
  stateEnterMs := 0
  lastUpdateMs := 0
  pumpStartMs := 0
  pumpStopMs := 0
  eventStartMs := 0
  manualUntilMs := 0
  startBar := 0.0
  lastFilteredBar := 0.0
  startsMs := fun _ => 0
  startsIdx := 0
  m :=
    { pressureBar := 0.0
      pressureFilteredBar := 0.0
      pressureSlopeBarS := 0.0
      plateauBar := 0.0
      demand := .none
      anomalyScore := 0
      eventDurationMs := 0
      eventStartBar := 0.0
      eventMinBar := 0.0
      eventMaxBar := 0.0
      estFlowLMin := 0.0
      estVolumeLEvent := 0.0
      estVolumeLTotal := 0.0
      runTimeS := 0
      remainingS := 0
      cyclesTotal := 0
      startsLastHour := 0 }

def pmConfigSet (s : Pm F) (cfg : PmConfig F) : Pm F := { s with cfg := cfg }

/-- The run time at which the pump faults: an active timed run has the manual
    ceiling, every other run `max_on_ms`. -/
def maxRunMs (s : Pm F) : UInt64 :=
  if s.mode = .manual ∧ s.manualUntilMs ≠ 0 then pmManualMaxOnS.toUInt64 * 1000
  else s.cfg.maxOnMs.toUInt64

/-- The global protections, in every state but a latched fault. -/
def protections (s : Pm F) (sensorOk : Bool) (now : UInt64) : Pm F :=
  let c := s.cfg
  if s.state = .fault then s
  else if ¬ sensorOk then
    latchFault (setDemand s .sensorFault) .sensor now
  else if s.relayOn then
    let run := runMs s now
    if s.m.pressureFilteredBar < c.criticalBar ∧ c.criticalBar ≤ s.m.eventStartBar then
      latchFault (setDemand s .pipeBreak) .criticalLow now
    else if run ≥ maxRunMs s then latchFault s .maxRuntime now
    else if run ≥ c.dryDetectMs.toUInt64 ∧
        s.m.pressureFilteredBar - s.startBar < c.dryMinRiseBar then
      latchFault s .dryRun now
    else s
  else s

def updateInit (s : Pm F) (sensorOk : Bool) (now : UInt64) : Pm F :=
  let s := { s with relayOn := false }
  if sensorOk then enterState s .idle now else s

def updateIdle (s : Pm F) (now : UInt64) : Pm F :=
  let s := { s with relayOn := false }
  if s.mode = .auto ∧ s.m.pressureFilteredBar < s.cfg.onBar then
    enterState (eventBegin s now) .pressureDrop now
  else s

def updatePressureDrop (s : Pm F) (now : UInt64) : Pm F :=
  let s := { s with relayOn := false }
  let c := s.cfg
  if s.mode ≠ .auto then enterState (eventEnd s) .idle now
  else if c.onBar ≤ s.m.pressureFilteredBar then enterState (eventEnd s) .idle now
  else if now - s.stateEnterMs ≥ c.dropConfirmMs.toUInt64 then
    let s := setDemand s (classifyDemand s)
    -- A pipe break counts only when the system was pressurized before the drop.
    if s.m.demand = .pipeBreak ∧ c.criticalBar ≤ s.m.eventStartBar then
      latchFault s .criticalLow now
    else enterState s .starting now
  else s

def updateStarting (s : Pm F) (now : UInt64) : Pm F :=
  let c := s.cfg
  if startsInLastHour s now ≥ c.maxStartsPerHour then latchFault s .tooManyStarts now
  else if s.pumpStopMs = 0 ∨ now - s.pumpStopMs ≥ c.minOffMs.toUInt64 then
    enterState (pumpOn s now) .running now
  else enterState s .lockout now

/-- The demand of a running AUTO cycle: one that lasts too long is a suspected
    leak, but keeps running until a hard limit hits. -/
def runningDemand (s : Pm F) : PmDemand :=
  let c := s.cfg
  let demand := classifyDemand s
  let limit :=
    if demand = .hand then c.handMaxMs
    else if demand = .tank then c.tankMaxMs
    else c.unknownMaxMs
  if s.m.eventDurationMs > limit then .leakSuspect else demand

def updateRunning (s : Pm F) (now : UInt64) : Pm F :=
  let s := { s with relayOn := true }
  let c := s.cfg
  let run := runMs s now
  if s.mode = .auto then
    let s := setDemand s (runningDemand s)
    if c.offBar ≤ s.m.pressureFilteredBar ∧ run ≥ c.minOnMs.toUInt64 then
      enterState (pumpOff s now) .recovering now
    else s
  else if s.manualUntilMs ≠ 0 ∧ now ≥ s.manualUntilMs ∧ run ≥ c.minOnMs.toUInt64 then
    enterState (pumpOff s now) .recovering now
  else s

def updateRecovering (s : Pm F) (now : UInt64) : Pm F :=
  let s := { s with relayOn := false }
  let c := s.cfg
  if (c.onBar ≤ s.m.pressureFilteredBar ∧ fabs s.m.pressureSlopeBarS < c.stableSlopeBarS) ∨
      now - s.stateEnterMs ≥ c.recoveryTimeoutMs.toUInt64 then
    enterState (eventEnd s) .lockout now
  else s

def updateLockout (s : Pm F) (now : UInt64) : Pm F :=
  let s := { s with relayOn := false }
  if s.pumpStopMs = 0 ∨ now - s.pumpStopMs ≥ s.cfg.minOffMs.toUInt64 then
    enterState s .idle now
  else s

/-- The state switch of `pm_update`. -/
def stateUpdate (s : Pm F) (sensorOk : Bool) (now : UInt64) : Pm F :=
  match s.state with
  | .init => updateInit s sensorOk now
  | .idle => updateIdle s now
  | .pressureDrop => updatePressureDrop s now
  | .starting => updateStarting s now
  | .running => updateRunning s now
  | .recovering => updateRecovering s now
  | .lockout => updateLockout s now
  | .fault => { s with relayOn := false }

/-- The metrics epilogue of `pm_update`. -/
def metricsUpdate (s : Pm F) (now : UInt64) : Pm F :=
  let s := { s with m := { s.m with startsLastHour := startsInLastHour s now } }
  let s := { s with m := { s.m with anomalyScore := anomalyScore s } }
  if s.relayOn then
    let runS := (runMs s now / 1000).toUInt32
    -- The remaining time of a timed run refers to the requested duration.
    let capMs :=
      if s.mode = .manual ∧ s.manualUntilMs > s.pumpStartMs then s.manualUntilMs - s.pumpStartMs
      else s.cfg.maxOnMs.toUInt64
    let capS := (capMs / 1000).toUInt32
    { s with
      lastUpdateMs := now
      m := { s.m with
        runTimeS := runS
        remainingS := if capS > runS then capS - runS else 0 } }
  else
    { s with lastUpdateMs := now, m := { s.m with runTimeS := 0, remainingS := 0 } }

/-- One control tick: fresh raw pressure, sensor health and time. -/
def pmUpdate (s : Pm F) (bar : F) (sensorOk : Bool) (now : UInt64) : Pm F :=
  let s := eventUpdate (filtersUpdate s bar now) now
  metricsUpdate (stateUpdate (protections s sensorOk now) sensorOk now) now

-- ════════════════════════════════════════════════════════════════════════
-- Remote requests: the answer, and the state after it
-- ════════════════════════════════════════════════════════════════════════

/-- The end of a manual run: none for duration 0, and a duration beyond the
    ceiling is clamped to it. -/
def manualDeadline (durationS : UInt32) (now : UInt64) : UInt64 :=
  let durationS := if durationS > pmManualMaxOnS then pmManualMaxOnS else durationS
  if durationS ≠ 0 then now + durationS.toUInt64 * 1000 else 0

/-- What an accepted `pm_request_on` does. -/
def manualRun (s : Pm F) (durationS : UInt32) (now : UInt64) : Pm F :=
  let s := { s with mode := .manual, manualUntilMs := manualDeadline durationS now }
  let s := if s.eventStartMs = 0 then eventBegin s now else s
  let s := if s.relayOn then s else pumpOn s now
  enterState s .running now

def pmRequestOn (s : Pm F) (durationS : UInt32) (now : UInt64) : Bool × Pm F :=
  if s.state = .fault ∨ s.state = .init then (false, s)
  else if s.cfg.offBar ≤ s.m.pressureFilteredBar then (false, s)
  else if s.pumpStopMs ≠ 0 ∧ now - s.pumpStopMs < s.cfg.minOffMs.toUInt64 then (false, s)
  else if startsInLastHour s now ≥ s.cfg.maxStartsPerHour then (false, s)
  else (true, manualRun s durationS now)

def pmRequestOff (s : Pm F) (now : UInt64) : Bool × Pm F :=
  let s := { s with mode := .manual }
  if s.state = .fault then (true, s)
  else if s.relayOn then
    -- The minimum on-time still applies: the stop is left to the state machine.
    let minOffAt := s.pumpStartMs + s.cfg.minOnMs.toUInt64
    (true, { s with manualUntilMs := if now > minOffAt then now else minOffAt })
  else (true, enterState s .idle now)

def pmRequestRestart (s : Pm F) (now : UInt64) : Bool × Pm F :=
  if s.state = .fault then (false, s)
  else if s.relayOn then (true, enterState (pumpOff s now) .recovering now)
  else (true, s)

/-- The mode may be selected in every state, a latched fault included; the time
    is unused. -/
def pmModeSet (s : Pm F) (mode : PmMode) (_now : UInt64) : Bool × Pm F :=
  let s := { s with mode := mode }
  if s.state ≠ .fault ∧ mode = .manual ∧ s.relayOn then (true, { s with manualUntilMs := 0 })
  else (true, s)

def pmFaultAck (s : Pm F) (sensorOk : Bool) (now : UInt64) : Bool × Pm F :=
  if s.state ≠ .fault then (false, s)
  else if ¬ sensorOk then (false, s)
  else (true, enterState (eventEnd { s with fault := .none }) .idle now)

/-- A call of the pump manager's interface. -/
inductive PmCall (F : Type*) where
  | configSet (cfg : PmConfig F)
  | update (bar : F) (sensorOk : Bool) (now : UInt64)
  | requestOn (durationS : UInt32) (now : UInt64)
  | requestOff (now : UInt64)
  | requestRestart (now : UInt64)
  | modeSet (mode : PmMode) (now : UInt64)
  | faultAck (sensorOk : Bool) (now : UInt64)

/-- The time a call carries; `pm_config_set` has none. -/
def PmCall.time? : PmCall F → Option UInt64
  | .configSet _ => none
  | .update _ _ now => some now
  | .requestOn _ now => some now
  | .requestOff now => some now
  | .requestRestart now => some now
  | .modeSet _ now => some now
  | .faultAck _ now => some now

/-- The state after a call. -/
def call (s : Pm F) : PmCall F → Pm F
  | .configSet cfg => pmConfigSet s cfg
  | .update bar sensorOk now => pmUpdate s bar sensorOk now
  | .requestOn durationS now => (pmRequestOn s durationS now).2
  | .requestOff now => (pmRequestOff s now).2
  | .requestRestart now => (pmRequestRestart s now).2
  | .modeSet mode now => (pmModeSet s mode now).2
  | .faultAck sensorOk now => (pmFaultAck s sensorOk now).2

/-- The state after `pm_init` and the calls, in order. -/
def pmRun (cfg : PmConfig F) (calls : List (PmCall F)) : Pm F :=
  Machine.run call (pmInit cfg) calls

@[simp] theorem pmRun_concat (cfg : PmConfig F) (calls : List (PmCall F)) (c : PmCall F) :
    pmRun cfg (calls ++ [c]) = call (pmRun cfg calls) c :=
  Machine.run_concat _ _ _ _

/-- Thresholds and times of a small plant without smoothing, for examples. -/
def plantConfig : PmConfig F where
  onBar := 2.0
  offBar := 3.5
  criticalBar := 0.3
  handMinBar := 1.7
  handMaxBar := 2.0
  tankMinBar := 1.2
  tankMaxBar := 1.6
  filterAlpha := 1.0
  stableSlopeBarS := 0.05
  dryMinRiseBar := 0.1
  flowKHand := 0.0
  flowKTank := 0.0
  dropConfirmMs := 3000
  minOnMs := 5000
  minOffMs := 4000
  maxOnMs := 60000
  dryDetectMs := 10000
  recoveryTimeoutMs := 10000
  handMaxMs := 60000
  tankMaxMs := 60000
  unknownMaxMs := 20000
  maxStartsPerHour := 5

end Fountainer.Pump
