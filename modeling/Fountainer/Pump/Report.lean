import Fountainer.Pump.Task
import Fountainer.Pump.Safety

/-!
# What the pump task reports

The whole of `pump_task_cycle`: behind the tick of the manager, which it makes under the lock, it
works on a copy of the state and sets the relay, publishes events, sends alerts and writes records.
The dispatch task meanwhile handles the beginning and the end of the session, and sends the alert of
a latched fault again; remote requests change the manager between the ticks.
-/

namespace Fountainer.Pump

variable {F : Type*} [FloatArith F]

/-- The code of a state, in the order of `pm_state_t`. -/
def PmState.code : PmState → UInt8
  | .init => 0
  | .idle => 1
  | .pressureDrop => 2
  | .starting => 3
  | .running => 4
  | .recovering => 5
  | .lockout => 6
  | .fault => 7

/-- The code of a fault, in the order of `pm_fault_t`. -/
def PmFault.code : PmFault → UInt8
  | .none => 0
  | .sensor => 1
  | .criticalLow => 2
  | .maxRuntime => 3
  | .dryRun => 4
  | .tooManyStarts => 5

/-- `pm_dp_state_get`. -/
def pmDpStateGet (s : Pm F) : UInt8 :=
  let resting := if s.mode = .auto then 3 else 1
  match s.state with
  | .init => 0
  | .fault => 5
  | .starting | .running => if s.relayOn then 2 else resting
  | _ => resting

/-- `pm_idle_get`. -/
def pmIdleGet (s : Pm F) : Bool :=
  !s.relayOn && (s.state == .idle || s.state == .lockout || s.state == .fault)

/-- `pump_snap_t`. -/
structure PumpSnap (F : Type*) where
  state : PmState
  mode : PmMode
  fault : PmFault
  relay : Bool
  idle : Bool
  dpState : UInt8
  m : PmMetrics F

/-- The copy that is taken of the manager. -/
def pumpSnap (s : Pm F) : PumpSnap F where
  state := s.state
  mode := s.mode
  fault := s.fault
  relay := s.relayOn
  idle := pmIdleGet s
  dpState := pmDpStateGet s
  m := s.m

/-- The arguments of `fountain_proto_alert_send`. -/
structure PumpAlert (F : Type*) where
  code : String
  severity : String
  datapoint : String
  value : F
  threshold : F
  detail : String

/-- The alert of a fault. -/
def faultAlert (f : PmFault) (detail : String) : PumpAlert F where
  code := if f = .dryRun then "dry_run" else "pump_fault"
  severity := "critical"
  datapoint := "Fon_Fault_Code"
  value := FloatArith.ofUnsigned f.code.toNat
  threshold := 0.0
  detail := detail

/-- What the task puts out: events, alerts, samples of the history with their pressure and status,
    and records of the log. Pressures and volumes are those before their conversion to integers. -/
inductive PumpNote (F : Type*) where
  | stateChanged (old new : PmState)
  | fault (f : PmFault)
  | faultCleared
  | alert (a : PumpAlert F)
  | history (bar : F) (status : UInt16)
  | label (label : UInt8)
  | relayFail (relay recovered : Bool)
  | summary (durationS : UInt32) (minBar : F) (demand : PmDemand) (volumeL : F)
  | sample (level : UInt8) (filteredBar slopeBarS : F) (state : PmState) (demand : PmDemand)
      (anomalyScore : UInt16)

/-- The points that `mirror_dps` writes: the copy, and the values of the sensor. -/
structure PumpMirror (F : Type*) where
  snap : PumpSnap F
  sensorVoltageMv : UInt32
  sensorErrCount : UInt32
  sensorNoiseMv : UInt32

/-- The variables of a cycle behind the lock. -/
structure CycleRest (F : Type*) where
  snap : PumpSnap F
  now : UInt64
  mv : UInt32
  measOk : Bool
  sensorOk : Bool

/-- The statics of `pump_task.c`, the mirrored points, the level of the relay pin, where the two
    tasks are, and what has been put out. For the statements, `alerted` are the faults of which an
    alert was sent since the session began last. -/
structure PumpReporter (F : Type*) where
  task : PumpTask F
  snap : PumpSnap F
  prevM : PmMetrics F
  prevState : PmState
  prevFault : PmFault
  overPressure : Bool
  relayFailed : Bool
  prevLabel : UInt8
  sessionUp : Bool
  linkPoor : Bool
  lastSampleMs : UInt64
  lastHistMs : UInt64
  mirror : PumpMirror F
  relayPin : Bool
  rest : Option (CycleRest F)
  readying : Bool
  out : List (PumpNote F)
  alerted : List PmFault

namespace PumpReporter

variable (s : PumpReporter F)

def note (notes : List (PumpNote F)) : PumpReporter F := { s with out := s.out ++ notes }

/-- The metrics of the last copy are kept and the manager is ticked. -/
def ticked (task : PumpTask F) : PumpReporter F := { s with prevM := s.snap.m, task := task }

/-- The copy is taken, and the cycle goes on with it behind the lock. -/
def copied (r : CycleRest F) : PumpReporter F := { s with snap := r.snap, rest := some r }

end PumpReporter

-- ════════════════════════════════════════════════════════════════════════
-- The parts of a cycle
-- ════════════════════════════════════════════════════════════════════════

/-- `PRESSURE_STATUS_VALID`, `SENSOR_ERROR`, `OUT_OF_RANGE`, `STALE` and `MANUAL`. -/
def pressureStatusValid : UInt16 := 0x0001
def pressureStatusSensorError : UInt16 := 0x0002
def pressureStatusOutOfRange : UInt16 := 0x0004
def pressureStatusStale : UInt16 := 0x0010
def pressureStatusManual : UInt16 := 0x0020

/-- The sample of the history: the pressure in its range, and what it is. -/
def historySample (filter : SensorFilter F) (sample : Sample F) (manual : Bool) : F × UInt16 :=
  let (bar, status) :=
    if manual then (sample.bar, pressureStatusValid ||| pressureStatusManual)
    else if sample.measOk then (sample.bar, pressureStatusValid)
    else
      (if filter.haveGood then filter.lastGoodBar else 0.0,
        pressureStatusSensorError ||| if filter.haveGood then pressureStatusStale else 0)
  if bar < 0.0 then (0.0, status ||| pressureStatusOutOfRange)
  else if 65.535 < bar then (65.535, status ||| pressureStatusOutOfRange)
  else (bar, status)

/-- The history in `pump_task_cycle`, once a second. -/
def historyNote (s : PumpReporter F) (filter : SensorFilter F) (sample : Sample F) (manual : Bool)
    (now : UInt64) : PumpReporter F :=
  if now - s.lastHistMs ≥ 1000 then
    let x := historySample filter sample manual
    { s.note [.history x.1 x.2] with lastHistMs := now }
  else s

/-- `poll_command_dps`, as far as `Fon_Event_Label` goes. -/
def labelNote (s : PumpReporter F) (label : UInt8) : PumpReporter F :=
  if label ≠ s.prevLabel then { s.note [.label label] with prevLabel := label } else s

/-- The relay in `pump_task_cycle`; `ok` is the answer of `hal_relay_set`. -/
def relayNote (s : PumpReporter F) (relay ok : Bool) : PumpReporter F :=
  if ok then
    let s := { s with relayPin := relay }
    if s.relayFailed then { s.note [.relayFail relay true] with relayFailed := false } else s
  else if s.relayFailed then s
  else { s.note [.relayFail relay false] with relayFailed := true }

/-- `mirror_dps`. -/
def mirrorDps (s : PumpReporter F) (r : CycleRest F) (noiseMv : UInt32) : PumpReporter F :=
  { s with
    mirror :=
      { snap := r.snap
        sensorVoltageMv := if r.measOk then r.mv else s.mirror.sensorVoltageMv
        sensorErrCount := s.task.sensor.sensorErrTotal
        sensorNoiseMv := noiseMv } }

/-- The notes of `report_edges`, in their order. -/
def edgeNotes (s : PumpReporter F) (snap : PumpSnap F) : List (PumpNote F) :=
  (if snap.state ≠ s.prevState then [.stateChanged s.prevState snap.state] else []) ++
    (if snap.fault ≠ s.prevFault then
      if snap.fault ≠ .none then
        [.fault snap.fault, .alert (faultAlert snap.fault "pump fault latched")]
      else [.faultCleared]
    else []) ++
    (if s.prevM.eventDurationMs ≠ 0 ∧ snap.m.eventDurationMs = 0 ∧
      s.prevM.eventDurationMs > 2000 then
      [.summary (s.prevM.eventDurationMs / 1000) s.prevM.eventMinBar s.prevM.demand
        s.prevM.estVolumeLEvent]
    else [])

/-- `report_edges`. -/
def reportEdges (s : PumpReporter F) (snap : PumpSnap F) : PumpReporter F :=
  { s.note (edgeNotes s snap) with
    prevState := snap.state
    prevFault := snap.fault
    alerted := if snap.fault ≠ s.prevFault ∧ snap.fault ≠ .none then s.alerted ++ [snap.fault]
      else s.alerted }

/-- The alert in `pump_task_cycle` of a pressure above `Fon_Alert_High_Pressure`. -/
def overPressureNote (s : PumpReporter F) (r : CycleRest F) (high : F) : PumpReporter F :=
  if r.sensorOk ∧ 0.0 < high then
    let bar := r.snap.m.pressureFilteredBar
    if high < bar ∧ ¬ s.overPressure then
      { s.note [.alert
          { code := "over_pressure"
            severity := "warning"
            datapoint := "Fon_Current_Pressure"
            value := bar
            threshold := high
            detail := "pressure above alert threshold" }] with
        overPressure := true }
    else if bar < high - 0.2 then { s with overPressure := false }
    else s
  else s

/-- The level and the interval of the time series. -/
def sampleRate (sessionUp linkPoor : Bool) (intervalS : UInt32) : UInt8 × UInt32 :=
  let intervalS := if intervalS = 0 then 1 else intervalS
  if !sessionUp then (3, if intervalS < 30 then 30 else intervalS)
  else (4, if linkPoor then intervalS * 2 else intervalS)

/-- The time series in `pump_task_cycle`. -/
def sampleNote (s : PumpReporter F) (r : CycleRest F) (intervalS : UInt32) : PumpReporter F :=
  let rate := sampleRate s.sessionUp s.linkPoor intervalS
  if r.now - s.lastSampleMs ≥ rate.2.toUInt64 * 1000 then
    { s.note [.sample rate.1 r.snap.m.pressureFilteredBar r.snap.m.pressureSlopeBarS r.snap.state
        r.snap.m.demand r.snap.m.anomalyScore] with
      lastSampleMs := r.now }
  else s

/-- What the first part of a cycle reads besides: the time at its start, and the label. -/
structure TickInput (F : Type*) where
  cycle : CycleInput F
  startUs : UInt64
  label : UInt8

/-- `pump_task_cycle` up to the end of the locked section. -/
def cycleTick (s : PumpReporter F) (i : TickInput F) : PumpReporter F :=
  let (task, sample) := pumpTaskCycle s.task i.cycle
  let s := historyNote s task.sensor sample (i.cycle.pressureManual != 0) (nowMs i.startUs)
  let s := labelNote (s.ticked task) i.label
  s.copied
    { snap := pumpSnap task.pm
      now := nowMs i.cycle.timeUs
      mv := i.cycle.mv
      measOk := sample.measOk
      sensorOk := sample.sensorOk }

/-- What the second part reads: the answer of the relay, and the points. -/
structure RestInput (F : Type*) where
  relayOk : Bool
  noiseMv : UInt32
  alertHigh : F
  reportInterval : UInt32

/-- `pump_task_cycle` behind the locked section. -/
def cycleRest (s : PumpReporter F) (r : CycleRest F) (i : RestInput F) : PumpReporter F :=
  let s := relayNote { s with rest := none } r.snap.relay i.relayOk
  let s := mirrorDps s r i.noiseMv
  let s := reportEdges s r.snap
  let s := overPressureNote s r i.alertHigh
  sampleNote s r i.reportInterval

-- ════════════════════════════════════════════════════════════════════════
-- The tasks
-- ════════════════════════════════════════════════════════════════════════

/-- A part of a cycle, a remote request between two ticks, or an event that `pump_on_net_event`
    handles; on `EVT_SESSION_READY` it looks for a fault in a step of its own. -/
inductive ReportOp (F : Type*) where
  | tick (i : TickInput F)
  | rest (i : RestInput F)
  | request (step : TaskStep F)
  | sessionReady
  | readyAlert
  | sessionLost
  | linkState (poor : Bool)

def reportStep (s : PumpReporter F) : ReportOp F → PumpReporter F
  | .tick i => if s.rest.isNone then cycleTick s i else s
  | .rest i =>
    match s.rest with
    | some r => cycleRest s r i
    | none => s
  | .request step =>
    match step with
    | .cycle _ => s
    | step => { s with task := taskStep s.task step }
  | .sessionReady =>
    if s.readying then s else { s with sessionUp := true, readying := true, alerted := [] }
  | .readyAlert =>
    if s.readying then
      if s.snap.fault ≠ .none then
        { s.note
            [.alert (faultAlert s.snap.fault "pump fault latched (re-emit after reconnect)")] with
          readying := false
          alerted := s.alerted ++ [s.snap.fault] }
      else { s with readying := false }
    else s
  | .sessionLost => if s.readying then s else { s with sessionUp := false }
  | .linkState poor => if s.readying then s else { s with linkPoor := poor }

/-- The metrics of the zeroed copy. -/
def PmMetrics.zero : PmMetrics F where
  pressureBar := 0.0
  pressureFilteredBar := 0.0
  pressureSlopeBarS := 0.0
  plateauBar := 0.0
  demand := .none
  anomalyScore := 0
  eventDurationMs := 0
  eventStartBar := 0.0
  eventMinBar := 0.0
  eventMaxBar := 0.0
  estFlowLMin := 0.0
  estVolumeLEvent := 0.0
  estVolumeLTotal := 0.0
  runTimeS := 0
  remainingS := 0
  cyclesTotal := 0
  startsLastHour := 0

/-- The copy before the first cycle. -/
def PumpSnap.zero : PumpSnap F where
  state := .init
  mode := .manual
  fault := .none
  relay := false
  idle := false
  dpState := 0
  m := .zero

/-- `pump_task_init` has run. -/
def reporterInit (cfg : PmConfig F) : PumpReporter F where
  task := pumpTaskInit cfg
  snap := .zero
  prevM := .zero
  prevState := .init
  prevFault := .none
  overPressure := false
  relayFailed := false
  prevLabel := 0
  sessionUp := false
  linkPoor := false
  lastSampleMs := 0
  lastHistMs := 0
  mirror := { snap := .zero, sensorVoltageMv := 0, sensorErrCount := 0, sensorNoiseMv := 0 }
  relayPin := false
  rest := none
  readying := false
  out := []
  alerted := []

def reportRun (cfg : PmConfig F) (ops : List (ReportOp F)) : PumpReporter F :=
  Machine.run reportStep (reporterInit cfg) ops

-- ════════════════════════════════════════════════════════════════════════
-- The manager behind the lock
-- ════════════════════════════════════════════════════════════════════════

theorem configRefresh_safe {t : PumpTask F} (h : t.pm.control.Safe) (cfg : PmConfig F) :
    (configRefresh t cfg).pm.control.Safe := by
  unfold configRefresh
  dsimp only
  split_ifs
  · exact call_safe t.pm h (.configSet cfg)
  · exact h

theorem pumpCommand_safe {s : Pm F} (h : s.control.Safe) (cmd : UInt8) (now : UInt64) :
    (pumpCommand s cmd now).control.Safe := by
  unfold pumpCommand
  split
  · exact call_safe s h (.requestOn 0 now)
  · exact call_safe s h (.requestOff now)
  · exact call_safe s h (.modeSet .auto now)
  · exact call_safe s h (.modeSet .manual now)
  · exact call_safe s h (.requestRestart now)
  · exact h

/-- Every cycle and every request keeps the manager safe. -/
theorem taskStep_safe {t : PumpTask F} (h : t.pm.control.Safe) (step : TaskStep F) :
    (taskStep t step).pm.control.Safe := by
  cases step with
  | cycle i =>
    have hupdate :=
      call_safe _ (configRefresh_safe h i.cfg) (.update (sensorCycle t.sensor i).2.useBar
      (sensorCycle t.sensor i).2.sensorOk (nowMs i.timeUs))
    have hcmd := pumpCommand_safe hupdate i.pumpCommand (nowMs i.timeUs)
    simp only [taskStep, pumpTaskCycle, configRefresh_sensor, pollCommandDps]
    split_ifs
    · exact call_safe _ hcmd (.faultAck (sensorCycle t.sensor i).2.sensorOk (nowMs i.timeUs))
    · exact hcmd
  | requestOn d timeUs => exact call_safe t.pm h (.requestOn d (nowMs timeUs))
  | requestOff timeUs => exact call_safe t.pm h (.requestOff (nowMs timeUs))
  | requestRestart timeUs => exact call_safe t.pm h (.requestRestart (nowMs timeUs))
  | modeSet mode timeUs => exact call_safe t.pm h (.modeSet mode (nowMs timeUs))

/-- What a copy with the relay on says besides. -/
structure PumpSnap.Running (snap : PumpSnap F) : Prop where
  state : snap.state = .running
  fault : snap.fault = .none
  busy : snap.idle = false
  dpState : snap.dpState = 2

omit [FloatArith F] in
theorem pumpSnap_running {s : Pm F} (h : s.control.Safe) (hrelay : s.relayOn = true) :
    (pumpSnap s).Running := by
  have hstate : s.state = .running := h.relay_iff.mp hrelay
  exact
    { state := hstate
      fault := h.fault_eq_none (by simp [Pm.control, hstate])
      busy := by simp [pumpSnap, pmIdleGet, hrelay]
      dpState := by simp [pumpSnap, pmDpStateGet, hstate, hrelay] }

-- ════════════════════════════════════════════════════════════════════════
-- What a part of a cycle leaves
-- ════════════════════════════════════════════════════════════════════════

/-- The part of the state that the notes of a cycle are about. -/
structure ReportCore (F : Type*) where
  task : PumpTask F
  snap : PumpSnap F
  prevState : PmState
  prevFault : PmFault
  relayFailed : Bool
  sessionUp : Bool
  mirror : PumpMirror F
  relayPin : Bool
  rest : Option (CycleRest F)
  readying : Bool
  alerted : List PmFault

def PumpReporter.core (s : PumpReporter F) : ReportCore F where
  task := s.task
  snap := s.snap
  prevState := s.prevState
  prevFault := s.prevFault
  relayFailed := s.relayFailed
  sessionUp := s.sessionUp
  mirror := s.mirror
  relayPin := s.relayPin
  rest := s.rest
  readying := s.readying
  alerted := s.alerted

omit [FloatArith F] in
@[simp] theorem note_core (s : PumpReporter F) (notes : List (PumpNote F)) :
    (s.note notes).core = s.core := rfl

@[simp] theorem historyNote_core (s : PumpReporter F) (filter : SensorFilter F) (sample : Sample F)
    (manual : Bool) (now : UInt64) : (historyNote s filter sample manual now).core = s.core := by
  unfold historyNote
  split_ifs <;> rfl

omit [FloatArith F] in
@[simp] theorem labelNote_core (s : PumpReporter F) (label : UInt8) :
    (labelNote s label).core = s.core := by
  unfold labelNote
  split_ifs <;> rfl

@[simp] theorem overPressureNote_core (s : PumpReporter F) (r : CycleRest F) (high : F) :
    (overPressureNote s r high).core = s.core := by
  unfold overPressureNote
  dsimp only
  split_ifs <;> rfl

omit [FloatArith F] in
@[simp] theorem sampleNote_core (s : PumpReporter F) (r : CycleRest F) (intervalS : UInt32) :
    (sampleNote s r intervalS).core = s.core := by
  unfold sampleNote
  dsimp only
  split_ifs <;> rfl

omit [FloatArith F] in
@[simp] theorem relayNote_core (s : PumpReporter F) (relay ok : Bool) :
    (relayNote s relay ok).core =
      { s.core with
        relayPin := if ok then relay else s.core.relayPin
        relayFailed := !ok } := by
  obtain ⟨⟩ | ⟨⟩ := ok <;> cases hfailed : s.relayFailed <;>
    simp [relayNote, PumpReporter.core, PumpReporter.note, hfailed]

omit [FloatArith F] in
@[simp] theorem ticked_core (s : PumpReporter F) (task : PumpTask F) :
    (s.ticked task).core = { s.core with task := task } := rfl

omit [FloatArith F] in
@[simp] theorem copied_core (s : PumpReporter F) (r : CycleRest F) :
    (s.copied r).core = { s.core with snap := r.snap, rest := some r } := rfl

omit [FloatArith F] in
@[simp] theorem mirrorDps_core (s : PumpReporter F) (r : CycleRest F) (noiseMv : UInt32) :
    (mirrorDps s r noiseMv).core = { s.core with mirror := (mirrorDps s r noiseMv).mirror } := rfl

@[simp] theorem reportEdges_core (s : PumpReporter F) (snap : PumpSnap F) :
    (reportEdges s snap).core =
      { s.core with
        prevState := snap.state
        prevFault := snap.fault
        alerted := if snap.fault ≠ s.core.prevFault ∧ snap.fault ≠ .none
          then s.core.alerted ++ [snap.fault] else s.core.alerted } := rfl

theorem cycleTick_core (s : PumpReporter F) (i : TickInput F) :
    ∃ r : CycleRest F, r.snap = pumpSnap (taskStep s.task (.cycle i.cycle)).pm ∧
      (cycleTick s i).core =
        { s.core with
          task := taskStep s.task (.cycle i.cycle)
          snap := r.snap
          rest := some r } := by
  refine ⟨
    { snap := pumpSnap (pumpTaskCycle s.task i.cycle).1.pm
      now := nowMs i.cycle.timeUs
      mv := i.cycle.mv
      measOk := (pumpTaskCycle s.task i.cycle).2.measOk
      sensorOk := (pumpTaskCycle s.task i.cycle).2.sensorOk }, rfl, ?_⟩
  simp only [cycleTick, copied_core, labelNote_core, ticked_core, historyNote_core]
  rfl

theorem cycleRest_core (s : PumpReporter F) (r : CycleRest F) (i : RestInput F) :
    ∃ mirror : PumpMirror F, mirror.snap = r.snap ∧
      (cycleRest s r i).core =
        { s.core with
          rest := none
          relayPin := if i.relayOk then r.snap.relay else s.core.relayPin
          relayFailed := !i.relayOk
          mirror := mirror
          prevState := r.snap.state
          prevFault := r.snap.fault
          alerted := if r.snap.fault ≠ s.core.prevFault ∧ r.snap.fault ≠ .none
            then s.core.alerted ++ [r.snap.fault] else s.core.alerted } := by
  refine ⟨(mirrorDps (relayNote { s with rest := none } r.snap.relay i.relayOk) r i.noiseMv).mirror,
    rfl, ?_⟩
  simp only [cycleRest, sampleNote_core, overPressureNote_core, reportEdges_core, mirrorDps_core,
    relayNote_core]
  rfl

-- ════════════════════════════════════════════════════════════════════════
-- The relay and the points
-- ════════════════════════════════════════════════════════════════════════

/-- The alert of a latched fault was sent in this session, or the cycle that latched it is about to
    send it. -/
def ReportCore.AlertKept (a : ReportCore F) : Prop :=
  a.snap.fault ∈ a.alerted ∨ (a.rest.isSome ∧ a.prevFault ≠ a.snap.fault)

/-- Between the cycles everything that was put out follows the copy of the last one. -/
structure ReportCore.Settled (a : ReportCore F) : Prop where
  state : a.prevState = a.snap.state
  fault : a.prevFault = a.snap.fault
  mirror : a.mirror.snap = a.snap
  relay : a.relayFailed = false → a.relayPin = a.snap.relay

structure ReportCore.Inv (a : ReportCore F) : Prop where
  safe : a.task.pm.control.Safe
  running : a.snap.relay = true → a.snap.Running
  underway : ∀ r, a.rest = some r → r.snap = a.snap
  settled : a.rest = none → a.Settled
  alerted : a.sessionUp = true → a.readying = false → a.snap.fault ≠ .none → a.AlertKept

omit [FloatArith F] in
/-- Behind the copy the manager may go on, and the session begin or end. -/
theorem ReportCore.Inv.behind {a : ReportCore F} (h : a.Inv) {task : PumpTask F}
    (hsafe : task.pm.control.Safe) (up readying : Bool) (alerted : List PmFault)
    (hkept : up = true → readying = false → a.snap.fault ≠ .none →
      ({ a with alerted := alerted } : ReportCore F).AlertKept) :
    ({ a with task := task, sessionUp := up, readying := readying, alerted := alerted } :
      ReportCore F).Inv where
  safe := hsafe
  running := h.running
  underway := h.underway
  settled hrest := ⟨(h.settled hrest).state, (h.settled hrest).fault, (h.settled hrest).mirror,
    (h.settled hrest).relay⟩
  alerted := hkept

theorem reporterInit_inv (cfg : PmConfig F) : (reporterInit cfg).core.Inv where
  safe := pmInit_safe cfg
  running := (nomatch ·)
  underway _ := (nomatch ·)
  settled _ := ⟨rfl, rfl, rfl, fun _ => rfl⟩
  alerted := (nomatch ·)

theorem cycleTick_inv {s : PumpReporter F} (h : s.core.Inv) (hrest : s.core.rest = none)
    (i : TickInput F) : (cycleTick s i).core.Inv := by
  obtain ⟨r, hsnap, hcore⟩ := cycleTick_core s i
  have hsafe := taskStep_safe h.safe (.cycle i.cycle)
  have hprev := (h.settled hrest).fault
  rw [hcore]
  exact
    { safe := hsafe
      running := fun hrelay => hsnap ▸ pumpSnap_running hsafe (by rwa [hsnap] at hrelay)
      underway := fun _ hr => congrArg CycleRest.snap (Option.some.inj hr).symm
      settled := (nomatch ·)
      alerted := by
        intro hup hready hfault
        by_cases hnew : s.core.prevFault = r.snap.fault
        · -- The fault was there before, so the session has its alert.
          rw [hprev] at hnew
          have hold := h.alerted hup hready (hnew ▸ hfault)
          refine .inl (hnew ▸ hold.resolve_right fun hpending => ?_)
          simp [hrest] at hpending
        · exact .inr ⟨rfl, hnew⟩ }

theorem cycleRest_inv {s : PumpReporter F} (h : s.core.Inv) {r : CycleRest F}
    (hrest : s.core.rest = some r) (i : RestInput F) : (cycleRest s r i).core.Inv := by
  obtain ⟨mirror, hmirror, hcore⟩ := cycleRest_core s r i
  have hsnap := h.underway r hrest
  rw [hcore]
  exact
    { safe := h.safe
      running := h.running
      underway := fun _ => (nomatch ·)
      settled := fun _ =>
        { state := congrArg PumpSnap.state hsnap
          fault := congrArg PumpSnap.fault hsnap
          mirror := hmirror.trans hsnap
          relay := fun hok => by
            have hok : i.relayOk = true := by simpa using hok
            simp [hok, hsnap] }
      alerted := by
        intro hup hready hfault
        left
        change s.core.snap.fault ∈ ite _ _ _
        rw [hsnap]
        rcases h.alerted hup hready hfault with hmem | ⟨-, hne⟩
        · split_ifs
          · exact List.mem_append_left _ hmem
          · exact hmem
        · rw [if_pos ⟨hne.symm, hfault⟩]
          simp }

/-- Every step keeps the invariant. -/
theorem reportStep_inv (s : PumpReporter F) (op : ReportOp F) (h : s.core.Inv) :
    (reportStep s op).core.Inv := by
  cases op with
  | tick i =>
    simp only [reportStep]
    split_ifs with hrest
    · exact cycleTick_inv h (Option.isNone_iff_eq_none.mp hrest) i
    · exact h
  | rest i =>
    cases hrest : s.rest with
    | none => simpa only [reportStep, hrest] using h
    | some r => simpa only [reportStep, hrest] using cycleRest_inv h hrest i
  | request step =>
    have hrequest : ({ s.core with task := taskStep s.task step } : ReportCore F).Inv :=
      h.behind (taskStep_safe h.safe step) s.sessionUp s.readying s.alerted h.alerted
    cases step with
    | cycle i => exact h
    | requestOn | requestOff | requestRestart | modeSet => exact hrequest
  | sessionReady =>
    simp only [reportStep]
    split_ifs
    · exact h
    · exact h.behind h.safe true true [] fun _ => (nomatch ·)
  | readyAlert =>
    simp only [reportStep]
    split_ifs with hready hfault
    · exact h.behind h.safe s.sessionUp false (s.alerted ++ [s.snap.fault]) fun _ _ _ =>
        .inl (List.mem_append_right _ (List.mem_singleton_self _))
    · exact h.behind h.safe s.sessionUp false s.alerted fun _ _ hne => absurd hne hfault
    · exact h
  | sessionLost =>
    simp only [reportStep]
    split_ifs
    · exact h
    · exact h.behind h.safe false s.readying s.alerted (nomatch ·)
  | linkState poor =>
    simp only [reportStep]
    split_ifs
    · exact h
    · exact h

theorem reportRun_inv (cfg : PmConfig F) (ops : List (ReportOp F)) : (reportRun cfg ops).core.Inv :=
  Machine.run_invariant reportStep reportStep_inv (reporterInit_inv cfg) ops

/-- **Faults reach the session.** In every interleaving of the cycles, the requests and the events
    of the session: while a session is up and neither task is amid its work, a fault that the last
    cycle showed has had its alert since the session began. -/
theorem faults_reach_session (cfg : PmConfig F) (ops : List (ReportOp F))
    (hup : (reportRun cfg ops).sessionUp = true) (hready : (reportRun cfg ops).readying = false)
    (hrest : (reportRun cfg ops).rest = none) (hfault : (reportRun cfg ops).snap.fault ≠ .none) :
    (reportRun cfg ops).snap.fault ∈ (reportRun cfg ops).alerted := by
  rcases (reportRun_inv cfg ops).alerted hup hready hfault with hmem | ⟨hpending, -⟩
  · exact hmem
  · rw [show (reportRun cfg ops).core.rest = none from hrest] at hpending
    cases hpending

/-- Three cycles without a reading, before a session begins. -/
def blindCycles : List (ReportOp Float32) :=
  (List.replicate 3
    [.tick
      { cycle :=
          { cfg := plantConfig
            readOk := false
            mv := 0
            bar := 0.0
            pressureManual := 0
            pressureValue := 0.0
            faultAck := 0
            pumpCommand := 0
            timeUs := 200000 }
        startUs := 200000
        label := 0 },
      .rest { relayOk := true, noiseMv := 0, alertHigh := 0.0, reportInterval := 1 }]).flatten

/-- The broken sensor is reported when the session begins. -/
theorem faults_reach_session_sensor :
    (reportRun plantConfig (blindCycles ++ [.sessionReady, .readyAlert])).snap.fault ∈
      (reportRun plantConfig (blindCycles ++ [.sessionReady, .readyAlert])).alerted := by
  have hrest :
    (reportRun plantConfig (blindCycles ++ [.sessionReady, .readyAlert])).rest.isNone := by
    decide +kernel
  have hfault : (reportRun plantConfig (blindCycles ++ [.sessionReady, .readyAlert])).snap.fault =
      .sensor := by
    decide +kernel
  exact faults_reach_session plantConfig _ (by decide +kernel) (by decide +kernel)
    (Option.isNone_iff_eq_none.mp hrest) (by rw [hfault]; decide)

/-- **The points show the output.** In every interleaving, while no cycle is underway the mirrored
    points are one view of the manager, the last cycle's. With the relay on it is in RUNNING,
    without a fault and not idle, and its state is shown as ON; and unless the relay fails, the pin
    is as the view says. -/
theorem points_show_output (cfg : PmConfig F) (ops : List (ReportOp F))
    (hrest : (reportRun cfg ops).rest = none) :
    (reportRun cfg ops).mirror.snap = (reportRun cfg ops).snap ∧
      ((reportRun cfg ops).mirror.snap.relay = true → (reportRun cfg ops).mirror.snap.Running) ∧
      ((reportRun cfg ops).relayFailed = false →
        (reportRun cfg ops).relayPin = (reportRun cfg ops).mirror.snap.relay) := by
  have hinv := reportRun_inv cfg ops
  have hsettled := hinv.settled hrest
  have hmirror : (reportRun cfg ops).mirror.snap = (reportRun cfg ops).snap := hsettled.mirror
  refine ⟨hmirror, ?_, ?_⟩ <;> rw [hmirror]
  · exact hinv.running
  · exact hsettled.relay

/-- After the cycles without a reading the pin is as it is shown. -/
theorem points_show_output_blind :
    (reportRun plantConfig blindCycles).relayPin =
      (reportRun plantConfig blindCycles).mirror.snap.relay := by
  have hshown := points_show_output plantConfig blindCycles
    (Option.isNone_iff_eq_none.mp (by decide +kernel))
  exact hshown.2.2 (by decide +kernel)

-- ════════════════════════════════════════════════════════════════════════
-- What a listener knows
-- ════════════════════════════════════════════════════════════════════════

/-- What a reader of the events and of the log knows of the pump. -/
structure PumpView where
  state : PmState
  fault : PmFault
  relayFailed : Bool
  label : UInt8

def PumpView.init : PumpView := ⟨.init, .none, false, 0⟩

def PumpView.see (v : PumpView) : PumpNote F → PumpView
  | .stateChanged _ new => { v with state := new }
  | .fault f => { v with fault := f }
  | .faultCleared => { v with fault := .none }
  | .label label => { v with label := label }
  | .relayFail _ recovered => { v with relayFailed := !recovered }
  | .alert _ | .history _ _ | .summary _ _ _ _ | .sample _ _ _ _ _ _ => v

/-- A note fits what the reader knows, and tells something new. -/
def PumpView.News (v : PumpView) : PumpNote F → Prop
  | .stateChanged old new => old = v.state ∧ new ≠ v.state
  | .fault f => f ≠ .none ∧ f ≠ v.fault
  | .faultCleared => v.fault ≠ .none
  | .label label => label ≠ v.label
  | .relayFail _ recovered => recovered = v.relayFailed
  | .alert _ | .history _ _ | .summary _ _ _ _ | .sample _ _ _ _ _ _ => True

/-- What has been told so far. -/
def PumpReporter.told (s : PumpReporter F) : PumpView :=
  ⟨s.prevState, s.prevFault, s.relayFailed, s.prevLabel⟩

/-- Every one of the notes tells something new, and they lead from one view to the other. -/
def PumpView.Hears (v : PumpView) (notes : List (PumpNote F)) (v' : PumpView) : Prop :=
  Machine.Guarded PumpView.see PumpView.News v notes ∧ Machine.run PumpView.see v notes = v'

/-- From `s` to `s'` the notes tell what has changed, and nothing twice. -/
def Tells (s s' : PumpReporter F) : Prop :=
  ∃ notes, s'.out = s.out ++ notes ∧ s.told.Hears notes s'.told

section Tells

variable {s t u : PumpReporter F} {v v' v'' : PumpView} {notes more : List (PumpNote F)}

omit [FloatArith F]

theorem PumpView.Hears.append (h : v.Hears notes v') (h' : v'.Hears more v'') :
    v.Hears (notes ++ more) v'' := by
  obtain ⟨hnews, rfl⟩ := h
  refine ⟨(Machine.guarded_append _ _ _ _ _).mpr ⟨hnews, h'.1⟩, ?_⟩
  rw [Machine.run_append, h'.2]

/-- A note that is put out when something differs leads to a view with the difference. -/
theorem PumpView.hears_if {P : Prop} [Decidable P] (hnews : P → v.Hears notes v')
    (hsame : ¬ P → v = v') : v.Hears (if P then notes else []) v' := by
  split_ifs with hP
  · exact hnews hP
  · exact ⟨trivial, hsame hP⟩

theorem Tells.of_eq (hout : t.out = s.out) (htold : t.told = s.told) : Tells s t :=
  ⟨[], by simp [hout], trivial, htold.symm⟩

theorem Tells.trans (h : Tells s t) (h' : Tells t u) : Tells s u := by
  obtain ⟨notes, hout, hhears⟩ := h
  obtain ⟨more, hout', hhears'⟩ := h'
  exact ⟨notes ++ more, by rw [hout', hout, List.append_assoc], hhears.append hhears'⟩

theorem ticked_tells (s : PumpReporter F) (task : PumpTask F) : Tells s (s.ticked task) :=
  .of_eq rfl rfl

theorem copied_tells (s : PumpReporter F) (r : CycleRest F) : Tells s (s.copied r) :=
  .of_eq rfl rfl

theorem mirrorDps_tells (s : PumpReporter F) (r : CycleRest F) (noiseMv : UInt32) :
    Tells s (mirrorDps s r noiseMv) :=
  .of_eq rfl rfl

theorem labelNote_tells (s : PumpReporter F) (label : UInt8) : Tells s (labelNote s label) := by
  unfold labelNote
  split_ifs with hlabel
  · exact ⟨_, rfl, ⟨hlabel, trivial⟩, rfl⟩
  · exact .of_eq rfl rfl

theorem relayNote_tells (s : PumpReporter F) (relay ok : Bool) :
    Tells s (relayNote s relay ok) := by
  cases hfailed : s.relayFailed <;> cases ok
  · exact ⟨[.relayFail relay false], by simp [relayNote, hfailed, PumpReporter.note],
      ⟨hfailed.symm, trivial⟩, by simp [relayNote, hfailed, PumpReporter.told, PumpReporter.note,
        PumpView.see]⟩
  · exact .of_eq (by simp [relayNote, hfailed]) (by simp [relayNote, hfailed, PumpReporter.told])
  · exact .of_eq (by simp [relayNote, hfailed]) (by simp [relayNote, hfailed, PumpReporter.told])
  · exact ⟨[.relayFail relay true], by simp [relayNote, hfailed, PumpReporter.note],
      ⟨hfailed.symm, trivial⟩, by simp [relayNote, hfailed, PumpReporter.told, PumpReporter.note,
        PumpView.see]⟩

theorem sampleNote_tells (s : PumpReporter F) (r : CycleRest F) (intervalS : UInt32) :
    Tells s (sampleNote s r intervalS) := by
  unfold sampleNote
  dsimp only
  split_ifs
  · exact ⟨_, rfl, ⟨trivial, trivial⟩, rfl⟩
  · exact .of_eq rfl rfl

end Tells

theorem historyNote_tells (s : PumpReporter F) (filter : SensorFilter F) (sample : Sample F)
    (manual : Bool) (now : UInt64) : Tells s (historyNote s filter sample manual now) := by
  unfold historyNote
  split_ifs
  · exact ⟨_, rfl, ⟨trivial, trivial⟩, rfl⟩
  · exact .of_eq rfl rfl

theorem overPressureNote_tells (s : PumpReporter F) (r : CycleRest F) (high : F) :
    Tells s (overPressureNote s r high) := by
  unfold overPressureNote
  dsimp only
  split_ifs
  · exact ⟨_, rfl, ⟨trivial, trivial⟩, rfl⟩
  all_goals exact .of_eq rfl rfl

/-- The edges of the state and of the fault are told one after the other; the summary of an event
    adds nothing to the view. -/
theorem reportEdges_tells (s : PumpReporter F) (snap : PumpSnap F) :
    Tells s (reportEdges s snap) := by
  refine ⟨edgeNotes s snap, rfl, ?_⟩
  have hstate : s.told.Hears
      (if snap.state ≠ s.prevState then [PumpNote.stateChanged s.prevState snap.state] else [])
      ({ s.told with state := snap.state } : PumpView) :=
    PumpView.hears_if (F := F) (fun hne => ⟨⟨⟨rfl, hne⟩, trivial⟩, rfl⟩)
      fun heq => by rw [not_not.mp heq]; rfl
  have hfault : ({ s.told with state := snap.state } : PumpView).Hears
      (if snap.fault ≠ s.prevFault then
        if snap.fault ≠ .none then
          ([.fault snap.fault, .alert (faultAlert snap.fault "pump fault latched")] :
            List (PumpNote F))
        else [.faultCleared]
      else []) (reportEdges s snap).told := by
    refine PumpView.hears_if (fun hne => ?_) fun heq => ?_
    · split_ifs with hnew
      · exact ⟨⟨⟨hnew, hne⟩, trivial, trivial⟩, rfl⟩
      · have hnone : snap.fault = .none := not_not.mp hnew
        refine ⟨⟨fun hprev => hne (hnone.trans hprev.symm), trivial⟩, ?_⟩
        change (⟨snap.state, .none, s.relayFailed, s.prevLabel⟩ : PumpView) =
          ⟨snap.state, snap.fault, s.relayFailed, s.prevLabel⟩
        rw [hnone]
    · change (⟨snap.state, s.prevFault, s.relayFailed, s.prevLabel⟩ : PumpView) =
        ⟨snap.state, snap.fault, s.relayFailed, s.prevLabel⟩
      rw [not_not.mp heq]
  exact (hstate.append hfault).append
    (PumpView.hears_if (fun _ => ⟨⟨trivial, trivial⟩, rfl⟩) fun _ => rfl)

theorem cycleTick_tells (s : PumpReporter F) (i : TickInput F) : Tells s (cycleTick s i) := by
  unfold cycleTick
  dsimp only
  exact (historyNote_tells s _ _ _ _).trans <| (ticked_tells _ _).trans <|
    (labelNote_tells _ _).trans (copied_tells _ _)

theorem cycleRest_tells (s : PumpReporter F) (r : CycleRest F) (i : RestInput F) :
    Tells s (cycleRest s r i) := by
  have hbegin : Tells s { s with rest := none } := .of_eq rfl rfl
  exact hbegin.trans <| (relayNote_tells _ _ _).trans <| (mirrorDps_tells _ r i.noiseMv).trans <|
    (reportEdges_tells _ r.snap).trans <| (overPressureNote_tells _ r i.alertHigh).trans <|
      sampleNote_tells _ r i.reportInterval

/-- Every step tells what it changes. -/
theorem reportStep_tells (s : PumpReporter F) (op : ReportOp F) : Tells s (reportStep s op) := by
  cases op with
  | tick i =>
    simp only [reportStep]
    split_ifs
    · exact cycleTick_tells s i
    · exact .of_eq rfl rfl
  | rest i =>
    simp only [reportStep]
    split
    · exact cycleRest_tells s _ i
    · exact .of_eq rfl rfl
  | request step => cases step <;> exact .of_eq rfl rfl
  | readyAlert =>
    simp only [reportStep]
    split_ifs
    · exact ⟨_, rfl, ⟨trivial, trivial⟩, rfl⟩
    all_goals exact .of_eq rfl rfl
  | sessionReady | sessionLost | linkState =>
    simp only [reportStep]
    split_ifs <;> exact .of_eq rfl rfl

/-- **The events tell the state.** In every interleaving a listener that folds the published events
    and the records of the log from the start follows the pump without a gap or a repetition: every
    change of the state names the state before it, every fault and every failure of the relay is
    new, and nothing is cleared or recovered that was not reported. While no cycle is underway, the
    listener knows the state and the fault of the last one. -/
theorem events_tell_state (cfg : PmConfig F) (ops : List (ReportOp F)) :
    let s := reportRun cfg ops
    PumpView.init.Hears s.out s.told ∧
      (s.rest = none → s.told = ⟨s.snap.state, s.snap.fault, s.relayFailed, s.prevLabel⟩) := by
  have htells : Tells (reporterInit cfg) (reportRun cfg ops) :=
    Machine.run_invariant reportStep (P := Tells (reporterInit cfg))
      (fun s op h => h.trans (reportStep_tells s op)) (.of_eq rfl rfl) ops
  obtain ⟨notes, hout, hhears⟩ := htells
  refine ⟨?_, fun hrest => ?_⟩
  · rw [hout]
    exact hhears
  · have hsettled := (reportRun_inv cfg ops).settled hrest
    have hstate : (reportRun cfg ops).prevState = (reportRun cfg ops).snap.state := hsettled.state
    have hfault : (reportRun cfg ops).prevFault = (reportRun cfg ops).snap.fault := hsettled.fault
    rw [PumpReporter.told, hstate, hfault]

end Fountainer.Pump
