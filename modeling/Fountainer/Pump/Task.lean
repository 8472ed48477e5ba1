import Fountainer.Pump.Manager

/-!
# The pump task

The functions of `pump_task.c` around the pump manager: a cycle reads the
sensor, filters the reading, ticks the manager and polls the command points,
and remote requests reach the manager between the cycles, serialized by the
lock. A cycle's single function body is split at its own section comments.
-/

namespace Fountainer.Pump

variable {F : Type*} [FloatArith F]

open FloatArith (fabs)

/-- `PUMP_SENSOR_MIN_MV`: below it the wire or the sensor is broken. -/
def pumpSensorMinMv : UInt32 := 300

/-- `PUMP_SENSOR_FAIL_LIMIT`: consecutive bad readings that report a broken sensor. -/
def pumpSensorFailLimit : UInt8 := 3

/-- `PUMP_MAX_JUMP_BAR`. -/
def pumpMaxJumpBar : F := 5.0

/-- `PUMP_JUMP_RESYNC_N`: consistent rejected readings that adopt a new level. -/
def pumpJumpResyncN : UInt8 := 5

/-- `PUMP_JUMP_CONSIST_BAR`. -/
def pumpJumpConsistBar : F := 1.0

/-- `PUMP_TASK_PERIOD_MS`. -/
def pumpTaskPeriodMs : UInt32 := 200

/-- The time of the microsecond timer in milliseconds. -/
def nowMs (timeUs : UInt64) : UInt64 := timeUs / 1000

/-- The state of the jump filter and of the debounce. -/
structure SensorFilter (F : Type*) where
  haveGood : Bool
  lastGoodBar : F
  jumpPending : UInt8
  jumpPendingBar : F
  sensorFails : UInt8
  sensorErrTotal : UInt32

def SensorFilter.init : SensorFilter F where
  haveGood := false
  lastGoodBar := 0.0
  jumpPending := 0
  jumpPendingBar := 0.0
  sensorFails := 0
  sensorErrTotal := 0

/-- What a cycle reads: the configuration points, the sensor, the simulation
    points, the command points and the time at which it takes the lock. -/
structure CycleInput (F : Type*) where
  cfg : PmConfig F
  readOk : Bool
  mv : UInt32
  bar : F
  pressureManual : UInt8
  pressureValue : F
  faultAck : UInt8
  pumpCommand : UInt8
  timeUs : UInt64

/-- The pressure of a cycle, whether the reading passed, the health reported to
    the manager and the pressure handed to it. -/
structure Sample (F : Type*) where
  bar : F
  measOk : Bool
  sensorOk : Bool
  useBar : F

/-- The reading, or the simulated pressure, which is always valid. -/
def measure (i : CycleInput F) : F × Bool :=
  if i.pressureManual ≠ 0 then (i.pressureValue, true)
  else (i.bar, i.readOk && decide (pumpSensorMinMv ≤ i.mv))

/-- A step that the plant cannot make within one cycle. -/
def jumps (bar lastGoodBar : F) : Bool := decide (pumpMaxJumpBar < fabs (bar - lastGoodBar))

def consistent (bar anchor : F) : Bool := decide (fabs (bar - anchor) ≤ pumpJumpConsistBar)

/-- Counts a jump towards the candidate it is consistent with, or makes it the
    new candidate. -/
def notePending (s : SensorFilter F) (bar : F) : SensorFilter F :=
  if s.jumpPending ≠ 0 ∧ consistent bar s.jumpPendingBar then
    { s with jumpPending := s.jumpPending + 1 }
  else { s with jumpPendingBar := bar, jumpPending := 1 }

/-- Physically impossible steps are glitches, unless enough consistent readings
    in a row show a new level. -/
def jumpFilter (s : SensorFilter F) (manual : Bool) (bar : F) (measOk : Bool) :
    SensorFilter F × Bool :=
  if ¬ manual ∧ measOk ∧ s.haveGood ∧ jumps bar s.lastGoodBar then
    let s := notePending s bar
    if s.jumpPending ≥ pumpJumpResyncN then ({ s with jumpPending := 0 }, true)
    else (s, false)
  else
    -- An accepted or invalid sample breaks the sequence.
    ({ s with jumpPending := 0 }, measOk)

def debounce (s : SensorFilter F) (bar : F) (measOk : Bool) : SensorFilter F :=
  if measOk then { s with sensorFails := 0, lastGoodBar := bar, haveGood := true }
  else { s with
    sensorFails := if s.sensorFails < 255 then s.sensorFails + 1 else s.sensorFails
    sensorErrTotal := s.sensorErrTotal + 1 }

/-- The sensor part of a cycle. -/
def sensorCycle (s : SensorFilter F) (i : CycleInput F) : SensorFilter F × Sample F :=
  let (bar, measOk) := measure i
  let (s, measOk) := jumpFilter s (i.pressureManual != 0) bar measOk
  let s := debounce s bar measOk
  (s,
    { bar := bar
      measOk := measOk
      sensorOk := measOk || decide (s.sensorFails < pumpSensorFailLimit)
      useBar := if measOk then bar else if s.haveGood then s.lastGoodBar else 0.0 })

/-- The filter after a cycle. -/
abbrev SensorFilter.next (s : SensorFilter F) (i : CycleInput F) : SensorFilter F :=
  (sensorCycle s i).1

/-- `Fon_Pump_Command`: the requests of the protocol under numbers. -/
def pumpCommand (s : Pm F) (cmd : UInt8) (now : UInt64) : Pm F :=
  match cmd with
  | 1 => (pmRequestOn s 0 now).2
  | 2 => (pmRequestOff s now).2
  | 3 => (pmModeSet s .auto now).2
  | 4 => (pmModeSet s .manual now).2
  | 5 => (pmRequestRestart s now).2
  | _ => s

/-- The command comes before the acknowledge. -/
def pollCommandDps (s : Pm F) (cmd ack : UInt8) (sensorOk : Bool) (now : UInt64) : Pm F :=
  let s := pumpCommand s cmd now
  if ack ≠ 0 then (pmFaultAck s sensorOk now).2 else s

structure PumpTask (F : Type*) where
  pm : Pm F
  cyclesPerCfg : UInt32
  sensor : SensorFilter F

def pumpTaskInit (cfg : PmConfig F) : PumpTask F where
  pm := pmInit cfg
  cyclesPerCfg := 0
  sensor := .init

/-- The manager takes the configuration points over once a second. -/
def configRefresh (t : PumpTask F) (cfg : PmConfig F) : PumpTask F :=
  let cycles := t.cyclesPerCfg + 1
  if cycles ≥ 1000 / pumpTaskPeriodMs then
    { t with cyclesPerCfg := 0, pm := pmConfigSet t.pm cfg }
  else { t with cyclesPerCfg := cycles }

def pumpTaskCycle (t : PumpTask F) (i : CycleInput F) : PumpTask F × Sample F :=
  let t := configRefresh t i.cfg
  let (sensor, sample) := sensorCycle t.sensor i
  let now := nowMs i.timeUs
  let pm := pmUpdate t.pm sample.useBar sample.sensorOk now
  let pm := pollCommandDps pm i.pumpCommand i.faultAck sample.sensorOk now
  ({ t with pm := pm, sensor := sensor }, sample)

-- ════════════════════════════════════════════════════════════════════════
-- Remote requests
-- ════════════════════════════════════════════════════════════════════════

/-- Runs a request of the manager under the lock. -/
def PumpTask.locked (t : PumpTask F) (request : Pm F → UInt64 → Bool × Pm F) (timeUs : UInt64) :
    Bool × PumpTask F :=
  let (ok, pm) := request t.pm (nowMs timeUs)
  (ok, { t with pm := pm })

def pumpRequestOn (t : PumpTask F) (maxDurationS : UInt32) (timeUs : UInt64) : Bool × PumpTask F :=
  t.locked (fun pm now => pmRequestOn pm maxDurationS now) timeUs

def pumpRequestOff (t : PumpTask F) (timeUs : UInt64) : Bool × PumpTask F :=
  t.locked pmRequestOff timeUs

def pumpRequestRestart (t : PumpTask F) (timeUs : UInt64) : Bool × PumpTask F :=
  t.locked pmRequestRestart timeUs

def pumpModeSet (t : PumpTask F) (mode : PmMode) (timeUs : UInt64) : Bool × PumpTask F :=
  t.locked (fun pm now => pmModeSet pm mode now) timeUs

/-- A cycle of the task, or a remote request. A request that comes in while a cycle
    reads the sensor is served before the manager's tick, so it stands before the cycle. -/
inductive TaskStep (F : Type*) where
  | cycle (i : CycleInput F)
  | requestOn (maxDurationS : UInt32) (timeUs : UInt64)
  | requestOff (timeUs : UInt64)
  | requestRestart (timeUs : UInt64)
  | modeSet (mode : PmMode) (timeUs : UInt64)

def TaskStep.cycle? : TaskStep F → Option (CycleInput F)
  | .cycle i => some i
  | _ => none

def taskStep (t : PumpTask F) : TaskStep F → PumpTask F
  | .cycle i => (pumpTaskCycle t i).1
  | .requestOn maxDurationS timeUs => (pumpRequestOn t maxDurationS timeUs).2
  | .requestOff timeUs => (pumpRequestOff t timeUs).2
  | .requestRestart timeUs => (pumpRequestRestart t timeUs).2
  | .modeSet mode timeUs => (pumpModeSet t mode timeUs).2

/-- The task after its initialisation and the steps, in order. -/
def taskRun (cfg : PmConfig F) (steps : List (TaskStep F)) : PumpTask F :=
  Machine.run taskStep (pumpTaskInit cfg) steps

/-- The inputs of the cycles among the steps. -/
def cycles (steps : List (TaskStep F)) : List (CycleInput F) := steps.filterMap TaskStep.cycle?

omit [FloatArith F] in
theorem cycles_append (pre post : List (TaskStep F)) :
    cycles (pre ++ post) = cycles pre ++ cycles post :=
  List.filterMap_append

omit [FloatArith F] in
@[simp] theorem configRefresh_sensor (t : PumpTask F) (cfg : PmConfig F) :
    (configRefresh t cfg).sensor = t.sensor := by
  unfold configRefresh
  dsimp only
  split_ifs <;> rfl

@[simp] theorem pumpTaskCycle_sensor (t : PumpTask F) (i : CycleInput F) :
    (pumpTaskCycle t i).1.sensor = (sensorCycle t.sensor i).1 := by
  simp [pumpTaskCycle]

@[simp] theorem pumpTaskCycle_sample (t : PumpTask F) (i : CycleInput F) :
    (pumpTaskCycle t i).2 = (sensorCycle t.sensor i).2 := by
  simp [pumpTaskCycle]

/-- Only the cycles move the filter. -/
theorem run_taskStep_sensor (t : PumpTask F) (steps : List (TaskStep F)) :
    (Machine.run taskStep t steps).sensor =
      Machine.run SensorFilter.next t.sensor (cycles steps) := by
  induction steps generalizing t with
  | nil => rfl
  | cons step steps ih =>
    rw [Machine.run_cons, ih]
    cases step with
    | cycle i => rw [show taskStep t (.cycle i) = (pumpTaskCycle t i).1 from rfl,
        pumpTaskCycle_sensor]; rfl
    | requestOn | requestOff | requestRestart | modeSet => rfl

end Fountainer.Pump
