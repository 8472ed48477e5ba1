import Fountainer.Lib.FloatArith

/-!
# Data of the pump manager

The types of `pump_manager.h`. Times are unsigned 64-bit milliseconds and the
configured intervals unsigned 32-bit milliseconds, as in the source, so that
differences of times wrap. Pressures have an arbitrary type `F` with the
operations of a C `float`.
-/

namespace Fountainer.Pump

/-- `pm_state_t`. -/
inductive PmState where
  | init
  | idle
  | pressureDrop
  | starting
  | running
  | recovering
  | lockout
  | fault
  deriving DecidableEq, Repr

/-- `pm_mode_t`. -/
inductive PmMode where
  | manual
  | auto
  deriving DecidableEq, Repr

/-- `pm_demand_t`. -/
inductive PmDemand where
  | none
  | unknown
  | hand
  | tank
  | leakSuspect
  | pipeBreak
  | sensorFault
  deriving DecidableEq, Repr

/-- `pm_fault_t`. -/
inductive PmFault where
  | none
  | sensor
  | criticalLow
  | maxRuntime
  | dryRun
  | tooManyStarts
  deriving DecidableEq, Repr

/-- `pm_config_t`: the thresholds, from the `Fon_*` datapoints. -/
structure PmConfig (F : Type*) where
  onBar : F
  offBar : F
  criticalBar : F
  handMinBar : F
  handMaxBar : F
  tankMinBar : F
  tankMaxBar : F
  filterAlpha : F
  stableSlopeBarS : F
  dryMinRiseBar : F
  flowKHand : F
  flowKTank : F
  dropConfirmMs : UInt32
  minOnMs : UInt32
  minOffMs : UInt32
  maxOnMs : UInt32
  dryDetectMs : UInt32
  recoveryTimeoutMs : UInt32
  handMaxMs : UInt32
  tankMaxMs : UInt32
  unknownMaxMs : UInt32
  maxStartsPerHour : UInt8
  deriving DecidableEq

/-- `PM_START_HISTORY`: start stamps kept for the hourly guard. -/
abbrev pmStartHistory : ℕ := 16

/-- `PM_MANUAL_MAX_ON_S`: the ceiling of a time-limited manual run, 15 min. -/
def pmManualMaxOnS : UInt32 := 900

/-- `pm_metrics_t`. -/
structure PmMetrics (F : Type*) where
  pressureBar : F
  pressureFilteredBar : F
  pressureSlopeBarS : F
  plateauBar : F
  demand : PmDemand
  anomalyScore : UInt16
  eventDurationMs : UInt32
  eventStartBar : F
  eventMinBar : F
  eventMaxBar : F
  estFlowLMin : F
  estVolumeLEvent : F
  estVolumeLTotal : F
  runTimeS : UInt32
  remainingS : UInt32
  cyclesTotal : UInt32
  startsLastHour : UInt8
  deriving DecidableEq

/-- `pm_t`. The write index of the start ring is reduced modulo
    `PM_START_HISTORY` at every write, so it is an index of the ring. -/
structure Pm (F : Type*) where
  cfg : PmConfig F
  state : PmState
  mode : PmMode
  fault : PmFault
  relayOn : Bool
  stateEnterMs : UInt64
  lastUpdateMs : UInt64
  pumpStartMs : UInt64
  pumpStopMs : UInt64
  eventStartMs : UInt64
  manualUntilMs : UInt64
  startBar : F
  lastFilteredBar : F
  startsMs : Fin pmStartHistory → UInt64
  startsIdx : Fin pmStartHistory
  m : PmMetrics F

end Fountainer.Pump
