import Fountainer.Lib.Runs
import Mathlib.Data.Int.Basic
import Mathlib.Logic.Function.Basic

/-!
# The application watchdog

`app_watchdog.c`: supervised channels with a deadline, soft recoveries and the escalation to
a reboot, which a counter in RTC memory brakes. Times are in microseconds, as
`esp_timer_get_time` gives them. What the injected functions answer comes with the call;
`out` records what the current call does.
-/

namespace Fountainer.Watchdog

/-- `WD_MAX_CHANNELS`. -/
def wdMaxChannels : UInt32 := 8

/-- `WD_REBOOT_BRAKE_MAX`. -/
def wdRebootBrakeMax : UInt8 := 3

/-- `WD_RTC_MAGIC`. -/
def wdRtcMagic : UInt32 := 0x57444F47

/-- `wd_rtc_t`: what survives a software reset. -/
structure WdRtc where
  magic : UInt32
  pending : UInt8
  channel : UInt8
  checkpoint : UInt16
  softCount : UInt8
  rebootsWithoutSuccess : UInt8
  uptimeS : UInt32
  deriving DecidableEq, Repr

/-- `wd_channel_def_t`. Of the functions only their presence. -/
structure WdChannelDef where
  name : Option String
  deadlineMs : UInt32
  maxSoft : UInt8
  recover : Bool
  rebootAllowed : Bool
  escalateReboot : Bool
  deriving DecidableEq, Repr

/-- `wd_channel_t`. -/
structure WdChannel where
  used : Bool
  info : WdChannelDef
  lastBeatUs : ℤ
  checkpoint : UInt16
  softCount : UInt8
  inTimeout : Bool
  brakeLogged : Bool
  deriving DecidableEq, Repr

/-- `wd_boot_diag_t`. -/
structure WdBootDiag where
  valid : Bool
  channel : UInt8
  checkpoint : UInt16
  softCount : UInt8
  uptimeS : UInt32
  rebootsWithoutSuccess : UInt8
  deriving DecidableEq, Repr

/-- `esp_err_t`, as far as the component returns it. -/
inductive EspErr where
  | ok
  | invalidArg
  | invalidState
  deriving DecidableEq, Repr

/-- The events of the watchdog in `system_event_t`. -/
inductive WdEvent where
  | timeout
  | recoveryStarted
  | recoverySuccess
  | recoveryFailed
  | rebootRequested
  deriving DecidableEq, Repr

/-- The records that the watchdog logs. -/
inductive WdRecord where
  | timeout
  | recovered
  | reboot
  | brake
  deriving DecidableEq, Repr

/-- What a call does outside: a soft stage, an attempt to escalate, the injected actions,
    events and log records. -/
inductive WdAct where
  | stage (id : UInt32)
  | attempt (id : UInt32)
  | recover (id : UInt32)
  | reboot (id : UInt32) (delayMs : UInt32) (accepted : Bool)
  | publish (e : WdEvent) (taskId : UInt8) (reason : Int32)
  | log (r : WdRecord) (id value : UInt32) (text : Option String)
  deriving DecidableEq, Repr

/-- The statics of the component, in RAM and in RTC memory. -/
structure Wd where
  ch : UInt32 → WdChannel
  diag : WdBootDiag
  rtc : WdRtc
  hook : Bool
  out : List WdAct

/-- A zeroed channel. -/
def blankChannel : WdChannel where
  used := false
  info := { name := none, deadlineMs := 0, maxSoft := 0, recover := false, rebootAllowed := false
            escalateReboot := false }
  lastBeatUs := 0
  checkpoint := 0
  softCount := 0
  inTimeout := false
  brakeLogged := false

/-- A zeroed diagnosis. -/
def blankDiag : WdBootDiag := ⟨false, 0, 0, 0, 0, 0⟩

def Wd.emit (w : Wd) (a : WdAct) : Wd := { w with out := w.out ++ [a] }

def Wd.setCh (w : Wd) (id : UInt32) (c : WdChannel) : Wd :=
  { w with ch := Function.update w.ch id c }

/-- `publish_wd_event`. -/
def publishWdEvent (w : Wd) (e : WdEvent) (id : UInt32) (reason : Int32) : Wd :=
  w.emit (.publish e id.toUInt8 reason)

/-- `wd_init`. -/
def wdInit (w : Wd) : Wd :=
  let w := { w with ch := fun _ => blankChannel, diag := blankDiag }
  if w.rtc.magic ≠ wdRtcMagic then
    { w with rtc := ⟨wdRtcMagic, 0, 0, 0, 0, 0, 0⟩ }
  else if w.rtc.pending ≠ 0 then
    { w with
      diag := ⟨true, w.rtc.channel, w.rtc.checkpoint, w.rtc.softCount, w.rtc.uptimeS,
        w.rtc.rebootsWithoutSuccess⟩
      rtc := { w.rtc with pending := 0 } }
  else w

/-- `wd_register`. -/
def wdRegister (w : Wd) (id : UInt32) (info : Option WdChannelDef) (now : ℤ) : EspErr × Wd :=
  match info with
  | none => (.invalidArg, w)
  | some d =>
    if wdMaxChannels ≤ id ∨ d.name = none ∨ d.deadlineMs = 0 then (.invalidArg, w)
    else if (w.ch id).used then (.invalidState, w)
    else (.ok, w.setCh id { w.ch id with used := true, info := d, lastBeatUs := now })

/-- `wd_heartbeat`. -/
def wdHeartbeat (w : Wd) (id : UInt32) (now : ℤ) : Wd :=
  if wdMaxChannels ≤ id ∨ !(w.ch id).used then w
  else
    let c := w.ch id
    let w := w.setCh id
      { c with lastBeatUs := now, softCount := 0, inTimeout := false, brakeLogged := false }
    if c.inTimeout then
      (publishWdEvent w .recoverySuccess id c.softCount.toUInt32.toInt32).emit
        (.log .recovered id c.softCount.toUInt32 c.info.name)
    else w

/-- `wd_checkpoint`. -/
def wdCheckpoint (w : Wd) (id : UInt32) (checkpoint : UInt16) : Wd :=
  if wdMaxChannels ≤ id ∨ !(w.ch id).used then w
  else w.setCh id { w.ch id with checkpoint := checkpoint }

/-- `wd_session_success_note`. -/
def wdSessionSuccessNote (w : Wd) : Wd :=
  { w with rtc := { w.rtc with rebootsWithoutSuccess := 0 } }

/-- What the surroundings answer during a check: the channel's probe, the reboot hook, and the
    clock at the escalation. -/
structure CheckEnv where
  probe : Bool
  accepted : Bool
  nowUs : ℤ
  deriving DecidableEq, Repr

/-- `escalate`. -/
def escalate (w : Wd) (id : UInt32) (env : CheckEnv) : Wd :=
  let c := w.ch id
  if c.info.rebootAllowed ∧ !env.probe then w
  else if wdRebootBrakeMax ≤ w.rtc.rebootsWithoutSuccess then
    if !c.brakeLogged then
      let w := w.emit (.log .brake id w.rtc.rebootsWithoutSuccess.toUInt32 c.info.name)
      let w := publishWdEvent w .recoveryFailed id w.rtc.rebootsWithoutSuccess.toUInt32.toInt32
      w.setCh id { c with brakeLogged := true }
    else w
  else if !w.hook then w
  else
    let w := { w with rtc := { w.rtc with
      pending := 1
      channel := id.toUInt8
      checkpoint := c.checkpoint
      softCount := c.softCount
      uptimeS := UInt32.ofInt (env.nowUs.tdiv 1000000)
      rebootsWithoutSuccess := w.rtc.rebootsWithoutSuccess + 1 } }
    let w := w.emit (.log .reboot id c.checkpoint.toUInt32 c.info.name)
    let w := publishWdEvent w .rebootRequested id c.checkpoint.toUInt32.toInt32
    let w := w.emit (.reboot id 2000 env.accepted)
    if !env.accepted then { w with rtc := { w.rtc with pending := 0 } } else w

/-- The time since the last beat in milliseconds, in 32 bits. -/
def elapsedMs (c : WdChannel) (now : ℤ) : UInt32 := UInt32.ofInt ((now - c.lastBeatUs).tdiv 1000)

/-- `check_channel`, with the time that the pass has captured. -/
def checkChannel (w : Wd) (id : UInt32) (now : ℤ) (env : CheckEnv) : Wd :=
  let c := w.ch id
  let elapsed := elapsedMs c now
  if elapsed < c.info.deadlineMs then w
  else if c.softCount < c.info.maxSoft then
    let soft := c.softCount + 1
    let w := w.setCh id { c with inTimeout := true, softCount := soft, lastBeatUs := now }
    let w := w.emit (.stage id)
    let w := w.emit (.log .timeout id soft.toUInt32 c.info.name)
    let w := publishWdEvent w .timeout id elapsed.toInt32
    if c.info.recover then
      (publishWdEvent w .recoveryStarted id soft.toUInt32.toInt32).emit (.recover id)
    else w
  else
    let w := w.setCh id { c with inTimeout := true, lastBeatUs := now }
    if c.info.escalateReboot then
      let w := escalate (w.emit (.attempt id)) id env
      if c.info.recover then w.emit (.recover id) else w
    else w

/-- What happens to the watchdog: boots, the calls of the application, and the turns of
    `wd_task` for single channels. A pass is eight turns with one captured time, and other
    tasks may run in between. -/
inductive WdOp where
  | powerOn (rtc : { r : WdRtc // r.magic ≠ wdRtcMagic })
  | reboot
  | hookSet (present : Bool)
  | register (id : UInt32) (info : Option WdChannelDef) (now : ℤ)
  | heartbeat (id : UInt32) (now : ℤ)
  | checkpoint (id : UInt32) (checkpoint : UInt16)
  | success
  | check (id : UInt32) (now : ℤ) (env : CheckEnv)

/-- The statics after a reset, before `wd_init`. -/
def resetStatics (rtc : WdRtc) : Wd where
  ch _ := blankChannel
  diag := blankDiag
  rtc := rtc
  hook := false
  out := []

/-- One operation. A power-on leaves RTC memory without the magic number. -/
def wdStep (w : Wd) : WdOp → Wd
  | .powerOn rtc => wdInit (resetStatics rtc)
  | .reboot => wdInit (resetStatics w.rtc)
  | .hookSet present => { w with hook := present, out := [] }
  | .register id info now => (wdRegister { w with out := [] } id info now).2
  | .heartbeat id now => wdHeartbeat { w with out := [] } id now
  | .checkpoint id checkpoint => wdCheckpoint { w with out := [] } id checkpoint
  | .success => wdSessionSuccessNote { w with out := [] }
  | .check id now env =>
    if id < wdMaxChannels ∧ (w.ch id).used then checkChannel { w with out := [] } id now env
    else { w with out := [] }

/-- The watchdog after the operations, from a power-on. -/
def wdRun (rtc : { r : WdRtc // r.magic ≠ wdRtcMagic }) (ops : List WdOp) : Wd :=
  Machine.run wdStep (wdInit (resetStatics rtc)) ops

end Fountainer.Watchdog
