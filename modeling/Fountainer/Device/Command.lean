import Fountainer.Pump.Sensor
import Fountainer.Protocol.Session

/-!
# Commands

The command module `command.c` and `task_com_apply_command` of `task_com.c` in front of it:
a verified command message is mapped to a command, and the command to a request of the
pump task. A timed command travels as a number of 30-second steps through a JSON number, an
unsigned product and the clamp of the pump manager, where 0 stands for an unlimited run.
-/

namespace Fountainer.Device

open Bytes (CString)
open Datapoints (Json)
open Protocol (Json.get? text)
open Pump

variable {F : Type*} [FloatArith F]

/-- `command_id_t`. -/
inductive CommandId where
  | relayOn
  | relayOff
  | relayOnDuration
  | auto
  | manual
  | restart
  | reboot
  | wdFault
  deriving DecidableEq, Repr

/-- `command_t`. -/
structure Command where
  id : CommandId
  arg : UInt32
  deriving DecidableEq, Repr

/-- `command_result_t`. -/
structure CommandResult where
  relayOn : Bool
  isAuto : Bool
  ok : Bool
  deriving DecidableEq, Repr

/-- `DURATION_STEP_S`. -/
def durationStepS : UInt32 := 30

/-- What the commands reach: the pump task, the relay state of the hardware layer, the end
    of a forced poor link, the block of the measure cycle and the delay of a reboot. -/
structure CommandState (F : Type*) where
  pump : PumpTask F
  relayOn : Bool
  testPoorUntilS : UInt32
  testBlockS : UInt32
  rebootDelayMs : UInt32

/-- What a command finds outside: the timer, the uptime in seconds and whether the task of a
    deferred reboot can be created. -/
structure CommandEnv where
  timeUs : UInt64
  upS : UInt32
  reboots : Bool

/-- `strcmp` with a literal. -/
def isText (s : CString) (lit : String) : Bool := s.bytes == text lit

/-- `command_protocol_map`. -/
def commandProtocolMap (cmd : CString) (target : Option CString) (steps : UInt32) :
    Option Command :=
  if isText cmd "set_state" then
    match target with
    | some target =>
      if isText target "On" then some ⟨.relayOn, 0⟩
      else if isText target "Off" then some ⟨.relayOff, 0⟩
      else if isText target "Auto" then some ⟨.auto, 0⟩
      else if isText target "Manual" then some ⟨.manual, 0⟩
      else none
    | none => none
  else if isText cmd "turn_on_duration" then some ⟨.relayOnDuration, steps⟩
  else if isText cmd "restart" then some ⟨.restart, 0⟩
  else if isText cmd "reboot" then some ⟨.reboot, 0⟩
  else if isText cmd "wd_fault" then some ⟨.wdFault, steps⟩
  else none

/-- The device after a request of the pump task, with the answer of the request. -/
def CommandState.withPump (d : CommandState F) (r : Bool × PumpTask F) : Bool × CommandState F :=
  (r.1, { d with pump := r.2 })

/-- `system_reboot_deferred`. -/
def systemRebootDeferred (env : CommandEnv) (d : CommandState F) (delayMs : UInt32) :
    Bool × CommandState F :=
  (env.reboots, { d with rebootDelayMs := delayMs })

/-- `command_execute`. -/
def commandExecute (env : CommandEnv) (d : CommandState F) (cmd : Command) :
    CommandResult × CommandState F :=
  let (ok, isAuto, d) :=
    match cmd.id with
    | .relayOn =>
      let (ok, d) := d.withPump (pumpRequestOn d.pump 0 env.timeUs)
      (ok, false, d)
    | .relayOff =>
      let (ok, d) := d.withPump (pumpRequestOff d.pump env.timeUs)
      (ok, false, d)
    | .relayOnDuration =>
      let (ok, d) := d.withPump (pumpRequestOn d.pump (cmd.arg * durationStepS) env.timeUs)
      (ok, false, d)
    | .auto =>
      let (ok, d) := d.withPump (pumpModeSet d.pump .auto env.timeUs)
      (ok, true, d)
    | .manual =>
      let (ok, d) := d.withPump (pumpModeSet d.pump .manual env.timeUs)
      (ok, false, d)
    | .restart =>
      let (ok, d) := d.withPump (pumpRequestRestart d.pump env.timeUs)
      (ok, false, d)
    | .reboot =>
      -- The answer of the switch-off is not looked at.
      let (_, d) := d.withPump (pumpRequestOff d.pump env.timeUs)
      let (ok, d) := systemRebootDeferred env d 800
      (ok, false, d)
    | .wdFault => (true, false, { d with testBlockS := cmd.arg })
  ({ relayOn := d.relayOn, isAuto := isAuto, ok := ok }, d)

/-- `status` and `error` of a `command_result`. -/
structure CommandAnswer where
  status : String
  error : Option String
  deriving DecidableEq, Repr

def applied : CommandAnswer := ⟨"applied", none⟩

def rejected (error : String) : CommandAnswer := ⟨"rejected", some error⟩

/-- A field of the message that counts only as a string. -/
def stringField (msg : Json) (key : String) : Option CString :=
  match Json.get? msg key with
  | some (.string s) => some s
  | _ => none

/-- `duration_steps` as the code reads it: 0 when it is missing or not a number. -/
def durationSteps (msg : Json) : UInt32 :=
  match Json.get? msg "duration_steps" with
  | some (.number x) => x.toUInt32
  | _ => 0

/-- `task_com_apply_command`. -/
def taskComApplyCommand (env : CommandEnv) (d : CommandState F) (msg : Json) :
    CommandAnswer × CommandState F :=
  let steps := durationSteps msg
  match stringField msg "command" with
  | none => (rejected "unknown_command", d)
  | some cmd =>
    if isText cmd "link_fault" then
      (applied, { d with testPoorUntilS := env.upS + (if steps ≠ 0 then steps else 60) })
    else
      match commandProtocolMap cmd (stringField msg "target_state") steps with
      | none => (rejected "unknown_command", d)
      | some c =>
        let (result, d) := commandExecute env d c
        if result.ok then (applied, d) else (rejected "not_permitted", d)

/-- A message with the command `turn_on_duration`. -/
def IsTurnOnDuration (msg : Json) : Prop :=
  ∃ cmd, stringField msg "command" = some cmd ∧ cmd.bytes = text "turn_on_duration"

-- ════════════════════════════════════════════════════════════════════════
-- Timed commands
-- ════════════════════════════════════════════════════════════════════════

/-- The end of the manual run that the message asks for, without wrap-around. -/
def TimedAsAsked (now : UInt64) (steps : UInt32) (s : Pm F) : Prop :=
  s.manualUntilMs ≠ 0 ∧
    s.manualUntilMs.toNat = now.toNat + min (30 * steps.toNat) 900 * 1000

/-- The pump manager refuses a switch-on. -/
def RefusesOn (s : Pm F) (now : UInt64) : Prop :=
  (s.state = .fault ∨ s.state = .init) ∨ s.cfg.offBar ≤ s.m.pressureFilteredBar ∨
    (s.pumpStopMs ≠ 0 ∧ now - s.pumpStopMs < s.cfg.minOffMs.toUInt64) ∨
    startsInLastHour s now ≥ s.cfg.maxStartsPerHour

/-- The number of steps keeps its meaning through the product and the clamp. -/
def StepsKept (steps : UInt32) : Prop :=
  steps ≠ 0 ∧ (30 * steps.toNat < 2 ^ 32 ∨ 900 ≤ 30 * steps.toNat % 2 ^ 32)

theorem pmRequestOn_eq (s : Pm F) (durationS : UInt32) (now : UInt64) :
    (RefusesOn s now ∧ pmRequestOn s durationS now = (false, s)) ∨
      ¬ RefusesOn s now ∧ pmRequestOn s durationS now = (true, manualRun s durationS now) := by
  unfold pmRequestOn RefusesOn
  split_ifs with hstate hoff hpause hquota
  · exact .inl ⟨.inl hstate, rfl⟩
  · exact .inl ⟨.inr (.inl hoff), rfl⟩
  · exact .inl ⟨.inr (.inr (.inl hpause)), rfl⟩
  · exact .inl ⟨.inr (.inr (.inr hquota)), rfl⟩
  · exact .inr ⟨by rintro (h | h | h | h) <;> contradiction, rfl⟩

theorem manualRun_manualUntil (s : Pm F) (durationS : UInt32) (now : UInt64) :
    (manualRun s durationS now).manualUntilMs = manualDeadline durationS now := by
  cases hon : s.relayOn with
  | false => exact congrArg Control.manualUntilMs (manualRun_control_off s hon durationS now)
  | true => exact congrArg Control.manualUntilMs (manualRun_control_on s hon durationS now)

/-- A deadline is 0, for an unlimited run, or lies the clamped duration ahead. -/
theorem manualDeadline_cases (durationS : UInt32) {now : UInt64}
    (hnow : now.toNat + 900000 < 2 ^ 64) :
    durationS = 0 ∧ manualDeadline durationS now = 0 ∨
      durationS ≠ 0 ∧
        (manualDeadline durationS now).toNat = now.toNat + min durationS.toNat 900 * 1000 := by
  have hmax : pmManualMaxOnS.toNat = 900 := rfl
  unfold manualDeadline
  by_cases hlong : durationS > pmManualMaxOnS
  · have hlt : 900 < durationS.toNat := UInt32.lt_iff_toNat_lt.mp hlong
    rw [if_pos hlong, if_pos (by decide)]
    refine .inr ⟨fun h => by simp [h] at hlt, ?_⟩
    rw [UInt64.toNat_add, UInt64.toNat_mul, UInt32.toNat_toUInt64, hmax,
      show (1000 : UInt64).toNat = 1000 from rfl, min_eq_right (by omega)]
    omega
  · have hle : durationS.toNat ≤ 900 := UInt32.le_iff_toNat_le.mp (UInt32.not_lt.mp hlong)
    rw [if_neg hlong]
    by_cases hzero : durationS = 0
    · exact .inl ⟨hzero, by simp [hzero]⟩
    · rw [if_pos hzero]
      refine .inr ⟨hzero, ?_⟩
      rw [UInt64.toNat_add, UInt64.toNat_mul, UInt32.toNat_toUInt64,
        show (1000 : UInt64).toNat = 1000 from rfl, min_eq_left hle]
      omega

theorem stepsKept_iff (steps : UInt32) {now : UInt64} (hnow : now.toNat + 900000 < 2 ^ 64) :
    manualDeadline (steps * durationStepS) now ≠ 0 ∧
      (manualDeadline (steps * durationStepS) now).toNat =
        now.toNat + min (30 * steps.toNat) 900 * 1000 ↔ StepsKept steps := by
  have hsteps := steps.toNat_lt
  have hproduct : (steps * durationStepS).toNat = 30 * steps.toNat % 2 ^ 32 := by
    rw [UInt32.toNat_mul, show durationStepS.toNat = 30 from rfl, Nat.mul_comm]
  have hzero : steps = 0 ↔ steps.toNat = 0 := UInt32.toNat_inj.symm
  unfold StepsKept
  rw [ne_eq steps, hzero]
  rcases manualDeadline_cases (steps * durationStepS) hnow with
    ⟨hunlimited, hdeadline⟩ | ⟨hpos, hdeadline⟩
  · rw [hunlimited, UInt32.toNat_zero] at hproduct
    refine ⟨fun h => absurd hdeadline h.1, fun h => ?_⟩
    omega
  · have hpos' : (steps * durationStepS).toNat ≠ 0 := fun h => hpos (UInt32.toNat_inj.mp h)
    have hne : manualDeadline (steps * durationStepS) now ≠ 0 := by
      intro h
      rw [h, UInt64.toNat_zero] at hdeadline
      omega
    rw [hdeadline, hproduct, and_iff_right hne]
    rw [hproduct] at hpos'
    constructor
    · intro h
      omega
    · rintro ⟨-, hfits | hlong⟩
      · rw [Nat.mod_eq_of_lt hfits]
      · have hlong' : 900 ≤ 30 * steps.toNat := hlong.trans (Nat.mod_le _ _)
        rw [min_eq_right hlong, min_eq_right hlong']

theorem nowMs_room (timeUs : UInt64) : (nowMs timeUs).toNat + 900000 < 2 ^ 64 := by
  have hlt := timeUs.toNat_lt
  have hdiv : (nowMs timeUs).toNat = timeUs.toNat / 1000 := by simp [nowMs]
  omega

/-- The path of a timed command through the three modules. -/
theorem taskComApplyCommand_timed (env : CommandEnv) (d : CommandState F) {msg : Json}
    (hmsg : IsTurnOnDuration msg) :
    taskComApplyCommand env d msg =
      let r := pumpRequestOn d.pump (durationSteps msg * durationStepS) env.timeUs
      (if r.1 then applied else rejected "not_permitted", { d with pump := r.2 }) := by
  obtain ⟨cmd, hfield, hbytes⟩ := hmsg
  have hlink : isText cmd "link_fault" = false := by rw [isText, hbytes]; decide +kernel
  have hset : isText cmd "set_state" = false := by rw [isText, hbytes]; decide +kernel
  have hon : isText cmd "turn_on_duration" = true := by rw [isText, hbytes]; decide +kernel
  simp only [taskComApplyCommand, hfield, hlink, commandProtocolMap, hset, hon, Bool.false_eq_true,
    if_false, if_true, commandExecute, CommandState.withPump]
  by_cases hok : (pumpRequestOn d.pump (durationSteps msg * durationStepS) env.timeUs).1 = true <;>
    simp [hok]

/-- **Timed commands.** A `turn_on_duration` message that is applied sets the end of the
    run to the requested time, at most 15 minutes ahead, exactly when its number of steps is
    not 0 and the product with 30 either does not wrap around or still exceeds the
    ceiling; a refused one sets nothing. -/
theorem turnOnDuration_timed_iff (env : CommandEnv) (d : CommandState F) (msg : Json)
    (hmsg : IsTurnOnDuration msg) :
    ((taskComApplyCommand env d msg).1 = applied →
      TimedAsAsked (nowMs env.timeUs) (durationSteps msg)
      (taskComApplyCommand env d msg).2.pump.pm) ↔
    RefusesOn d.pump.pm (nowMs env.timeUs) ∨ StepsKept (durationSteps msg) := by
  rw [taskComApplyCommand_timed env d hmsg, ← stepsKept_iff (durationSteps msg)
    (nowMs_room env.timeUs)]
  dsimp only [pumpRequestOn, PumpTask.locked]
  rcases pmRequestOn_eq d.pump.pm (durationSteps msg * durationStepS) (nowMs env.timeUs) with
    ⟨hrefuses, heq⟩ | ⟨hgrants, heq⟩
  · rw [heq]
    refine ⟨fun _ => .inl hrefuses, fun _ happlied => ?_⟩
    exact absurd happlied (show rejected "not_permitted" ≠ applied by decide)
  · rw [heq]
    simp only [hgrants, if_true, forall_const, false_or, TimedAsAsked, manualRun_manualUntil]

/-- A plant that has seen one reading of 2 bar. -/
def idlePlant : CommandState ℚ where
  pump := taskRun plantConfig [.cycle (plantReading 2 200000)]
  relayOn := false
  testPoorUntilS := 0
  testBlockS := 0
  rebootDelayMs := 0

def idleEnv : CommandEnv := ⟨400000, 0, true⟩

/-- A run of one minute. -/
def oneMinute : Json :=
  .object [("command", .string (Protocol.literal "turn_on_duration")),
    ("duration_steps", .number 2)]

/-- A timed command whose number of steps is missing. -/
def noSteps : Json := .object [("command", .string (Protocol.literal "turn_on_duration"))]

theorem turnOnDuration_timed_oneMinute :
    (taskComApplyCommand idleEnv idlePlant oneMinute).1 = applied ∧
      TimedAsAsked (nowMs idleEnv.timeUs) (durationSteps oneMinute)
        (taskComApplyCommand idleEnv idlePlant oneMinute).2.pump.pm := by
  have happlied : (taskComApplyCommand idleEnv idlePlant oneMinute).1 = applied := by decide +kernel
  have hsteps : durationSteps oneMinute = 2 := by decide +kernel
  have hkept : StepsKept (durationSteps oneMinute) := by
    rw [hsteps]
    exact ⟨by decide, .inl (by decide)⟩
  exact ⟨happlied, (turnOnDuration_timed_iff idleEnv idlePlant oneMinute ⟨_, rfl, rfl⟩).mpr
    (.inr hkept) happlied⟩

/-- Without a number of steps the pump runs until something else stops it. -/
theorem noSteps_unlimited :
    ¬ ∀ (env : CommandEnv) (d : CommandState ℚ) (msg : Json), IsTurnOnDuration msg →
      (taskComApplyCommand env d msg).1 = applied →
        TimedAsAsked (nowMs env.timeUs) (durationSteps msg)
          (taskComApplyCommand env d msg).2.pump.pm := by
  intro h
  have htimed := h idleEnv idlePlant noSteps ⟨_, rfl, rfl⟩ (by decide +kernel)
  exact htimed.1 (by decide +kernel)

/-- The product of a large number of steps wraps around to 14 seconds. -/
example : (143165577 * durationStepS).toNat = 14 := by decide

end Fountainer.Device
