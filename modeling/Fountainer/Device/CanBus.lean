import Fountainer.Lib.Runs
import Mathlib.Data.List.DropRight

/-!
# The CAN bus in trouble

`canopen_task.c`, sections 3 to 5: the driver's starts and stops, the housekeeping, the bus-off
handling of `canopen_task_cycle` and `canopen_recover`. Of the core's node only the receive
counter takes part; `co_rx` counts every frame that it is given and `co_init` clears the counter.
-/

namespace Fountainer.Device

/-- The `Can_*` points that `config_snapshot` reads. -/
structure CanConfig where
  enabled : Bool
  loopback : Bool
  nodeId : UInt8
  kbps : UInt16
  heartbeatMs : UInt16

/-- What a listener on the bus notes of the task. -/
inductive BusEvent where
  | busOff
  | received
  | paused
deriving DecidableEq

/-- The state of the task. No function reads the history. -/
structure CanBus where
  hw : Bool
  running : Bool
  active : CanConfig
  lastHousekeepingMs : UInt32
  busOff : Bool
  busOffSinceMs : UInt32
  busOffCount : UInt16
  rxAccum : UInt32
  busOffStreak : UInt8
  rxSeen : UInt32
  absent : Bool
  absentSinceMs : UInt32
  rxFrames : UInt32
  history : List BusEvent

/-- The answers of `twai_driver_install` and `twai_start`. -/
structure TwaiDriver where
  installed : Bool
  started : Bool

structure TwaiMessage where
  extd : Bool

structure TwaiAlerts where
  busOff : Bool
  busRecovered : Bool

def coBusOffStallMs : UInt32 := 3000
def coAbsentBusOffs : UInt8 := 5
def coAbsentHoldMs : UInt32 := 30000

/-- `timing_for`: whether there is a preset. -/
def timingFor (kbps : UInt16) : Bool :=
  [10, 20, 50, 100, 125, 250, 500, 800, 1000].contains kbps

namespace CanBus

/-- `driver_start`. -/
def driverStart (d : TwaiDriver) (s : CanBus) : Bool × CanBus :=
  if timingFor s.active.kbps && d.installed && d.started then
    (true, { s with busOff := false, running := true })
  else (false, s)

/-- `driver_stop`, and with it `stop_all`. -/
def driverStop (s : CanBus) : CanBus :=
  if s.running then
    { s with rxAccum := s.rxAccum + s.rxFrames, rxFrames := 0, running := false, busOff := false }
  else s

/-- `core_start`. -/
def coreStart (s : CanBus) : CanBus := { s with rxFrames := 0 }

/-- `start_all`. -/
def startAll (d : TwaiDriver) (s : CanBus) : Bool × CanBus :=
  let (ok, s) := s.driverStart d
  if ok then (true, s.coreStart) else (false, s)

/-- `config_snapshot`. -/
def configSnapshot (cfg : CanConfig) (s : CanBus) : CanBus := { s with active := cfg }

/-- `housekeeping`, without the mirrors. -/
def housekeeping (now : UInt32) (cfg : CanConfig) (d : TwaiDriver) (s : CanBus) : CanBus :=
  let s := { s with lastHousekeepingMs := now }
  if !s.running then
    if s.absent && now - s.absentSinceMs < coAbsentHoldMs then s
    else if cfg.enabled then
      let (ok, s) := (s.configSnapshot cfg).startAll d
      if ok then { s with absent := false } else s
    else s
  else if !cfg.enabled then
    let s := s.driverStop
    { s with active := { s.active with enabled := false } }
  else if cfg.nodeId != s.active.nodeId || cfg.kbps != s.active.kbps ||
      cfg.loopback != s.active.loopback then
    ((s.driverStop.configSnapshot cfg).startAll d).2
  else { s with active := { s.active with heartbeatMs := cfg.heartbeatMs } }

/-- The `TWAI_ALERT_BUS_OFF` branch of the cycle, up to the streak. -/
def noteBusOff (now : UInt32) (s : CanBus) : CanBus :=
  { s with
    busOff := true
    busOffSinceMs := now
    busOffCount := s.busOffCount + 1
    busOffStreak := if s.rxFrames = s.rxSeen then s.busOffStreak + 1 else 1
    rxSeen := s.rxFrames
    history := s.history ++ [.busOff] }

/-- The driver is paused, the bus being absent. -/
def pauseAbsent (now : UInt32) (s : CanBus) : CanBus :=
  { s.driverStop with
    absent := true
    absentSinceMs := now
    busOffStreak := 0
    history := s.history ++ [.paused] }

/-- A message of `twai_receive`. The core gets the 11-bit frames. -/
def receive (s : CanBus) (m : TwaiMessage) : CanBus :=
  { s with
    rxFrames := if m.extd then s.rxFrames else s.rxFrames + 1
    history := s.history ++ [.received] }

end CanBus

/-- What a cycle meets: the configuration, the answers of the driver, the alerts, and the
    messages that come in until the period is over. -/
structure CycleInput where
  now : UInt32
  config : CanConfig
  driver : TwaiDriver
  alerts : TwaiAlerts
  restarted : Bool
  messages : List TwaiMessage

namespace CanBus

/-- The cycle up to the alerts. -/
def beforeAlerts (s : CanBus) (i : CycleInput) : CanBus :=
  if 1000 ≤ i.now - s.lastHousekeepingMs then s.housekeeping i.now i.config i.driver else s

/-- The cycle from the `TWAI_ALERT_BUS_RECOVERED` branch on, with its `esp_err_t`. -/
def fromRecovered (s : CanBus) (i : CycleInput) : Bool × CanBus :=
  let s := if i.alerts.busRecovered && i.restarted then { s with busOff := false } else s
  if s.busOff then (!(coBusOffStallMs < i.now - s.busOffSinceMs), s)
  else (true, i.messages.foldl receive s)

/-- The cycle from the alerts on. -/
def fromAlerts (s : CanBus) (i : CycleInput) : Bool × CanBus :=
  if i.alerts.busOff then
    let s := s.noteBusOff i.now
    if coAbsentBusOffs ≤ s.busOffStreak then (true, s.pauseAbsent i.now) else s.fromRecovered i
  else s.fromRecovered i

/-- `canopen_task_cycle`. -/
def canopenTaskCycle (s : CanBus) (i : CycleInput) : Bool × CanBus :=
  if !s.hw then (true, s)
  else
    let s := s.beforeAlerts i
    if !s.running then (true, s) else s.fromAlerts i

/-- `canopen_recover`. -/
def canopenRecover (cfg : CanConfig) (d : TwaiDriver) (s : CanBus) : Bool × CanBus :=
  if !s.hw then (true, s)
  else
    let s := { s.driverStop with absent := false }
    if !cfg.enabled then (true, s) else (s.configSnapshot cfg).startAll d

end CanBus

/-- `canopen_init`. -/
def canopenInit (hw : Bool) (cfg : CanConfig) (d : TwaiDriver) : CanBus :=
  let s : CanBus :=
    { hw := hw, running := false, active := ⟨false, false, 0, 0, 0⟩, lastHousekeepingMs := 0
      busOff := false, busOffSinceMs := 0, busOffCount := 0, rxAccum := 0, busOffStreak := 0
      rxSeen := 0, absent := false, absentSinceMs := 0, rxFrames := 0, history := [] }
  if !hw then s
  else
    let s := s.configSnapshot cfg
    if !s.active.enabled then s else (s.startAll d).2

/-- The calls of the task's owner. -/
inductive CanCall where
  | cycle (i : CycleInput)
  | recover (cfg : CanConfig) (d : TwaiDriver)

def CanBus.step (s : CanBus) : CanCall → CanBus
  | .cycle i => (s.canopenTaskCycle i).2
  | .recover cfg d => (s.canopenRecover cfg d).2

/-! ### What the history knows of the streak -/

/-- In the history every pause comes right after five bus-offs. -/
def PausesAfterFive (h : List BusEvent) : Prop :=
  ∀ pre, pre ++ [.paused] <+: h → List.replicate 5 .busOff <:+ pre

theorem PausesAfterFive.concat {h : List BusEvent} (hp : PausesAfterFive h) {e : BusEvent}
    (he : e = .paused → List.replicate 5 .busOff <:+ h) : PausesAfterFive (h ++ [e]) := by
  intro pre hpre
  obtain heq | hpre := List.prefix_concat_iff.mp hpre
  · obtain ⟨rfl, hlast⟩ := List.append_inj' heq rfl
    exact he (List.singleton_inj.mp hlast).symm
  · exact hp pre hpre

namespace CanBus

/-- A frame received since the previous bus-off shows in the counter, or there is no streak. -/
def ReceptionShows (s : CanBus) : Prop :=
  s.history.getLast? = some .received → s.busOffStreak = 0 ∨ s.rxFrames ≠ s.rxSeen

instance (s : CanBus) : Decidable s.ReceptionShows :=
  inferInstanceAs (Decidable (_ → _))

/-- The streak is one of bus-offs with nothing but bus-offs between them, if what came in since
    the last one is left out. -/
structure Streak (n : ℕ) (s : CanBus) : Prop where
  streak_le : s.busOffStreak.toNat ≤ n
  quiet : List.replicate s.busOffStreak.toNat .busOff <:+
    s.history.rdropWhile fun e => e = BusEvent.received
  paused : PausesAfterFive s.history

theorem Streak.congr {n : ℕ} {s t : CanBus} (h : s.Streak n)
    (hhistory : t.history = s.history) (hstreak : t.busOffStreak = s.busOffStreak) :
    t.Streak n where
  streak_le := by rw [hstreak]; exact h.streak_le
  quiet := by rw [hstreak, hhistory]; exact h.quiet
  paused := by rw [hhistory]; exact h.paused

section Keeps

variable (s : CanBus) (d : TwaiDriver) (cfg : CanConfig) (now : UInt32) (i : CycleInput)

@[simp] theorem driverStop_history : s.driverStop.history = s.history := by
  rw [driverStop]; split_ifs <;> rfl

@[simp] theorem driverStop_busOffStreak : s.driverStop.busOffStreak = s.busOffStreak := by
  rw [driverStop]; split_ifs <;> rfl

@[simp] theorem startAll_history : (s.startAll d).2.history = s.history := by
  rw [startAll, driverStart]; split_ifs <;> rfl

@[simp] theorem startAll_busOffStreak : (s.startAll d).2.busOffStreak = s.busOffStreak := by
  rw [startAll, driverStart]; split_ifs <;> rfl

theorem housekeeping_history : (s.housekeeping now cfg d).history = s.history := by
  dsimp only [housekeeping]
  split_ifs <;> simp [configSnapshot]

theorem housekeeping_busOffStreak :
    (s.housekeeping now cfg d).busOffStreak = s.busOffStreak := by
  dsimp only [housekeeping]
  split_ifs <;> simp [configSnapshot]

theorem beforeAlerts_history : (s.beforeAlerts i).history = s.history := by
  rw [beforeAlerts]
  split_ifs
  · exact housekeeping_history s i.driver i.config i.now
  · rfl

theorem beforeAlerts_busOffStreak : (s.beforeAlerts i).busOffStreak = s.busOffStreak := by
  rw [beforeAlerts]
  split_ifs
  · exact housekeeping_busOffStreak s i.driver i.config i.now
  · rfl

theorem canopenRecover_history : (s.canopenRecover cfg d).2.history = s.history := by
  rw [canopenRecover]
  split_ifs <;> simp [configSnapshot]

theorem canopenRecover_busOffStreak :
    (s.canopenRecover cfg d).2.busOffStreak = s.busOffStreak := by
  rw [canopenRecover]
  split_ifs <;> simp [configSnapshot]

end Keeps

variable {s : CanBus} {n : ℕ}

/-- The bus-offs in front of a new one that its streak counts. -/
theorem Streak.quiet_of_shows (h : s.Streak n) (hshows : s.ReceptionShows)
    (hseen : s.rxFrames = s.rxSeen) :
    List.replicate s.busOffStreak.toNat .busOff <:+ s.history := by
  by_cases hlast : s.history.getLast? = some .received
  · have hzero : s.busOffStreak = 0 := (hshows hlast).resolve_right fun h => h hseen
    rw [hzero]
    exact List.nil_suffix
  · have hself : s.history.rdropWhile (fun e => e = BusEvent.received) = s.history := by
      refine List.rdropWhile_eq_self_iff.mpr fun hne hrec => hlast ?_
      rw [List.getLast?_eq_some_getLast hne, of_decide_eq_true hrec]
    rw [← hself]
    exact h.quiet

/-- **Bus-off**: the streak grows by this one or starts again with it. -/
theorem Streak.noteBusOff (h : s.Streak 4) (hshows : s.ReceptionShows) (now : UInt32) :
    (s.noteBusOff now).Streak 5 := by
  have hle := h.streak_le
  have hkept : (s.history ++ [BusEvent.busOff]).rdropWhile (fun e => e = BusEvent.received) =
      s.history ++ [BusEvent.busOff] := List.rdropWhile_concat_neg _ _ _ (by simp)
  by_cases hseen : s.rxFrames = s.rxSeen
  · have hsucc : (s.noteBusOff now).busOffStreak.toNat = s.busOffStreak.toNat + 1 := by
      rw [CanBus.noteBusOff, if_pos hseen, UInt8.toNat_add]
      exact Nat.mod_eq_of_lt (by change _ + 1 < 256; omega)
    refine ⟨by omega, ?_, h.paused.concat fun h => nomatch h⟩
    rw [hsucc, List.replicate_succ', CanBus.noteBusOff, hkept]
    exact List.suffix_append_self_iff.mpr (h.quiet_of_shows hshows hseen)
  · have hone : (s.noteBusOff now).busOffStreak = 1 := by
      rw [CanBus.noteBusOff, if_neg hseen]
    refine ⟨by rw [hone]; decide, ?_, h.paused.concat fun h => nomatch h⟩
    rw [hone, CanBus.noteBusOff, hkept]
    exact List.suffix_append _ _

/-- **Reception**: a frame that comes in is left out. -/
theorem Streak.receive (h : s.Streak n) (m : TwaiMessage) : (s.receive m).Streak n where
  streak_le := h.streak_le
  quiet := by
    rw [CanBus.receive, List.rdropWhile_concat_pos _ _ _ (by simp)]
    exact h.quiet
  paused := h.paused.concat fun h => nomatch h

theorem Streak.receives (h : s.Streak n) (ms : List TwaiMessage) :
    (ms.foldl CanBus.receive s).Streak n := by
  induction ms generalizing s with
  | nil => exact h
  | cons m ms ih => exact ih (h.receive m)

/-- **Pause**: five bus-offs are right before it, and the streak starts again. -/
theorem Streak.pauseAbsent (h : s.Streak n) (hlast : s.history.getLast? = some .busOff)
    (hfive : 5 ≤ s.busOffStreak.toNat) (now : UInt32) : (s.pauseAbsent now).Streak 4 where
  streak_le := Nat.zero_le 4
  quiet := List.nil_suffix
  paused := by
    refine h.paused.concat fun _ => ?_
    have hself : s.history.rdropWhile (fun e => e = BusEvent.received) = s.history := by
      refine List.rdropWhile_eq_self_iff.mpr fun hne hrec => ?_
      rw [List.getLast?_eq_some_getLast hne, of_decide_eq_true hrec] at hlast
      cases hlast
    have hquiet := h.quiet
    rw [hself] at hquiet
    refine .trans ?_ hquiet
    rw [← Nat.sub_add_cancel hfive, List.replicate_add]
    exact List.suffix_append _ _

theorem Streak.fromRecovered (h : s.Streak 4) (i : CycleInput) :
    (s.fromRecovered i).2.Streak 4 := by
  have hback : Streak 4 { s with busOff := false } := h.congr rfl rfl
  dsimp only [CanBus.fromRecovered]
  split_ifs
  · exact hback
  · exact hback.receives i.messages
  · exact h
  · exact h.receives i.messages

theorem Streak.fromAlerts (h : s.Streak 4) (i : CycleInput)
    (hshows : i.alerts.busOff → s.ReceptionShows) : (s.fromAlerts i).2.Streak 4 := by
  dsimp only [CanBus.fromAlerts]
  split_ifs with hoff hfive
  · exact (h.noteBusOff (hshows hoff) i.now).pauseAbsent List.getLast?_concat hfive i.now
  · have hfour := h.noteBusOff (hshows hoff) i.now
    have hlt : (s.noteBusOff i.now).busOffStreak.toNat < 5 := Nat.lt_of_not_le hfive
    exact Streak.fromRecovered ⟨by omega, hfour.quiet, hfour.paused⟩ i
  · exact h.fromRecovered i

/-- What the condition asks of a step: where a cycle meets a bus-off, a frame received since the
    previous one shows in the counter, or there is no streak. -/
def StepShows (s : CanBus) : CanCall → Prop
  | .cycle i => s.hw → (s.beforeAlerts i).running → i.alerts.busOff →
      (s.beforeAlerts i).ReceptionShows
  | .recover _ _ => True

instance StepShows.decidable : ∀ (s : CanBus) (c : CanCall), Decidable (s.StepShows c)
  | s, .cycle i => inferInstanceAs (Decidable (s.hw → (s.beforeAlerts i).running →
      i.alerts.busOff → (s.beforeAlerts i).ReceptionShows))
  | _, .recover _ _ => inferInstanceAs (Decidable True)

theorem Streak.step (h : s.Streak 4) (c : CanCall) (hc : s.StepShows c) :
    (s.step c).Streak 4 := by
  cases c with
  | cycle i =>
    dsimp only [CanBus.step, canopenTaskCycle]
    have hbefore : (s.beforeAlerts i).Streak 4 :=
      h.congr (beforeAlerts_history s i) (beforeAlerts_busOffStreak s i)
    split_ifs with hhw hrun
    · exact h
    · exact hbefore
    · exact hbefore.fromAlerts i (hc (by simpa using hhw) (by simpa using hrun))
  | recover cfg d =>
    exact h.congr (canopenRecover_history s d cfg) (canopenRecover_busOffStreak s d cfg)

theorem canopenInit_streak (hw : Bool) (cfg : CanConfig) (d : TwaiDriver) :
    (canopenInit hw cfg d).Streak 4 := by
  have hzero : ∀ t : CanBus, t.history = [] → t.busOffStreak = 0 → t.Streak 4 := by
    intro t hhistory hstreak
    refine ⟨by rw [hstreak]; decide, by rw [hstreak]; exact List.nil_suffix, ?_⟩
    rw [hhistory]
    intro pre hpre
    simpa using hpre.length_le
  dsimp only [canopenInit]
  split_ifs
  · exact hzero _ rfl rfl
  · exact hzero _ rfl rfl
  · exact hzero _ (startAll_history _ d) (startAll_busOffStreak _ d)

/-- **Bus absent only without reception**: in every run in which each bus-off after a reception
    finds the counter changed, or no streak, every pause comes right after five bus-offs with
    nothing received between them. -/
theorem pausesAfterFive_of_shows (hw : Bool) (cfg : CanConfig) (d : TwaiDriver)
    (calls : List CanCall)
    (hshows : Machine.Guarded CanBus.step StepShows (canopenInit hw cfg d) calls) :
    PausesAfterFive (Machine.run CanBus.step (canopenInit hw cfg d) calls).history :=
  (hshows.invariant CanBus.step (fun _ c hc h => Streak.step h c hc)
    (canopenInit_streak hw cfg d)).paused

/-- A line at 125 kbit/s, with a frame before the first of five bus-offs. -/
def lineConfig : CanConfig := ⟨true, false, 10, 125, 1000⟩

def lineDriver : TwaiDriver := ⟨true, true⟩

/-- A cycle that meets these alerts and, if the bus is back, as many frames. -/
def lineCycle (busOff busRecovered : Bool) (frames : ℕ) : CanCall :=
  .cycle ⟨10, lineConfig, lineDriver, ⟨busOff, busRecovered⟩, true,
    List.replicate frames ⟨false⟩⟩

theorem pausesAfterFive_of_shows_quiet :
    List.replicate 5 BusEvent.busOff <:+
      [.received, .busOff, .busOff, .busOff, .busOff, .busOff] :=
  pausesAfterFive_of_shows true lineConfig lineDriver
    (lineCycle false false 1 ::
      (List.replicate 5 [lineCycle true false 0, lineCycle false true 0]).flatten)
    (by decide) _ (by decide)

/-- The driver is restarted after each of five bus-offs and hears one frame before the next. -/
theorem paused_despite_reception :
    ¬ PausesAfterFive (Machine.run CanBus.step (canopenInit true lineConfig lineDriver)
      (List.replicate 5 [lineCycle false false 1, lineCycle true false 0,
        .recover lineConfig lineDriver]).flatten).history := by
  intro h
  have hsuffix := h
    [.received, .busOff, .received, .busOff, .received, .busOff, .received, .busOff,
      .received, .busOff] (by decide)
  exact absurd hsuffix (by decide)

end CanBus

end Fountainer.Device
