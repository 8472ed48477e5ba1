import Fountainer.Pump.Events
import Fountainer.Pump.Protection

/-!
# Timed runs

A manual run with a deadline is meant to end by the timer and not by the max-runtime fault. Both
are looked at in the same tick, the fault first, and its ceiling is the longest duration that a
request can ask for.
-/

namespace Fountainer.Pump

variable {F : Type*}

/-- The time is at or after the deadline, and the minimum on-time is over. -/
def Due (s : Pm F) (now : UInt64) : Prop :=
  s.manualUntilMs ≤ now ∧ s.pumpStartMs.toNat + s.cfg.minOnMs.toNat ≤ now.toNat

instance (s : Pm F) (now : UInt64) : Decidable (Due s now) := inferInstanceAs (Decidable (_ ∧ _))

/-- Stopped by the timer. -/
structure Pm.TimedOff (s : Pm F) : Prop where
  state : s.state = .recovering
  fault : s.fault = .none
  relay : s.relayOn = false

/-- The run goes on. -/
structure Pm.StillOn (s : Pm F) : Prop where
  state : s.state = .running
  fault : s.fault = .none
  relay : s.relayOn = true

/-- No tick before the `i`-th is due. -/
def Pending (s : Pm F) (ticks : List (F × UInt64)) (i : ℕ) : Prop :=
  ∀ j u, j < i → ticks[j]? = some u → ¬ Due s u.2

/-- The tick stays below the manual ceiling, and one at the deadline is not before the start. -/
structure InTime (s : Pm F) (now : UInt64) : Prop where
  ceiling : runMs s now < pmManualMaxOnS.toUInt64 * 1000
  started : s.cfg.minOnMs = 0 → s.manualUntilMs ≤ now → s.pumpStartMs ≤ now

/-- The test of RUNNING in MANUAL. -/
def TimerOver (s : Pm F) (now : UInt64) : Prop :=
  s.manualUntilMs ≤ now ∧ s.cfg.minOnMs.toUInt64 ≤ runMs s now

instance (s : Pm F) (now : UInt64) : Decidable (TimerOver s now) :=
  inferInstanceAs (Decidable (_ ∧ _))

theorem Due.timerOver {s : Pm F} {now : UInt64} (h : Due s now) : TimerOver s now := by
  have hmin := h.2
  have hstart : s.pumpStartMs ≤ now := UInt64.le_iff_toNat_le.mpr (by omega)
  have hrun : (runMs s now).toNat = now.toNat - s.pumpStartMs.toNat := runTime_toNat hstart
  refine ⟨h.1, UInt64.le_iff_toNat_le.mpr ?_⟩
  rw [hrun, UInt32.toNat_toUInt64]
  omega

theorem due_iff {s : Pm F} {now : UInt64}
    (hstarted : s.cfg.minOnMs = 0 → s.manualUntilMs ≤ now → s.pumpStartMs ≤ now) :
    Due s now ↔ TimerOver s now := by
  refine ⟨Due.timerOver, fun h => ⟨h.1, ?_⟩⟩
  have hrun := UInt64.le_iff_toNat_le.mp h.2
  rw [UInt32.toNat_toUInt64] at hrun
  by_cases hle : s.pumpStartMs ≤ now
  · have hrun' : (runMs s now).toNat = now.toNat - s.pumpStartMs.toNat := runTime_toNat hle
    have hle' := UInt64.le_iff_toNat_le.mp hle
    omega
  · -- Before the start the run time is 0, so there is no minimum on-time.
    have hzero : runMs s now = 0 :=
      if_neg fun hlt => hle (UInt64.le_of_lt hlt)
    rw [hzero] at hrun
    have hmin : s.cfg.minOnMs = 0 := UInt32.toNat_inj.mp (Nat.le_zero.mp hrun)
    exact absurd (hstarted hmin h.1) hle

theorem timerOver_congr {s r : Pm F} (h : s.control = r.control) (now : UInt64) :
    TimerOver s now ↔ TimerOver r now :=
  iff_of_eq (congrArg (fun a : Control F =>
    a.manualUntilMs ≤ now ∧ a.cfg.minOnMs.toUInt64 ≤ runTime a.pumpStartMs now) h)

theorem Pending.of_succ {s : Pm F} {ticks : List (F × UInt64)} {i : ℕ}
    (h : Pending s ticks (i + 1)) : Pending s ticks i :=
  fun j u hj hu => h j u (Nat.lt_succ_of_lt hj) hu

/-- A manual run with a deadline. -/
structure Control.TimedRun (a : Control F) : Prop where
  state : a.state = .running
  mode : a.mode = .manual
  deadline : a.manualUntilMs ≠ 0

theorem stillOn_of_control {s r : Pm F} (hsafe : s.control.Safe) (h : s.control.TimedRun)
    (hc : r.control = s.control) : r.StillOn where
  state := (congrArg Control.state hc).trans h.state
  fault := (congrArg Control.fault hc).trans (hsafe.fault_eq_none (by simp [h.state]))
  relay := (congrArg Control.relayOn hc).trans (hsafe.relay_iff.mpr h.state)

variable [FloatArith F]

/-- A tick with a valid sensor. -/
def tick (s : Pm F) (u : F × UInt64) : Pm F := pmUpdate s u.1 true u.2

/-- The tick meets neither a critical-low nor a dry-run condition. -/
structure Quiet (s : Pm F) (u : F × UInt64) : Prop where
  pressure : ¬ ((tickInput s u.1 u.2).m.pressureFilteredBar < s.cfg.criticalBar ∧
    s.cfg.criticalBar ≤ (tickInput s u.1 u.2).m.eventStartBar)
  notDry : NotDry (tickInput s u.1 u.2) u.2

/-- The first tick that is due stops the pump by the timer, and until then the run goes on. -/
def TimedStop (s : Pm F) (ticks : List (F × UInt64)) : Prop :=
  ∀ i u, ticks[i]? = some u → Pending s ticks i →
    (Due s u.2 → (Machine.run tick s (ticks.take (i + 1))).TimedOff) ∧
      (¬ Due s u.2 → (Machine.run tick s (ticks.take (i + 1))).StillOn)

/-- No tick up to the first that is due meets a critical-low or a dry-run condition. -/
def QuietRun (s : Pm F) (ticks : List (F × UInt64)) : Prop :=
  ∀ i u, ticks[i]? = some u → Pending s ticks i → Quiet (Machine.run tick s (ticks.take i)) u

-- ════════════════════════════════════════════════════════════════════════
-- One tick of a timed run
-- ════════════════════════════════════════════════════════════════════════

section Tick

variable {s : Pm F} {u : F × UInt64}

theorem protections_quiet (h : s.control.TimedRun) (hon : s.relayOn = true) (hq : Quiet s u) :
    protections (tickInput s u.1 u.2) true u.2 =
      if pmManualMaxOnS.toUInt64 * 1000 ≤ runMs s u.2 then
        latchFault (tickInput s u.1 u.2) .maxRuntime u.2
      else tickInput s u.1 u.2 := by
  have hc := tickInput_control s u.1 u.2
  have hpressure := hq.pressure
  have hdry := hq.notDry
  generalize tickInput s u.1 u.2 = r at hc hpressure hdry
  have hstate : r.state = .running := (congrArg Control.state hc).trans h.state
  have hrelay : r.relayOn = true := (congrArg Control.relayOn hc).trans hon
  have hcfg : r.cfg = s.cfg := congrArg Control.cfg hc
  have hmax : maxRunMs r = pmManualMaxOnS.toUInt64 * 1000 :=
    (maxRunMs_congr hc).trans (if_pos ⟨h.mode, h.deadline⟩)
  rw [← hcfg] at hpressure
  unfold protections
  rw [if_neg (by simp [hstate])]
  simp only [not_true_eq_false, if_false, hrelay, if_true, if_neg hpressure, hmax, ge_iff_le]
  rw [runMs_congr hc]
  split
  · rfl
  · exact if_neg (by rw [← runMs_congr hc]; exact hdry)

/-- The state after a tick, up to the metrics. -/
theorem tick_control (s : Pm F) (u : F × UInt64) : (tick s u).control =
    (stateUpdate (protections (tickInput s u.1 u.2) true u.2) true u.2).control :=
  metricsUpdate_control _ u.2

/-- At the ceiling the tick latches the max-runtime fault. -/
theorem tick_overrun (h : s.control.TimedRun) (hon : s.relayOn = true) (hq : Quiet s u)
    (hover : pmManualMaxOnS.toUInt64 * 1000 ≤ runMs s u.2) : (tick s u).fault = .maxRuntime := by
  change (tick s u).control.fault = .maxRuntime
  rw [tick_control, protections_quiet h hon hq, if_pos hover, stateUpdate_latchFault,
    latchFault_control]

/-- Below the ceiling the tick runs the switch in RUNNING. -/
theorem tick_running (h : s.control.TimedRun) (hon : s.relayOn = true) (hq : Quiet s u)
    (hover : ¬ pmManualMaxOnS.toUInt64 * 1000 ≤ runMs s u.2) :
    (tick s u).control = if TimerOver s u.2 then
        { s.control with
          state := .recovering, relayOn := false, pumpStopMs := u.2, manualUntilMs := 0 }
      else s.control := by
  have hc := tickInput_control s u.1 u.2
  rw [tick_control, protections_quiet h hon hq, if_neg hover]
  generalize tickInput s u.1 u.2 = r at hc
  have hstate : r.state = .running := (congrArg Control.state hc).trans h.state
  have hmode : r.mode = .manual := (congrArg Control.mode hc).trans h.mode
  have hrelay : r.relayOn = true := (congrArg Control.relayOn hc).trans hon
  have hdeadline : r.manualUntilMs ≠ 0 := fun hzero =>
    h.deadline ((congrArg Control.manualUntilMs hc).symm.trans hzero)
  rw [show stateUpdate r true u.2 = updateRunning r u.2 by simp only [stateUpdate, hstate]]
  simp only [updateRunning, relayOn_eq r hrelay]
  rw [if_neg (by simp [hmode]), ← hc]
  by_cases hover : TimerOver s u.2
  · have hover' := (timerOver_congr hc u.2).mpr hover
    rw [if_pos hover, if_pos ⟨hdeadline, hover'.1, hover'.2⟩, enterState_control]
    rfl
  · rw [if_neg hover, if_neg fun hno => hover ((timerOver_congr hc u.2).mp ⟨hno.2.1, hno.2.2⟩)]

end Tick

-- ════════════════════════════════════════════════════════════════════════
-- Timed runs
-- ════════════════════════════════════════════════════════════════════════

theorem run_tick_succ (s : Pm F) {ticks : List (F × UInt64)} {i : ℕ} {u : F × UInt64}
    (hu : ticks[i]? = some u) : Machine.run tick s (ticks.take (i + 1)) =
      tick (Machine.run tick s (ticks.take i)) u :=
  Machine.run_take_succ tick hu

/-- Ticks that keep the control before the first that is due keep it up to there. -/
theorem run_control {s : Pm F} {ticks : List (F × UInt64)}
    (hkeep : ∀ i u, ticks[i]? = some u → Pending s ticks (i + 1) →
      (Machine.run tick s (ticks.take i)).control = s.control →
      (Machine.run tick s (ticks.take (i + 1))).control = s.control) (i : ℕ)
    (hi : Pending s ticks i) : (Machine.run tick s (ticks.take i)).control = s.control := by
  induction i with
  | zero => rfl
  | succ i ih =>
    have hprev := ih hi.of_succ
    cases hu : ticks[i]? with
    | none => rwa [List.take_add_one, hu, Option.toList_none, List.append_nil]
    | some u => exact hkeep i u hu hi hprev

/-- One tick of a timed run below the ceiling: stopped by the timer when it is due, unchanged
    otherwise. -/
theorem tick_inTime {s r : Pm F} (hsafe : s.control.Safe) (h : s.control.TimedRun)
    (hc : r.control = s.control) {u : F × UInt64} (hq : Quiet r u) (hin : InTime s u.2) :
    (Due s u.2 → (tick r u).TimedOff) ∧ (¬ Due s u.2 → (tick r u).control = s.control) := by
  have hfault : r.control.fault = .none := by
    rw [hc]
    exact hsafe.fault_eq_none (by simp [h.state])
  have hon : r.relayOn = true :=
    (congrArg Control.relayOn hc).trans (hsafe.relay_iff.mpr h.state)
  have hceiling : ¬ pmManualMaxOnS.toUInt64 * 1000 ≤ runMs r u.2 := by
    rw [runMs_congr hc]
    exact UInt64.not_le.mpr hin.ceiling
  have htick := tick_running (hc ▸ h) hon hq hceiling
  have hdue : Due s u.2 ↔ TimerOver r u.2 :=
    (due_iff hin.started).trans (timerOver_congr hc u.2).symm
  constructor
  · intro hd
    rw [if_pos (hdue.mp hd)] at htick
    exact ⟨congrArg Control.state htick, (congrArg Control.fault htick).trans hfault,
      congrArg Control.relayOn htick⟩
  · intro hd
    rw [if_neg (mt hdue.mpr hd)] at htick
    exact htick.trans hc

/-- A tick that does what the timer asks for is in time, and one that is not due changes
    nothing. -/
theorem inTime_of_tick {s r : Pm F} (hsafe : s.control.Safe) (h : s.control.TimedRun)
    (hc : r.control = s.control) {u : F × UInt64} (hq : Quiet r u)
    (hoff : Due s u.2 → (tick r u).TimedOff) (hstill : ¬ Due s u.2 → (tick r u).StillOn) :
    InTime s u.2 ∧ (¬ Due s u.2 → (tick r u).control = s.control) := by
  have hon : r.relayOn = true :=
    (congrArg Control.relayOn hc).trans (hsafe.relay_iff.mpr h.state)
  have hceiling : ¬ pmManualMaxOnS.toUInt64 * 1000 ≤ runMs r u.2 := by
    intro hover
    have hfault := tick_overrun (hc ▸ h) hon hq hover
    by_cases hd : Due s u.2
    · exact absurd (hfault.symm.trans (hoff hd).fault) (by decide)
    · exact absurd (hfault.symm.trans (hstill hd).fault) (by decide)
  have htick := tick_running (hc ▸ h) hon hq hceiling
  have hkeep : ¬ Due s u.2 → ¬ TimerOver r u.2 := by
    intro hd hover
    rw [if_pos hover] at htick
    have hstate : (tick r u).state = .recovering := congrArg Control.state htick
    exact absurd (hstate.symm.trans (hstill hd).state) (by decide)
  refine ⟨⟨?_, fun hmin huntil => ?_⟩, fun hd => ?_⟩
  · rw [← runMs_congr hc]
    exact UInt64.not_le.mp hceiling
  · by_cases hd : Due s u.2
    · exact UInt64.le_iff_toNat_le.mpr (by have := hd.2; omega)
    · refine absurd ((timerOver_congr hc u.2).mpr ⟨huntil, ?_⟩) (hkeep hd)
      rw [hmin]
      exact UInt64.le_iff_toNat_le.mpr (Nat.zero_le _)
  · rw [if_neg (hkeep hd)] at htick
    exact htick.trans hc

/-- **Timed runs end by the timer**, in every reachable manual run with a deadline and for ticks
    without a dry-run or critical-low condition, if and only if every tick up to the first that is
    due comes before the run time reaches the manual ceiling. -/
theorem timedStop_iff (cfg : PmConfig F) (calls : List (PmCall F)) (ticks : List (F × UInt64))
    (hrun : (pmRun cfg calls).state = .running) (hmode : (pmRun cfg calls).mode = .manual)
    (hdeadline : (pmRun cfg calls).manualUntilMs ≠ 0) (hquiet : QuietRun (pmRun cfg calls) ticks) :
    TimedStop (pmRun cfg calls) ticks ↔
      ∀ i u, ticks[i]? = some u → Pending (pmRun cfg calls) ticks i →
        InTime (pmRun cfg calls) u.2 := by
  have hsafe := pmRun_safe cfg calls
  have h : (pmRun cfg calls).control.TimedRun := ⟨hrun, hmode, hdeadline⟩
  constructor
  · intro hstop
    have hstep : ∀ i u, ticks[i]? = some u → Pending (pmRun cfg calls) ticks i →
        (Machine.run tick (pmRun cfg calls) (ticks.take i)).control = (pmRun cfg calls).control →
        InTime (pmRun cfg calls) u.2 ∧ (¬ Due (pmRun cfg calls) u.2 →
          (Machine.run tick (pmRun cfg calls) (ticks.take (i + 1))).control
            = (pmRun cfg calls).control) := by
      intro i u hu hi hc
      have hticks := hstop i u hu hi
      rw [run_tick_succ _ hu] at hticks ⊢
      exact inTime_of_tick hsafe h hc (hquiet i u hu hi) hticks.1 hticks.2
    intro i u hu hi
    refine (hstep i u hu hi (run_control (fun j v hv hj hc => ?_) i hi)).1
    exact (hstep j v hv hj.of_succ hc).2 (hj j v (Nat.lt_succ_self j) hv)
  · intro hin
    have hstep : ∀ i u, ticks[i]? = some u → Pending (pmRun cfg calls) ticks i →
        (Machine.run tick (pmRun cfg calls) (ticks.take i)).control = (pmRun cfg calls).control →
        (Due (pmRun cfg calls) u.2 →
          (Machine.run tick (pmRun cfg calls) (ticks.take (i + 1))).TimedOff) ∧
        (¬ Due (pmRun cfg calls) u.2 →
          (Machine.run tick (pmRun cfg calls) (ticks.take (i + 1))).control
            = (pmRun cfg calls).control) := by
      intro i u hu hi hc
      rw [run_tick_succ _ hu]
      exact tick_inTime hsafe h hc (hquiet i u hu hi) (hin i u hu hi)
    intro i u hu hi
    have hc := run_control (fun j v hv hj hc => (hstep j v hv hj.of_succ hc).2
      (hj j v (Nat.lt_succ_self j) hv)) i hi
    obtain ⟨hoff, hkeep⟩ := hstep i u hu hi hc
    exact ⟨hoff, fun hd => stillOn_of_control hsafe h (hkeep hd)⟩

/-- A run of twenty seconds, and ticks around its end. -/
def twentySeconds : List (PmCall ℚ) := [.update 1.0 true 200, .requestOn 20 400]

theorem timedStop_twentySeconds :
    TimedStop (pmRun (F := ℚ) plantConfig twentySeconds) [(1.5, 11000), (1.6, 20400)] := by
  have hin : ∀ i (u : ℚ × UInt64), [((1.5 : ℚ), (11000 : UInt64)), (1.6, 20400)][i]? = some u →
      Quiet (Machine.run tick (pmRun plantConfig twentySeconds)
        ([((1.5 : ℚ), (11000 : UInt64)), (1.6, 20400)].take i)) u ∧
      InTime (pmRun (F := ℚ) plantConfig twentySeconds) u.2 := by
    intro i u hu
    match i with
    | 0 =>
      obtain rfl := Option.some.inj hu
      exact ⟨⟨by decide +kernel, by unfold NotDry; decide +kernel⟩,
        ⟨by decide +kernel, by decide +kernel⟩⟩
    | 1 =>
      obtain rfl := Option.some.inj hu
      exact ⟨⟨by decide +kernel, by unfold NotDry; decide +kernel⟩,
        ⟨by decide +kernel, by decide +kernel⟩⟩
    | i + 2 => cases hu
  exact (timedStop_iff plantConfig twentySeconds _ (by decide +kernel) (by decide +kernel)
    (by decide +kernel) fun i u hu _ => (hin i u hu).1).mpr fun i u hu _ => (hin i u hu).2

/-- A run of the longest duration, and a tick at its deadline. -/
def fifteenMinutes : List (PmCall ℚ) := [.update 1.0 true 200, .requestOn 900 400]

/-- The tick at the deadline latches the max-runtime fault. -/
theorem fifteenMinutes_faults :
    ¬ ∀ (cfg : PmConfig ℚ) (calls : List (PmCall ℚ)) (ticks : List (ℚ × UInt64)),
      (pmRun cfg calls).state = .running → (pmRun cfg calls).mode = .manual →
        (pmRun cfg calls).manualUntilMs ≠ 0 → QuietRun (pmRun cfg calls) ticks →
          TimedStop (pmRun cfg calls) ticks := by
  intro h
  have hquiet : QuietRun (pmRun plantConfig fifteenMinutes) [((2.0 : ℚ), (900400 : UInt64))] := by
    intro i u hu _
    match i with
    | 0 =>
      obtain rfl := Option.some.inj hu
      exact ⟨by decide +kernel, by unfold NotDry; decide +kernel⟩
    | i + 1 => cases hu
  have hstop := (h plantConfig fifteenMinutes _ (by decide +kernel) (by decide +kernel)
    (by decide +kernel) hquiet 0 (2.0, 900400) rfl (by simp [Pending])).1 (by decide +kernel)
  exact absurd hstop.state (by decide +kernel)

end Fountainer.Pump
