import Fountainer.Pump.Clock

/-!
# The protection envelope of a running pump

A tick that leaves the pump running has passed the protections: its run time is
below the ceiling of its mode, and once the dry-run window is over the pressure
has risen. The start stamp and the start pressure, from which both are measured,
do not move while the relay stays on.
-/

namespace Fountainer.Pump

variable {F : Type*}

/-- From the start on, the run time is the difference of the times. -/
theorem runTime_toNat {start now : UInt64} (h : start ≤ now) :
    (runTime start now).toNat = now.toNat - start.toNat := by
  unfold runTime
  split_ifs with hlt
  · exact UInt64.toNat_sub_of_le now start h
  · have hle : now.toNat ≤ start.toNat := UInt64.le_iff_toNat_le.mp (UInt64.not_lt.mp hlt)
    rw [Nat.sub_eq_zero_of_le hle]
    rfl

theorem runMs_congr {s r : Pm F} (h : s.control = r.control) (now : UInt64) :
    runMs s now = runMs r now :=
  congrArg (fun a : Control F => runTime a.pumpStartMs now) h

theorem maxRunMs_congr {s r : Pm F} (h : s.control = r.control) : maxRunMs s = maxRunMs r :=
  congrArg (fun a : Control F => if a.mode = .manual ∧ a.manualUntilMs ≠ 0 then
    pmManualMaxOnS.toUInt64 * 1000 else a.cfg.maxOnMs.toUInt64) h

/-- The pump is not known to run dry. -/
def NotDry [FloatArith F] (s : Pm F) (now : UInt64) : Prop :=
  ¬ (runMs s now ≥ s.cfg.dryDetectMs.toUInt64 ∧
    s.m.pressureFilteredBar - s.startBar < s.cfg.dryMinRiseBar)

/-- While the relay stays on, a call moves neither the start stamp nor the start
    pressure. -/
theorem Effect.start_kept {a b : Control F} {c : PmCall F} (he : Effect a c b)
    (ha : a.relayOn = true) (hb : b.relayOn = true) :
    b.pumpStartMs = a.pumpStartMs ∧ b.startBar = a.startBar := by
  cases he with
  | stay | ack | config => exact ⟨rfl, rfl⟩
  | start now md deadline bar htime hoff => exact absurd ha (by simp [hoff])
  | stop | latch => exact absurd hb (by simp)

section Tick

variable [FloatArith F]

/-- A pump that passes the protections is inside both limits. -/
theorem protections_passed (s : Pm F) (sensorOk : Bool) (now : UInt64) (hs : s.state ≠ .fault)
    (hon : (protections s sensorOk now).relayOn = true) (hpump : s.relayOn = true) :
    runMs s now < maxRunMs s ∧ NotDry s now := by
  unfold protections at hon
  simp only [hs, hpump, if_false, if_true] at hon
  split_ifs at hon with hok hlow hmax hdry
  · rw [latchFault_relayOn] at hon
    exact absurd hon (by decide)
  · rw [latchFault_relayOn] at hon
    exact absurd hon (by decide)
  · rw [latchFault_relayOn] at hon
    exact absurd hon (by decide)
  · exact ⟨UInt64.not_le.mp hmax, hdry⟩
  · rw [latchFault_relayOn] at hon
    exact absurd hon (by decide)

/-- RUNNING keeps the pump on without touching its control or the pressure. -/
theorem updateRunning_on (s : Pm F) (now : UInt64) (hpump : s.relayOn = true)
    (hon : (updateRunning s now).relayOn = true) :
    (updateRunning s now).control = s.control ∧
      (updateRunning s now).m.pressureFilteredBar = s.m.pressureFilteredBar := by
  have hoff (r : Pm F) : (enterState (pumpOff r now) .recovering now).relayOn = false :=
    congrArg Control.relayOn (enterState_control (pumpOff r now) .recovering now)
  simp only [updateRunning, relayOn_eq s hpump] at hon ⊢
  split_ifs at hon ⊢
  · exact absurd hon (by simp [hoff])
  · exact ⟨rfl, rfl⟩
  · exact absurd hon (by simp [hoff])
  · exact ⟨rfl, rfl⟩

/-- A tick that leaves the pump on has just started it, or has found it inside
    both limits and left its control alone. -/
theorem pmUpdate_on (s : Pm F) (h : s.control.Safe) (bar : F) (sensorOk : Bool) (now : UInt64)
    (hon : (pmUpdate s bar sensorOk now).relayOn = true) :
    (pmUpdate s bar sensorOk now).pumpStartMs = now ∨
      (pmUpdate s bar sensorOk now).control = s.control ∧
        runMs (pmUpdate s bar sensorOk now) now < maxRunMs (pmUpdate s bar sensorOk now) ∧
        NotDry (pmUpdate s bar sensorOk now) now := by
  cases hpump : s.relayOn with
  | false =>
    refine .inl ?_
    have he := pmUpdate_effect s h bar sensorOk now
    change (pmUpdate s bar sensorOk now).control.pumpStartMs = now
    change (pmUpdate s bar sensorOk now).control.relayOn = true at hon
    generalize (pmUpdate s bar sensorOk now).control = b at he hon
    cases he with
    | stay | ack | config => exact absurd (hpump.symm.trans hon) (by decide)
    | start t md deadline start htime => exact (Option.some.inj htime).symm
    | stop | latch => exact absurd hon (by simp)
  | true =>
    refine .inr ?_
    have hm : (eventUpdate (filtersUpdate s bar now) now).control = s.control := by simp
    revert hon
    unfold pmUpdate
    dsimp only
    generalize eventUpdate (filtersUpdate s bar now) now = r at hm
    intro hon
    have hrs : r.state = .running := (congrArg Control.state hm).trans (h.relay_iff.mp hpump)
    have hrp : r.relayOn = true := (congrArg Control.relayOn hm).trans hpump
    have hmon (q : Pm F) : (metricsUpdate q now).relayOn = q.relayOn :=
      congrArg Control.relayOn (metricsUpdate_control q now)
    rw [hmon] at hon
    -- The protections let `r` pass: a latched fault would leave the relay off.
    have hpass : protections r sensorOk now = r := by
      rcases protections_cases r sensorOk now with hp | ⟨-, q, f, -, -, hp⟩
      · exact hp
      · rw [hp, stateUpdate_latchFault, latchFault_relayOn] at hon
        exact absurd hon (by decide)
    have hlimits := protections_passed r sensorOk now (by simp [hrs]) (by rw [hpass]; exact hrp) hrp
    rw [hpass] at hon ⊢
    have hsw : stateUpdate r sensorOk now = updateRunning r now := by simp only [stateUpdate, hrs]
    rw [hsw] at hon ⊢
    obtain ⟨hctl, hbar⟩ := updateRunning_on r now hrp hon
    have hb : (metricsUpdate (updateRunning r now) now).control = r.control := by
      rw [metricsUpdate_control, hctl]
    refine ⟨hb.trans hm, ?_, ?_⟩
    · rw [runMs_congr hb, maxRunMs_congr hb]
      exact hlimits.1
    · unfold NotDry
      rw [runMs_congr hb, metricsUpdate_filtered, hbar]
      rw [show (metricsUpdate (updateRunning r now) now).cfg = r.cfg from congrArg Control.cfg hb,
        show (metricsUpdate (updateRunning r now) now).startBar = r.startBar from
          congrArg Control.startBar hb]
      exact hlimits.2

/-- **While the relay stays on**, no sequence of calls moves the start stamp or
    the start pressure. -/
theorem run_start_kept (s : Pm F) (h : s.control.Safe) (more : List (PmCall F))
    (hon : ∀ pre, pre <+: more → (Machine.run call s pre).relayOn = true) :
    (Machine.run call s more).pumpStartMs = s.pumpStartMs ∧
      (Machine.run call s more).startBar = s.startBar := by
  induction more using List.reverseRecOn with
  | nil => exact ⟨rfl, rfl⟩
  | append_singleton more c ih =>
    have hprev := ih (fun pre hpre => hon pre (hpre.trans (List.prefix_append _ _)))
    have hsafe : (Machine.run call s more).control.Safe :=
      Machine.run_invariant call (fun s c h => call_safe s h c) h more
    have hafter := hon (more ++ [c]) (List.prefix_refl _)
    rw [Machine.run_concat] at hafter ⊢
    obtain ⟨hstart, hbar⟩ := (call_effect _ hsafe c).start_kept
      (hon more (List.prefix_append _ _)) hafter
    exact ⟨Eq.trans hstart hprev.1, Eq.trans hbar hprev.2⟩

end Tick

section Exact

variable {K : Type*} [Field K] [LinearOrder K] [FloatArith.SqrtOp K]

/-- **The protection envelope**, for pressures as exact numbers. When time does
    not run backwards and the configuration is fixed, every tick that leaves the
    pump on finds its run time below `max_on_ms`, or below the manual ceiling in a
    timed manual run; and from `dry_detect_ms` on the pressure has risen by
    `dry_min_rise_bar`. While the relay stays on, no sequence of calls moves the
    start stamp or the start pressure. -/
theorem protection_envelope (cfg : PmConfig K) (calls : List (PmCall K))
    (hcfg : ∀ cfg', .configSet cfg' ∈ calls → cfg' = cfg)
    (hmax : 1 ≤ cfg.maxOnMs) (hdry : 1 ≤ cfg.dryDetectMs) :
    (∀ bar sensorOk t, Timed (calls ++ [.update bar sensorOk t]) →
      let s := pmRun cfg (calls ++ [.update bar sensorOk t])
      s.relayOn = true →
        s.pumpStartMs ≤ t ∧
        (t.toNat - s.pumpStartMs.toNat < cfg.maxOnMs.toNat ∨
          s.mode = .manual ∧ s.manualUntilMs ≠ 0 ∧
            t.toNat - s.pumpStartMs.toNat < pmManualMaxOnS.toNat * 1000) ∧
        (cfg.dryDetectMs.toNat ≤ t.toNat - s.pumpStartMs.toNat →
          cfg.dryMinRiseBar ≤ s.m.pressureFilteredBar - s.startBar)) ∧
    ∀ more, (∀ pre, pre <+: more → (Machine.run call (pmRun cfg calls) pre).relayOn = true) →
      (Machine.run call (pmRun cfg calls) more).pumpStartMs = (pmRun cfg calls).pumpStartMs ∧
      (Machine.run call (pmRun cfg calls) more).startBar = (pmRun cfg calls).startBar := by
  refine ⟨?_, fun more => run_start_kept _ (pmRun_safe cfg calls) more⟩
  intro bar sensorOk t htimed s hon
  have hmax' : 1 ≤ cfg.maxOnMs.toNat := UInt32.le_iff_toNat_le.mp hmax
  have hdry' : 1 ≤ cfg.dryDetectMs.toNat := UInt32.le_iff_toNat_le.mp hdry
  have hscfg : s.cfg = cfg :=
    pmRun_cfg (· = cfg) cfg _ rfl (fun cfg' h => hcfg cfg' (by simpa using h))
  have hs : s = pmUpdate (pmRun cfg calls) bar sensorOk t := pmRun_concat cfg calls _
  rw [hs] at hon hscfg
  rcases pmUpdate_on _ (pmRun_safe cfg calls) bar sensorOk t hon with hnow | ⟨hctl, hrun, hdryOk⟩
  · rw [← hs] at hnow
    -- The pump has just started: both clocks are at zero.
    refine ⟨UInt64.le_of_eq hnow, .inl ?_, fun h => absurd h ?_⟩
    · rw [hnow]
      omega
    · rw [hnow]
      omega
  · rw [← hs] at hctl hrun hdryOk hscfg
    have hle : s.pumpStartMs ≤ t := by
      rw [show s.pumpStartMs = (pmRun cfg calls).pumpStartMs from congrArg Control.pumpStartMs hctl]
      exact pmRun_start_le cfg calls _ t htimed rfl
    have hms : (runMs s t).toNat = t.toNat - s.pumpStartMs.toNat := runTime_toNat hle
    refine ⟨hle, ?_, fun hge => ?_⟩
    · have hlt := UInt64.lt_iff_toNat_lt.mp hrun
      rw [hms] at hlt
      unfold maxRunMs at hlt
      split_ifs at hlt with hmanual
      · exact .inr ⟨hmanual.1, hmanual.2, hlt⟩
      · rw [hscfg] at hlt
        exact .inl (by simpa using hlt)
    · have hwindow : runMs s t ≥ s.cfg.dryDetectMs.toUInt64 := by
        refine UInt64.le_iff_toNat_le.mpr ?_
        rw [hms, hscfg]
        simpa using hge
      have hrise : ¬ s.m.pressureFilteredBar - s.startBar < s.cfg.dryMinRiseBar := by
        intro hlt
        exact hdryOk ⟨hwindow, decide_eq_true hlt⟩
      rw [hscfg] at hrise
      exact not_lt.mp hrise

/-- A manual run past the dry-run window: the tick leaves the pump on, so the
    pressure has risen. -/
theorem protection_envelope_past_window :
    let s := pmRun (F := ℚ) plantConfig
      ([.update 1.0 true 200, .requestOn 0 400] ++ [.update 1.5 true 11000])
    s.relayOn = true ∧ 10000 ≤ 11000 - s.pumpStartMs.toNat ∧
      (0.1 : ℚ) ≤ s.m.pressureFilteredBar - s.startBar := by
  intro s
  have hon : s.relayOn = true := by decide +kernel
  have hwindow : 10000 ≤ 11000 - s.pumpStartMs.toNat := by decide +kernel
  have h := (protection_envelope (K := ℚ) plantConfig [.update 1.0 true 200, .requestOn 0 400]
    (by simp) (by decide) (by decide)).1 1.5 true 11000 (by decide) hon
  exact ⟨hon, hwindow, h.2.2 hwindow⟩

end Exact

end Fountainer.Pump
