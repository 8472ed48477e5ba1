import Fountainer.Pump.Safety

/-!
# The OFF threshold at a start

`pm_request_on` compares the filtered pressure with `off_bar` before it starts the pump. The
automatic path compares it with `on_bar` in PRESSURE_DROP and starts the pump one tick later,
with a new filtered pressure that STARTING does not look at.
-/

namespace Fountainer.Pump

variable {F : Type*}

/-- The pause since the last stop is over, and the hour has starts left. -/
def MayStart (s : Pm F) (now : UInt64) : Prop :=
  (s.pumpStopMs = 0 ∨ now - s.pumpStopMs ≥ s.cfg.minOffMs.toUInt64) ∧
    startsInLastHour s now < s.cfg.maxStartsPerHour

theorem enterState_m (s : Pm F) (new : PmState) (now : UInt64) :
    (enterState s new now).m = s.m := by
  unfold enterState
  split <;> rfl

theorem mayStart_congr {s r : Pm F} (h : s.control = r.control) (now : UInt64) :
    MayStart s now ↔ MayStart r now :=
  iff_of_eq (congrArg (fun a : Control F =>
    (a.pumpStopMs = 0 ∨ now - a.pumpStopMs ≥ a.cfg.minOffMs.toUInt64) ∧
      startsInHour a.startsMs now < a.cfg.maxStartsPerHour) h)

/-- In STARTING the pump starts when the two guards allow it. -/
theorem updateStarting_relayOn (s : Pm F) (hoff : s.relayOn = false) (now : UInt64) :
    (updateStarting s now).relayOn = true ↔ MayStart s now := by
  have hlatch := latchFault_relayOn s .tooManyStarts now
  have hon : (enterState (pumpOn s now) .running now).relayOn = true :=
    congrArg Control.relayOn (enterState_control (pumpOn s now) .running now)
  have hlock : (enterState s .lockout now).relayOn = false :=
    (congrArg Control.relayOn (enterState_control s .lockout now)).trans hoff
  unfold updateStarting MayStart
  dsimp only
  split_ifs with hquota hpause
  · simp [hlatch, UInt8.not_lt.mpr hquota]
  · simp [hon, UInt8.not_le.mp hquota, hpause]
  · simp [hlock, hpause]

theorem updateStarting_filtered (s : Pm F) (now : UInt64) :
    (updateStarting s now).m.pressureFilteredBar = s.m.pressureFilteredBar := by
  unfold updateStarting
  dsimp only
  split_ifs <;> simp [latchFault, enterState_m, pumpOn]

variable [FloatArith F]

/-- The filtered pressure after a tick. -/
def nextFiltered (s : Pm F) (bar : F) : F :=
  if s.lastUpdateMs = 0 then bar
  else s.cfg.filterAlpha * bar + (1.0 - s.cfg.filterAlpha) * s.m.pressureFilteredBar

/-- The call switches the relay on only with a filtered pressure below `off_bar`. -/
def StartsBelow (s : Pm F) (c : PmCall F) : Prop :=
  s.relayOn = false → (call s c).relayOn = true →
    (call s c).m.pressureFilteredBar < (call s c).cfg.offBar

/-- A tick in STARTING that may start the pump brings the filter below `off_bar`, and a request
    that may start it finds numbers to compare. -/
def BelowGuard (s : Pm F) : PmCall F → Prop
  | .update bar sensorOk now =>
    s.state = .starting → sensorOk = true → MayStart s now → nextFiltered s bar < s.cfg.offBar
  | .requestOn _ now =>
    s.relayOn = false → s.state ≠ .fault → s.state ≠ .init → MayStart s now →
      s.m.pressureFilteredBar < s.cfg.offBar ∨ s.cfg.offBar ≤ s.m.pressureFilteredBar
  | _ => True

theorem filtersUpdate_filtered (s : Pm F) (bar : F) (now : UInt64) :
    (filtersUpdate s bar now).m.pressureFilteredBar = nextFiltered s bar := by
  unfold filtersUpdate nextFiltered
  split <;> rfl

theorem eventUpdate_filtered (s : Pm F) (now : UInt64) :
    (eventUpdate s now).m.pressureFilteredBar = s.m.pressureFilteredBar := by
  unfold eventUpdate
  split
  · rfl
  · dsimp only
    split <;> rfl

/-- A tick starts the pump in STARTING only, when the sensor and the guards allow it. -/
theorem pmUpdate_starts (s : Pm F) (h : s.control.Safe) (hoff : s.relayOn = false) (bar : F)
    (sensorOk : Bool) (now : UInt64) :
    (pmUpdate s bar sensorOk now).relayOn = true ↔
      s.state = .starting ∧ sensorOk = true ∧ MayStart s now := by
  by_cases hs : s.state = .starting
  swap
  · refine iff_of_false (fun hon => ?_) fun hno => hs hno.1
    have he := pmUpdate_effect s h bar sensorOk now
    change (pmUpdate s bar sensorOk now).control.relayOn = true at hon
    generalize (pmUpdate s bar sensorOk now).control = b at he hon
    cases he with
    | stay | ack | config => exact absurd (hoff.symm.trans hon) (by decide)
    | stop | latch => exact absurd hon (by simp)
    | start t md deadline start htime hoff hrest hinit hcause =>
      rcases hcause with hcause | ⟨d, hd⟩
      · exact hs hcause
      · cases hd
  have hm : (eventUpdate (filtersUpdate s bar now) now).control = s.control := by simp
  change (metricsUpdate _ now).control.relayOn = true ↔ _
  rw [metricsUpdate_control]
  generalize eventUpdate (filtersUpdate s bar now) now = r at hm
  have hrs : r.state = .starting := (congrArg Control.state hm).trans hs
  have hro : r.relayOn = false := (congrArg Control.relayOn hm).trans hoff
  cases sensorOk with
  | false =>
    have hlatch : protections r false now = latchFault (setDemand r .sensorFault) .sensor now := by
      simp [protections, hrs]
    rw [hlatch, stateUpdate_latchFault]
    exact iff_of_false (by simp [Pm.control, latchFault_relayOn]) (by simp)
  | true =>
    have hpass : protections r true now = r := by simp [protections, hrs, hro]
    rw [hpass, show stateUpdate r true now = updateStarting r now by simp only [stateUpdate, hrs]]
    exact (updateStarting_relayOn r hro now).trans (by simp [hs, mayStart_congr hm])

theorem pmUpdate_starting_filtered (s : Pm F) (hs : s.state = .starting) (hoff : s.relayOn = false)
    (bar : F) (now : UInt64) :
    (pmUpdate s bar true now).m.pressureFilteredBar = nextFiltered s bar := by
  have hm : (eventUpdate (filtersUpdate s bar now) now).control = s.control := by simp
  have hp : (eventUpdate (filtersUpdate s bar now) now).m.pressureFilteredBar =
    nextFiltered s bar :=
    (eventUpdate_filtered _ now).trans (filtersUpdate_filtered s bar now)
  rw [pmUpdate, metricsUpdate_filtered]
  generalize eventUpdate (filtersUpdate s bar now) now = r at hm hp
  have hrs : r.state = .starting := (congrArg Control.state hm).trans hs
  have hro : r.relayOn = false := (congrArg Control.relayOn hm).trans hoff
  rw [show protections r true now = r by simp [protections, hrs, hro],
    show stateUpdate r true now = updateStarting r now by simp only [stateUpdate, hrs],
    updateStarting_filtered, hp]

/-- A request starts a pump that is off when all its checks pass. -/
theorem pmRequestOn_starts (s : Pm F) (hoff : s.relayOn = false) (d : UInt32) (now : UInt64) :
    (pmRequestOn s d now).2.relayOn = true ↔ s.state ≠ .fault ∧ s.state ≠ .init ∧
      MayStart s now ∧ ¬ s.cfg.offBar ≤ s.m.pressureFilteredBar := by
  have hrun : (manualRun s d now).relayOn = true :=
    congrArg Control.relayOn (manualRun_control_off s hoff d now)
  unfold pmRequestOn MayStart
  split_ifs with hstate hbar hpause hquota
  · refine iff_of_false (by simp [hoff]) fun hno => ?_
    exact hstate.elim hno.1 hno.2.1
  · exact iff_of_false (by simp [hoff]) fun hno => hno.2.2.2 hbar
  · refine iff_of_false (by simp [hoff]) fun hno => ?_
    exact hno.2.2.1.1.elim hpause.1 (UInt64.not_le.mpr hpause.2)
  · exact iff_of_false (by simp [hoff]) fun hno => UInt8.not_lt.mpr hquota hno.2.2.1.2
  · rw [not_or] at hstate
    refine iff_of_true hrun ⟨hstate.1, hstate.2, ⟨?_, UInt8.not_le.mp hquota⟩, hbar⟩
    by_cases hz : s.pumpStopMs = 0
    · exact .inl hz
    · exact .inr (UInt64.not_lt.mp fun hlt => hpause ⟨hz, hlt⟩)

theorem pmRequestOn_filtered (s : Pm F) (d : UInt32) (now : UInt64) :
    (pmRequestOn s d now).2.m.pressureFilteredBar = s.m.pressureFilteredBar := by
  have hrun : (manualRun s d now).m.pressureFilteredBar = s.m.pressureFilteredBar := by
    simp only [manualRun, enterState_m]
    split_ifs <;> rfl
  unfold pmRequestOn
  split_ifs
  · rfl
  · rfl
  · rfl
  · rfl
  · exact hrun

/-- A call that is neither a tick nor a request on does not switch the relay on. -/
theorem call_not_starts (s : Pm F) (hoff : s.relayOn = false) (c : PmCall F)
    (hupdate : ∀ bar sensorOk now, c ≠ .update bar sensorOk now)
    (hreq : ∀ d now, c ≠ .requestOn d now) : (call s c).relayOn = false := by
  cases c with
  | configSet cfg => exact hoff
  | update bar sensorOk now => exact absurd rfl (hupdate bar sensorOk now)
  | requestOn d now => exact absurd rfl (hreq d now)
  | requestOff now =>
    simp only [call, pmRequestOff, hoff]
    split
    · rfl
    · exact congrArg Control.relayOn (enterState_control _ .idle now)
  | requestRestart now =>
    simp only [call, pmRequestRestart, hoff]
    split <;> exact hoff
  | modeSet mode now =>
    simp only [call, pmModeSet, hoff]
    split <;> rfl
  | faultAck sensorOk now =>
    simp only [call, pmFaultAck]
    split_ifs
    · exact hoff
    · exact (congrArg Control.relayOn (enterState_control _ .idle now)).trans hoff
    · exact hoff

/-- **One call** of a safe state starts the pump below `off_bar` exactly when it meets the
    guard. -/
theorem startsBelow_iff (s : Pm F) (h : s.control.Safe) (c : PmCall F) :
    StartsBelow s c ↔ BelowGuard s c := by
  cases c with
  | update bar sensorOk now =>
    constructor
    · intro hbelow hs hok hmay
      subst hok
      have hoff : s.relayOn = false := h.off (by simp [Pm.control, hs])
      have hon : (pmUpdate s bar true now).relayOn = true :=
        (pmUpdate_starts s h hoff bar true now).mpr ⟨hs, rfl, hmay⟩
      have hlt := hbelow hoff hon
      rcases (pmUpdate_effect s h bar true now).cfg_cases with hcfg | hcfg
      · rwa [show (call s (.update bar true now)).cfg = s.cfg from hcfg,
          show (call s (.update bar true now)).m.pressureFilteredBar = nextFiltered s bar from
            pmUpdate_starting_filtered s hs hoff bar now] at hlt
      · cases hcfg
    · intro hguard hoff hon
      obtain ⟨hs, rfl, hmay⟩ := (pmUpdate_starts s h hoff bar sensorOk now).mp hon
      rcases (pmUpdate_effect s h bar true now).cfg_cases with hcfg | hcfg
      · rw [show (call s (.update bar true now)).cfg = s.cfg from hcfg,
          show (call s (.update bar true now)).m.pressureFilteredBar = nextFiltered s bar from
            pmUpdate_starting_filtered s hs hoff bar now]
        exact hguard hs rfl hmay
      · cases hcfg
  | requestOn d now =>
    have hcfg : (call s (.requestOn d now)).cfg = s.cfg :=
      (pmRequestOn_effect s h d now).cfg_cases.resolve_right (by simp)
    have hp : (call s (.requestOn d now)).m.pressureFilteredBar = s.m.pressureFilteredBar :=
      pmRequestOn_filtered s d now
    rw [StartsBelow, hcfg, hp]
    refine forall_congr' fun hoff => ?_
    rw [show (call s (.requestOn d now)).relayOn = (pmRequestOn s d now).2.relayOn from rfl,
      pmRequestOn_starts s hoff]
    constructor
    · intro hbelow hf hi hmay
      by_cases hle : s.cfg.offBar ≤ s.m.pressureFilteredBar
      · exact .inr hle
      · exact .inl (hbelow ⟨hf, hi, hmay, hle⟩)
    · rintro hguard ⟨hf, hi, hmay, hle⟩
      exact (hguard hf hi hmay).resolve_right hle
  | _ =>
    refine iff_of_true (fun hoff hon => ?_) trivial
    rw [call_not_starts s hoff _ (by simp) (by simp)] at hon
    exact absurd hon (by decide)

/-- **Starts and the OFF threshold.** Every start of a run has a filtered pressure below `off_bar`
    if and only if no tick in STARTING that may start the pump leaves the filter at `off_bar` or
    above, and no request meets a pressure that does not compare with it. -/
theorem pmRun_startsBelow_iff (cfg : PmConfig F) (calls : List (PmCall F)) :
    (∀ i c, calls[i]? = some c → StartsBelow (pmRun cfg (calls.take i)) c) ↔
      ∀ i c, calls[i]? = some c → BelowGuard (pmRun cfg (calls.take i)) c := by
  refine forall_congr' fun i => forall_congr' fun c => forall_congr' fun _ => ?_
  exact startsBelow_iff _ (pmRun_safe cfg _) c

/-- The pressure comes back between the confirmed drop and the start. -/
def pressureBack : List (PmCall Float32) :=
  [.update 3.0 true 200, .modeSet .auto 200, .update 1.0 true 400, .update 1.0 true 3600,
    .update 4.0 true 3800]

/-- The last tick of `pressureBack` starts the pump at 4 bar, with `off_bar` at 3.5. -/
theorem pressureBack_starts :
    ¬ ∀ (cfg : PmConfig Float32) (calls : List (PmCall Float32)) (i : ℕ) (c : PmCall Float32),
      calls[i]? = some c → StartsBelow (pmRun cfg (calls.take i)) c := by
  intro h
  have hlt := h plantConfig pressureBack 4 (.update 4.0 true 3800) rfl (by decide +kernel)
    (by decide +kernel)
  exact absurd hlt (by decide +kernel)

end Fountainer.Pump
