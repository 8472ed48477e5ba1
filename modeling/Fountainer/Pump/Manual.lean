import Fountainer.Pump.Safety

/-!
# MANUAL does not start the pump, except from STARTING

A pump that is off in MANUAL stays off under every call that is neither an
accepted `pm_request_on` nor `pm_mode_set(AUTO)`, unless its state is STARTING:
PRESSURE_DROP looks at the mode again before it moves on, STARTING does not. The
mode can become MANUAL in STARTING only through `pm_mode_set`.
-/

namespace Fountainer.Pump

variable {F : Type*}

/-- Off in MANUAL, and not on the way to a start. -/
structure Control.ManualRest (a : Control F) : Prop where
  manual : a.mode = .manual
  off : a.relayOn = false
  notStarting : a.state ≠ .starting

/-- One call: MANUAL and STARTING meet only through `pm_mode_set`. -/
theorem Effect.manual_not_starting {a b : Control F} {c : PmCall F} (he : Effect a c b)
    (ha : a.mode = .manual → a.state ≠ .starting)
    (hc : ∀ now, c = .modeSet .manual now → a.state ≠ .starting) :
    b.mode = .manual → b.state ≠ .starting := by
  intro hb hst
  cases he with
  | stay st md deadline hstate hstarting hmode hinit =>
    obtain rfl : md = .manual := hb
    rcases hstarting hst with hs | ⟨-, hauto⟩
    · rcases hmode with hm | ⟨-, hne⟩ | ⟨now, hcall⟩
      · exact ha hm.symm hs
      · exact hne hst
      · exact hc now hcall hs
    · exact absurd hauto (by decide)
  | start => simp at hst
  | stop => simp at hst
  | latch => simp at hst
  | ack => simp at hst
  | config cfg hcall => exact ha hb hst

/-- The start guards admit the pump: no pause is required and the quota is
    larger than the start ring. -/
theorem updateStarting_starts (r : Pm F) (now : UInt64) (hpause : r.cfg.minOffMs = 0)
    (hquota : r.cfg.maxStartsPerHour = 255) : (updateStarting r now).relayOn = true := by
  have hle : (startsInHour r.startsMs now).toNat ≤ 16 := startsInHour_le r.startsMs now
  have hlt : ¬ startsInLastHour r now ≥ 255 := by
    intro hge
    have : (255 : ℕ) ≤ (startsInHour r.startsMs now).toNat := UInt8.le_iff_toNat_le.mp hge
    omega
  have hrun := enterState_control (pumpOn r now) .running now
  simp only [updateStarting, hquota, hlt, if_false, hpause]
  rw [if_pos (.inr (by simp))]
  exact congrArg Control.relayOn hrun

variable [FloatArith F]

/-- Calls after which nobody expects a start: every call but
    `pm_mode_set(AUTO)` and a `pm_request_on` that is accepted. -/
def Passive (s : Pm F) : PmCall F → Prop
  | .requestOn d now => (pmRequestOn s d now).1 = false
  | .modeSet mode _ => mode = .manual
  | _ => True

/-- Every call of the sequence is passive in the state it meets. -/
def PassiveRun (s : Pm F) (more : List (PmCall F)) : Prop :=
  ∀ pre c post, more = pre ++ c :: post → Passive (Machine.run call s pre) c

/-- No sequence of passive calls switches the relay on. -/
def StaysOff (s : Pm F) : Prop :=
  ∀ more, PassiveRun s more → (Machine.run call s more).relayOn = false

/-- A refused request changes nothing. -/
theorem pmRequestOn_refused (s : Pm F) (d : UInt32) (now : UInt64)
    (h : (pmRequestOn s d now).1 = false) : (pmRequestOn s d now).2 = s := by
  unfold pmRequestOn at h ⊢
  split_ifs at h ⊢ <;> rfl

/-- A passive call keeps a resting pump at rest. -/
theorem call_manualRest (s : Pm F) (h : s.control.Safe) (hr : s.control.ManualRest)
    (c : PmCall F) (hc : Passive s c) : (call s c).control.ManualRest := by
  by_cases hreq : ∃ d now, c = .requestOn d now
  · obtain ⟨d, now, rfl⟩ := hreq
    rw [show call s (.requestOn d now) = s from pmRequestOn_refused s d now hc]
    exact hr
  · have he := call_effect s h c
    generalize (call s c).control = b at he
    cases he with
    | stay st md deadline hstate hstarting hmode hinit =>
      refine ⟨?_, hr.off, fun hst => ?_⟩
      · rcases hmode with rfl | ⟨rfl, -⟩ | ⟨now, rfl⟩
        · exact hr.manual
        · rfl
        · exact hc
      · rcases hstarting hst with ha | ⟨ha, -⟩
        · exact hr.notStarting ha
        · exact absurd (hr.manual.symm.trans ha) (by decide)
    | start now md deadline bar htime hoff hrest hinit hcause hpause hquota =>
      rcases hcause with ha | ⟨d, rfl⟩
      · exact absurd ha hr.notStarting
      · exact absurd ⟨d, now, rfl⟩ hreq
    | stop now htime hon hrun => exact absurd hon (by simp [hr.off])
    | latch now f htime hstate hfault => exact ⟨hr.manual, rfl, by simp⟩
    | ack now hcall hstate => exact ⟨hr.manual, hr.off, by simp⟩
    | config cfg hcall => exact ⟨hr.manual, hr.off, hr.notStarting⟩

/-- A resting pump stays off. -/
theorem staysOff_of_manualRest (s : Pm F) (h : s.control.Safe) (hr : s.control.ManualRest) :
    StaysOff s := by
  intro more hpassive
  have hinv := Machine.run_invariant_of_guard call
    (P := fun s : Pm F => s.control.Safe ∧ s.control.ManualRest) (G := Passive)
    (fun s c hc hs => ⟨call_safe s hs.1 c, call_manualRest s hs.1 hs.2 c hc⟩)
    ⟨h, hr⟩ more hpassive
  exact hinv.2.off

/-- A tick in STARTING with a healthy sensor reaches the start guards. -/
theorem pmUpdate_starting (s : Pm F) (hs : s.state = .starting) (hoff : s.relayOn = false)
    (bar : F) (now : UInt64) :
    ∃ r : Pm F, r.control = s.control ∧
      (pmUpdate s bar true now).control = (updateStarting r now).control := by
  refine ⟨eventUpdate (filtersUpdate s bar now) now, by simp, ?_⟩
  have hm : (eventUpdate (filtersUpdate s bar now) now).control = s.control := by simp
  simp only [pmUpdate, metricsUpdate_control]
  generalize eventUpdate (filtersUpdate s bar now) now = r at hm
  have hrs : r.state = .starting := (congrArg Control.state hm).trans hs
  have hro : r.relayOn = false := (congrArg Control.relayOn hm).trans hoff
  simp [protections, stateUpdate, hrs, hro]

/-- In STARTING two passive calls can switch the relay on. -/
theorem not_staysOff_of_starting (s : Pm F) (hs : s.state = .starting)
    (hoff : s.relayOn = false) : ¬ StaysOff s := by
  intro h
  let permissive : PmConfig F := { s.cfg with minOffMs := 0, maxStartsPerHour := 255 }
  have hrun := h [.configSet permissive, .update 0.0 true 1] ?_
  · obtain ⟨r, hr, hu⟩ := pmUpdate_starting (pmConfigSet s permissive) hs hoff 0.0 1
    have hcfg : r.cfg = permissive := congrArg Control.cfg hr
    have hon := updateStarting_starts r 1 (by rw [hcfg]) (by rw [hcfg])
    have hon' : (pmUpdate (pmConfigSet s permissive) 0.0 true 1).relayOn = true :=
      (congrArg Control.relayOn hu).trans hon
    exact absurd (hon'.symm.trans hrun) (by decide)
  · intro pre c post hsplit
    have hc : c ∈ [PmCall.configSet permissive, .update 0.0 true 1] := by rw [hsplit]; simp
    simp only [List.mem_cons, List.not_mem_nil, or_false] at hc
    rcases hc with rfl | rfl <;> exact trivial

/-- The run never selects MANUAL while the state is STARTING. -/
def NoManualInStarting (cfg : PmConfig F) (calls : List (PmCall F)) : Prop :=
  ∀ pre now post, calls = pre ++ .modeSet .manual now :: post →
    (pmRun cfg pre).state ≠ .starting

theorem pmRun_manual_not_starting (cfg : PmConfig F) (calls : List (PmCall F))
    (h : NoManualInStarting cfg calls) :
    (pmRun cfg calls).mode = .manual → (pmRun cfg calls).state ≠ .starting := by
  induction calls using List.reverseRecOn with
  | nil => simp [pmRun, pmInit]
  | append_singleton calls c ih =>
    have hprev : NoManualInStarting cfg calls := by
      intro pre now post hsplit
      exact h pre now (post ++ [c]) (by rw [hsplit]; simp)
    rw [pmRun_concat]
    refine (pmRun_effect cfg calls c).manual_not_starting (ih hprev) ?_
    rintro now rfl
    exact h calls now [] rfl

/-- **No unintended start in MANUAL, and exactly when.** A reachable pump that is
    off in MANUAL stays off under passive calls if and only if its state is not
    STARTING; and in a run that never selects MANUAL in STARTING it always stays
    off. -/
theorem manual_staysOff_iff (cfg : PmConfig F) (calls : List (PmCall F)) :
    ((pmRun cfg calls).mode = .manual → (pmRun cfg calls).relayOn = false →
      (StaysOff (pmRun cfg calls) ↔ (pmRun cfg calls).state ≠ .starting)) ∧
    (NoManualInStarting cfg calls → (pmRun cfg calls).mode = .manual →
      (pmRun cfg calls).relayOn = false → StaysOff (pmRun cfg calls)) := by
  have hsafe := pmRun_safe cfg calls
  have hrest : (pmRun cfg calls).mode = .manual → (pmRun cfg calls).relayOn = false →
      (pmRun cfg calls).state ≠ .starting → StaysOff (pmRun cfg calls) :=
    fun hm ho hs => staysOff_of_manualRest _ hsafe ⟨hm, ho, hs⟩
  refine ⟨fun hm ho => ⟨fun h hs => not_staysOff_of_starting _ hs ho h, hrest hm ho⟩, ?_⟩
  intro hcond hm ho
  exact hrest hm ho (pmRun_manual_not_starting cfg calls hcond hm)

/-- A confirmed pressure drop in AUTO, and MANUAL selected before the tick that
    starts the pump. -/
def manualInStarting : List (PmCall Float32) :=
  [.update 3.0 true 200, .modeSet .auto 200, .update 1.0 true 400, .update 1.0 true 3600,
    .modeSet .manual 3600]

/-- The tick after `manualInStarting` starts the pump in MANUAL. -/
theorem manualInStarting_starts :
    ¬ ∀ (cfg : PmConfig Float32) (calls : List (PmCall Float32)),
      (pmRun cfg calls).mode = .manual → (pmRun cfg calls).relayOn = false →
        StaysOff (pmRun cfg calls) := by
  intro h
  have hoff := h plantConfig manualInStarting (by decide +kernel) (by decide +kernel)
    [.update 1.0 true 3800] (by
      intro pre c post hsplit
      have hc : c ∈ [PmCall.update (1.0 : Float32) true 3800] := by rw [hsplit]; simp
      obtain rfl := List.mem_singleton.mp hc
      exact trivial)
  have hon : (Machine.run call (pmRun plantConfig manualInStarting)
      [.update 1.0 true 3800]).relayOn = true := by decide +kernel
  exact Bool.false_ne_true (hoff.symm.trans hon)

end Fountainer.Pump
