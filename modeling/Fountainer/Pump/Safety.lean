import Fountainer.Pump.Effects

/-!
# Pump safety

The relay is on exactly in RUNNING and a fault is recorded exactly in FAULT, in
every state that calls reach from `pm_init`, whatever their arguments and times.
-/

namespace Fountainer.Pump

variable {F : Type*}

/-- Without a recorded fault the state is not FAULT, and conversely. -/
theorem Control.Safe.fault_eq_none {a : Control F} (h : a.Safe) (ha : a.state ≠ .fault) :
    a.fault = .none :=
  not_not.mp (fun hf => ha (h.fault_iff.mpr hf))

/-- A call of a safe state leads to a safe state. -/
theorem Effect.safe {a b : Control F} {c : PmCall F} (he : Effect a c b) (h : a.Safe) :
    b.Safe := by
  cases he with
  | stay st md deadline hstate hstarting hmode hinit =>
    rcases hstate with rfl | ⟨ha, hst⟩
    · exact ⟨h.relay_iff, h.fault_iff⟩
    · exact ⟨by simp [h.off ha.1, hst.1], by simp [h.fault_eq_none ha.2, hst.2]⟩
  | start now md deadline bar htime hoff hrest hinit hcause hpause hquota =>
    exact ⟨by simp, by simp [h.fault_eq_none hrest.2]⟩
  | stop now htime hon hrun =>
    have hrunning : a.state = .running := h.relay_iff.mp hon
    exact ⟨by simp, by simp [h.fault_eq_none (by simp [hrunning])]⟩
  | latch now f htime hstate hfault => exact ⟨by simp, by simp [hfault]⟩
  | ack now hcall hstate => exact ⟨by simp [h.off (by simp [hstate])], by simp⟩
  | config cfg hcall => exact ⟨h.relay_iff, h.fault_iff⟩

/-- Leaving FAULT takes an acknowledge with a healthy sensor. -/
theorem Effect.fault_left {a b : Control F} {c : PmCall F} (he : Effect a c b) (h : a.Safe)
    (ha : a.state = .fault) (hb : b.state ≠ .fault) : ∃ now, c = .faultAck true now := by
  cases he with
  | stay st md deadline hstate hstarting hmode hinit =>
    rcases hstate with rfl | ⟨hrest, -⟩
    · exact absurd ha hb
    · exact absurd ha hrest.2
  | start now md deadline bar htime hoff hrest hinit hcause hpause hquota => exact absurd ha hrest.2
  | stop now htime hon hrun => exact absurd (h.relay_iff.mp hon) (by simp [ha])
  | latch now f htime hstate hfault => exact absurd ha hstate
  | ack now hcall hstate => exact ⟨now, hcall⟩
  | config cfg hcall => exact absurd ha hb

/-- No call switches the relay on in FAULT. -/
theorem Effect.fault_off {a b : Control F} {c : PmCall F} (he : Effect a c b) (h : a.Safe)
    (ha : a.state = .fault) : b.relayOn = false := by
  have hoff : a.relayOn = false := h.off (by simp [ha])
  cases he with
  | stay | ack | config => exact hoff
  | start now md deadline bar htime _ hrest => exact absurd ha hrest.2
  | stop | latch => rfl

/-- The configuration changes only by `pm_config_set`. -/
theorem Effect.cfg_cases {a b : Control F} {c : PmCall F} (he : Effect a c b) :
    b.cfg = a.cfg ∨ c = .configSet b.cfg := by
  cases he with
  | stay | start | stop | latch | ack => exact .inl rfl
  | config cfg hcall => exact .inr hcall

variable [FloatArith F]

theorem pmInit_safe (cfg : PmConfig F) : (pmInit cfg).control.Safe :=
  ⟨by simp [pmInit, Pm.control], by simp [pmInit, Pm.control]⟩

/-- Every call preserves safety. -/
theorem call_safe (s : Pm F) (h : s.control.Safe) (c : PmCall F) : (call s c).control.Safe :=
  (call_effect s h c).safe h

/-- Every reachable state is safe. -/
theorem pmRun_safe (cfg : PmConfig F) (calls : List (PmCall F)) :
    (pmRun cfg calls).control.Safe :=
  Machine.run_invariant call (fun s c h => call_safe s h c) (pmInit_safe cfg) calls

/-- The effect of a call in a reachable state. -/
theorem pmRun_effect (cfg : PmConfig F) (calls : List (PmCall F)) (c : PmCall F) :
    Effect (pmRun cfg calls).control c (call (pmRun cfg calls) c).control :=
  call_effect _ (pmRun_safe cfg calls) c

/-- What holds of every configuration that is set holds of the one in force. -/
theorem pmRun_cfg (P : PmConfig F → Prop) (cfg : PmConfig F) (calls : List (PmCall F))
    (hcfg : P cfg) (hset : ∀ cfg', .configSet cfg' ∈ calls → P cfg') :
    P (pmRun cfg calls).cfg := by
  induction calls using List.reverseRecOn with
  | nil => exact hcfg
  | append_singleton calls c ih =>
    rw [pmRun_concat]
    rcases (pmRun_effect cfg calls c).cfg_cases with hkeep | hcall
    · rw [show (call (pmRun cfg calls) c).cfg = (pmRun cfg calls).cfg from hkeep]
      exact ih (fun cfg' h => hset cfg' (by simp [h]))
    · exact hset _ (List.mem_append_right _ (List.mem_singleton.mpr hcall.symm))

/-- In FAULT, an acknowledge with a healthy sensor leads to IDLE. -/
theorem pmFaultAck_state (s : Pm F) (hs : s.state = .fault) (now : UInt64) :
    (pmFaultAck s true now).2.state = .idle := by
  simp [pmFaultAck, hs]

/-- **Pump safety.** After every sequence of calls the relay is on exactly in
    RUNNING and a fault is recorded exactly in FAULT. In FAULT every call leaves
    the relay off, and the calls that leave FAULT are the acknowledges with a
    healthy sensor. -/
theorem relay_and_fault_safe (cfg : PmConfig F) (calls : List (PmCall F)) :
    ((pmRun cfg calls).relayOn = true ↔ (pmRun cfg calls).state = .running) ∧
    ((pmRun cfg calls).state = .fault ↔ (pmRun cfg calls).fault ≠ .none) ∧
    ((pmRun cfg calls).state = .fault → ∀ c,
      ((call (pmRun cfg calls) c).state ≠ .fault ↔ ∃ now, c = .faultAck true now) ∧
      (call (pmRun cfg calls) c).relayOn = false) := by
  have h := pmRun_safe cfg calls
  refine ⟨h.relay_iff, h.fault_iff, fun hs c => ⟨⟨?_, ?_⟩, ?_⟩⟩
  · exact (pmRun_effect cfg calls c).fault_left h hs
  · rintro ⟨now, rfl⟩
    rw [show call _ _ = (pmFaultAck (pmRun cfg calls) true now).2 from rfl,
      pmFaultAck_state _ hs]
    decide
  · exact (pmRun_effect cfg calls c).fault_off h hs

end Fountainer.Pump
