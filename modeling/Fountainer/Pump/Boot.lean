import Fountainer.Pump.Manual

/-!
# The boot gate

`pm_init` leaves the pump in INIT, which `pm_request_on` refuses. A tick with a
healthy sensor opens the gate. Two other calls open it as well:
`pm_request_off`, which moves INIT to IDLE like every other state, and
`pm_fault_ack` with a healthy sensor after a tick latched a sensor fault.
-/

namespace Fountainer.Pump

variable {F : Type*}

/-- A tick with a healthy sensor. -/
def PmCall.Healthy (c : PmCall F) : Prop := ∃ bar now, c = .update bar true now

/-- The pump waits for its first healthy reading. -/
def Control.Gated (a : Control F) : Prop := a.state = .init ∨ a.state = .fault

/-- The calls that keep the gate shut: no tick with a healthy sensor, no request
    off in INIT, no acknowledge of a fault with a healthy sensor. -/
theorem Effect.gated {a b : Control F} {c : PmCall F} (he : Effect a c b) (h : a.Safe)
    (ha : a.Gated) (hc : ¬ c.Healthy) (hoff : ∀ now, c = .requestOff now → a.state ≠ .init)
    (hack : ∀ now, c = .faultAck true now → a.state ≠ .fault) : b.Gated := by
  rcases ha with ha | ha
  · cases he with
    | stay st md deadline hstate hstarting hmode hinit =>
      rcases hinit ha with hst | ⟨bar, now, hcall⟩ | ⟨now, hcall⟩
      · exact .inl hst
      · exact absurd ⟨bar, now, hcall⟩ hc
      · exact absurd ha (hoff now hcall)
    | start now md deadline bar htime hoff' hrest hinit => exact absurd ha hinit
    | stop now htime hon hrun => exact absurd (h.relay_iff.mp hon) (by simp [ha])
    | latch => exact .inr rfl
    | ack now hcall hstate => exact absurd hstate (hack now hcall)
    | config cfg hcall => exact .inl ha
  · refine .inr (not_not.mp (fun hb => ?_))
    obtain ⟨now, hcall⟩ := he.fault_left h ha hb
    exact hack now hcall ha

variable [FloatArith F]

/-- Before its first healthy tick the run neither requests off in INIT nor
    acknowledges a fault with a healthy sensor. -/
def GateKept (cfg : PmConfig F) (calls : List (PmCall F)) : Prop :=
  ∀ pre c post, calls = pre ++ c :: post → (∀ b ∈ pre, ¬ b.Healthy) →
    (∀ now, c = .requestOff now → (pmRun cfg pre).state ≠ .init) ∧
    (∀ now, c = .faultAck true now → (pmRun cfg pre).state ≠ .fault)

theorem GateKept.of_append {cfg : PmConfig F} {calls more : List (PmCall F)}
    (h : GateKept cfg (calls ++ more)) : GateKept cfg calls := by
  intro pre c post hsplit hpre
  exact h pre c (post ++ more) (by rw [hsplit]; simp) hpre

/-- Without a healthy tick the gate stays shut. -/
theorem pmRun_gated (cfg : PmConfig F) (calls : List (PmCall F)) (hkept : GateKept cfg calls)
    (hblind : ∀ c ∈ calls, ¬ c.Healthy) : (pmRun cfg calls).control.Gated := by
  induction calls using List.reverseRecOn with
  | nil => exact .inl rfl
  | append_singleton calls c ih =>
    have hpre : ∀ b ∈ calls, ¬ b.Healthy := fun b hb => hblind b (by simp [hb])
    obtain ⟨hoff, hack⟩ := hkept calls c [] rfl hpre
    rw [pmRun_concat]
    exact (pmRun_effect cfg calls c).gated (pmRun_safe cfg calls) (ih hkept.of_append hpre)
      (hblind c (by simp)) hoff hack

/-- **No blind start.** In a run that keeps the gate, the relay is off in every
    state reached before the first healthy tick. -/
theorem relay_off_before_healthy (cfg : PmConfig F) (calls : List (PmCall F))
    (hkept : GateKept cfg calls) (pre : List (PmCall F)) (hpre : pre <+: calls)
    (hblind : ∀ c ∈ pre, ¬ c.Healthy) : (pmRun cfg pre).relayOn = false := by
  obtain ⟨post, rfl⟩ := hpre
  refine (pmRun_safe cfg pre).off ?_
  rcases pmRun_gated cfg pre hkept.of_append hblind with h | h <;> simp [h]

/-- A refused request and a tick with a broken sensor keep the gate. -/
theorem relay_off_before_healthy_broken :
    (pmRun (F := Float32) plantConfig [.requestOn 0 100, .update 0.0 false 200]).relayOn =
    false := by
  have hkept : GateKept (F := Float32) plantConfig [.requestOn 0 100, .update 0.0 false 200] := by
    intro pre c post hsplit _
    have hc : c ∈ [PmCall.requestOn (F := Float32) 0 100, .update 0.0 false 200] := by
      rw [hsplit]; simp
    simp only [List.mem_cons, List.not_mem_nil, or_false] at hc
    rcases hc with rfl | rfl <;> exact ⟨by simp, by simp⟩
  refine relay_off_before_healthy plantConfig _ hkept _ (List.prefix_refl _) ?_
  intro c hc
  simp only [List.mem_cons, List.not_mem_nil, or_false] at hc
  rcases hc with rfl | rfl <;> simp [PmCall.Healthy]

/-- `pm_request_off` opens the gate: the request on that follows starts the pump
    before any tick. -/
theorem requestOff_opens_gate :
    ¬ ∀ (cfg : PmConfig Float32) (calls : List (PmCall Float32)),
      (∀ c ∈ calls, ¬ c.Healthy) → (pmRun cfg calls).relayOn = false := by
  intro h
  have hoff := h plantConfig [.requestOff 100, .requestOn 0 100] (by
    intro c hc
    simp only [List.mem_cons, List.not_mem_nil, or_false] at hc
    rcases hc with rfl | rfl <;> simp [PmCall.Healthy])
  have hon :
    (pmRun (F := Float32) plantConfig [.requestOff 100, .requestOn 0 100]).relayOn = true := by
    decide +kernel
  exact Bool.false_ne_true (hoff.symm.trans hon)

end Fountainer.Pump
