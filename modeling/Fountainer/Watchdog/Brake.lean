import Fountainer.Watchdog.Ladder

/-!
# The brake counts reboots

The count in RTC memory rises when a reboot is requested. The reboot itself comes two seconds
later, from a task of its own, if that task could be created at all. `BrakeRun` follows both:
what the watchdog has counted, and what has been executed.
-/

namespace Fountainer.Watchdog

/-- The watchdog, whether an accepted request waits for its delay, and the number of its
    reboots executed since the last power-on or session success. -/
structure BrakeRun where
  wd : Wd
  outstanding : Bool
  executed : ℕ

/-- The delay of an accepted request expires, or anything else happens; a `reboot` of the
    latter is one that the watchdog has not asked for. -/
inductive BrakeOp where
  | rebootDue
  | other (op : WdOp)

/-- A request that the hook accepts. -/
def WdAct.isAccepted : WdAct → Bool
  | .reboot _ _ accepted => accepted
  | .stage _ | .attempt _ | .recover _ | .publish _ _ _ | .log _ _ _ _ => false

/-- The hook has accepted a request during the step. -/
def Wd.accepted (w : Wd) : Bool := w.out.any WdAct.isAccepted

/-- The operation is a boot. -/
def WdOp.isBoot : WdOp → Bool
  | .powerOn _ | .reboot => true
  | .hookSet _ | .register _ _ _ | .heartbeat _ _ | .checkpoint _ _ | .success
    | .check _ _ _ => false

/-- One step. A boot drops the task that waits. -/
def brakeStep (b : BrakeRun) : BrakeOp → BrakeRun
  | .rebootDue =>
    if b.outstanding then
      { wd := wdStep b.wd .reboot, outstanding := false, executed := b.executed + 1 }
    else b
  | .other op =>
    let w := wdStep b.wd op
    { wd := w
      outstanding := !op.isBoot && (b.outstanding || w.accepted)
      executed := if op.releases then 0 else b.executed }

/-- The run's start, at a power-on. -/
def brakeInit (rtc : { r : WdRtc // r.magic ≠ wdRtcMagic }) : BrakeRun where
  wd := wdInit (resetStatics rtc)
  outstanding := false
  executed := 0

/-- The step boots the device. -/
def BrakeOp.boots (b : BrakeRun) : BrakeOp → Bool
  | .rebootDue => b.outstanding
  | .other op => op.isBoot

/-- A turn that the brake alone can keep from a request: the channel is silent and without
    soft stages, may escalate, its probe allows it and there is a hook. -/
def Wd.Escalates (w : Wd) (id : UInt32) (now : ℤ) (env : CheckEnv) : Prop :=
  (id < wdMaxChannels ∧ (w.ch id).used = true) ∧
    (w.ch id).info.deadlineMs ≤ elapsedMs (w.ch id) now ∧
    (w.ch id).info.maxSoft ≤ (w.ch id).softCount ∧ (w.ch id).info.escalateReboot = true ∧
    ((w.ch id).info.rebootAllowed = true → env.probe = true) ∧ w.hook = true

instance (w : Wd) (id : UInt32) (now : ℤ) (env : CheckEnv) : Decidable (w.Escalates id now env) :=
  inferInstanceAs (Decidable ((_ ∧ _) ∧ _ ∧ _ ∧ _ ∧ (_ → _) ∧ _))

/-- What the brake is for: at a boot the count is that of the executed reboots, and a turn
    that only the brake can stop is stopped after three of them and not before. -/
def Counted (b : BrakeRun) (op : BrakeOp) : Prop :=
  (op.boots b = true →
    (brakeStep b op).wd.rtc.rebootsWithoutSuccess.toNat = (brakeStep b op).executed) ∧
  ∀ id now env, op = .other (.check id now env) → b.wd.Escalates id now env →
    ((∀ a ∈ (brakeStep b op).wd.out, a.isReboot = false) ↔ wdRebootBrakeMax.toNat ≤ b.executed)

/-- The steps at which the count and the reboots stay together: while a request waits, no
    session succeeds, nothing else reboots the device and no other turn escalates; and a
    request is accepted. -/
def Orderly (b : BrakeRun) : BrakeOp → Prop
  | .rebootDue => True
  | .other .success | .other .reboot => b.outstanding = false
  | .other (.check id now env) => b.wd.Escalates id now env →
      b.outstanding = false ∧ (b.executed < wdRebootBrakeMax.toNat → env.accepted = true)
  | .other _ => True

instance (b : BrakeRun) : (op : BrakeOp) → Decidable (Orderly b op)
  | .other .success | .other .reboot => inferInstanceAs (Decidable (b.outstanding = false))
  | .other (.check id now env) => inferInstanceAs (Decidable (b.wd.Escalates id now env →
      b.outstanding = false ∧ (b.executed < wdRebootBrakeMax.toNat → env.accepted = true)))
  | .rebootDue | .other (.powerOn _) | .other (.hookSet _) | .other (.register _ _ _)
  | .other (.heartbeat _ _) | .other (.checkpoint _ _) => inferInstanceAs (Decidable True)

variable {w : Wd} {id : UInt32} {now : ℤ} {env : CheckEnv}

-- ════════════════════════════════════════════════════════════════════════
-- Requests
-- ════════════════════════════════════════════════════════════════════════

theorem side_not_reboot {acts : List WdAct} (h : ∀ a ∈ acts, a.isSide = true) :
    ∀ a ∈ acts, a.isReboot = false := by
  intro a ha
  simpa using List.countP_eq_zero.mp (countP_reboot_of_side h) a ha

theorem any_accepted_eq_false {acts : List WdAct} (h : ∀ a ∈ acts, a.isReboot = false) :
    acts.any WdAct.isAccepted = false := by
  refine List.any_eq_false.mpr fun a ha haccepted => ?_
  have hreboot := h a ha
  cases a <;> simp_all [WdAct.isReboot, WdAct.isAccepted]

/-- A turn that escalates with the brake released counts and asks the hook once. -/
theorem wdStep_requests (h : w.Escalates id now env)
    (hbrake : w.rtc.rebootsWithoutSuccess < wdRebootBrakeMax) :
    (wdStep w (.check id now env)).rtc.rebootsWithoutSuccess = w.rtc.rebootsWithoutSuccess + 1 ∧
      (wdStep w (.check id now env)).accepted = env.accepted ∧
      .reboot id 2000 env.accepted ∈ (wdStep w (.check id now env)).out := by
  obtain ⟨hi, htime, hsoft, hesc, hallowed, hhook⟩ := h
  simp only [wdStep, if_pos hi]
  cases checkChannel_checked { w with out := [] } id now env with
  | early h' => exact absurd htime (UInt32.not_le.mpr h')
  | stage _ h' => exact absurd hsoft (UInt8.not_le.mpr h')
  | rearmed _ _ h' => exact absurd (hesc.symm.trans h') (by simp)
  | blocked _ _ _ h' => exact absurd ⟨hallowed, hbrake, hhook⟩ h'
  | requested _ _ _ _ _ _ hrtc new new' hact hnew hnew' =>
    refine ⟨by rw [hrtc]; rfl, ?_, by simp [hact]⟩
    simp [Wd.accepted, hact, any_accepted_eq_false (side_not_reboot hnew),
      any_accepted_eq_false (side_not_reboot hnew'), WdAct.isAccepted]

/-- A turn that does not escalate, or finds the brake engaged, does neither. -/
theorem wdStep_quiet
    (h : ¬ (w.Escalates id now env ∧ w.rtc.rebootsWithoutSuccess < wdRebootBrakeMax)) :
    (wdStep w (.check id now env)).rtc = w.rtc ∧
      ∀ a ∈ (wdStep w (.check id now env)).out, a.isReboot = false := by
  by_cases hi : id < wdMaxChannels ∧ (w.ch id).used = true
  swap
  · simp [wdStep, if_neg hi]
  simp only [wdStep, if_pos hi]
  cases checkChannel_checked { w with out := [] } id now env with
  | early _ hw => simp [hw]
  | stage _ _ _ _ hrtc new hact hnew =>
    refine ⟨hrtc, ?_⟩
    simpa [hact, WdAct.isReboot] using side_not_reboot hnew
  | rearmed _ _ _ _ _ hrtc hsame => simp [hrtc, hsame]
  | blocked _ _ _ _ _ _ _ hrtc new hact hnew =>
    refine ⟨hrtc, ?_⟩
    simpa [hact, WdAct.isReboot] using side_not_reboot hnew
  | requested htime hsoft hesc hreq =>
    exact absurd ⟨⟨hi, htime, hsoft, hesc, hreq.1, hreq.2.2⟩, hreq.2.1⟩ h

-- ════════════════════════════════════════════════════════════════════════
-- The count along a run
-- ════════════════════════════════════════════════════════════════════════

/-- The count is that of the executed reboots, with the one that waits. -/
structure Together (b : BrakeRun) : Prop where
  magic : b.wd.rtc.magic = wdRtcMagic
  count : b.wd.rtc.rebootsWithoutSuccess.toNat = b.executed + b.outstanding.toNat

theorem brakeInit_together (rtc : { r : WdRtc // r.magic ≠ wdRtcMagic }) :
    Together (brakeInit rtc) := by
  constructor
  · simp [brakeInit, wdInit, resetStatics, rtc.2]
  · simp [brakeInit, wdInit, resetStatics, rtc.2]

/-- An orderly step keeps them together. -/
theorem brakeStep_together {b : BrakeRun} {op : BrakeOp} (hop : Orderly b op) (h : Together b) :
    Together (brakeStep b op) := by
  cases op with
  | rebootDue =>
    rw [brakeStep]
    split
    · next hdue =>
      obtain ⟨hmagic, hcount⟩ := wdInit_of_magic (w := resetStatics b.wd.rtc) h.magic
      refine ⟨hmagic, ?_⟩
      have hcount' := h.count
      simp only [hdue, Bool.toNat_true] at hcount'
      show (wdInit (resetStatics b.wd.rtc)).rtc.rebootsWithoutSuccess.toNat = b.executed + 1
      rw [hcount]
      exact hcount'
    · exact h
  | other op =>
    cases wdStep_brake h.magic op with
    | released hrel hmagic hcount hout =>
      refine ⟨hmagic, ?_⟩
      have hno : (wdStep b.wd op).accepted = false := any_accepted_eq_false (side_not_reboot hout)
      have hwait : (!op.isBoot && b.outstanding) = false := by
        cases op with
        | powerOn rtc => rfl
        | success =>
          have hnone : b.outstanding = false := hop
          simp [hnone]
        | _ => simp [WdOp.releases] at hrel
      simp [brakeStep, hcount, hrel, hno, hwait]
    | quiet hrel hmagic hcount hout =>
      refine ⟨hmagic, ?_⟩
      have hno : (wdStep b.wd op).accepted = false :=
        any_accepted_eq_false fun a ha => by simpa using List.countP_eq_zero.mp hout a ha
      have hwait : (!op.isBoot && b.outstanding) = b.outstanding := by
        cases op with
        | reboot =>
          have hnone : b.outstanding = false := hop
          simp [hnone]
        | powerOn rtc => simp [WdOp.releases] at hrel
        | _ => rfl
      simpa [brakeStep, hcount, hrel, hno, hwait] using h.count
    | requested id now env heq hmagic hreq hcount hout =>
      subst heq
      refine ⟨hmagic, ?_⟩
      have hesc : b.wd.Escalates id now env := by
        by_contra hno
        have hquiet : ∀ a ∈ (wdStep b.wd (.check id now env)).out, a.isReboot = false :=
          (wdStep_quiet fun h => hno h.1).2
        have hzero : (wdStep b.wd (.check id now env)).out.countP WdAct.isReboot = 0 :=
          List.countP_eq_zero.mpr fun a ha => by simp [hquiet a ha]
        omega
      obtain ⟨hwait, haccept⟩ := hop hesc
      have hsame : b.wd.rtc.rebootsWithoutSuccess.toNat = b.executed := by
        simpa [hwait] using h.count
      have hlt : b.wd.rtc.rebootsWithoutSuccess.toNat < wdRebootBrakeMax.toNat := hreq.2.1
      have hyes := (wdStep_requests hesc hreq.2.1).2.1
      rw [haccept (hsame ▸ hlt)] at hyes
      simp [brakeStep, hcount, toNat_succ_of_lt hreq.2.1, hsame, hyes, WdOp.isBoot, WdOp.releases]

/-- Where the count and the reboots are together, an orderly step is counted. -/
theorem brakeStep_counted {b : BrakeRun} {op : BrakeOp} (hop : Orderly b op) (h : Together b) :
    Counted b op := by
  have hafter := brakeStep_together hop h
  refine ⟨fun hboot => ?_, ?_⟩
  · -- After a boot no request waits.
    have hnone : (brakeStep b op).outstanding = false := by
      cases op with
      | rebootDue => simp [brakeStep, show b.outstanding = true from hboot]
      | other op => simp [brakeStep, show op.isBoot = true from hboot]
    simpa [hnone] using hafter.count
  · rintro id now env rfl hesc
    have hsame : b.wd.rtc.rebootsWithoutSuccess.toNat = b.executed := by
      simpa [(hop hesc).1] using h.count
    constructor
    · intro hno
      by_contra hlt
      have hbrake : b.wd.rtc.rebootsWithoutSuccess < wdRebootBrakeMax :=
        UInt8.lt_iff_toNat_lt.mpr (by omega)
      exact absurd (hno _ (wdStep_requests hesc hbrake).2.2) (by simp [WdAct.isReboot])
    · intro hle
      refine (wdStep_quiet fun h => ?_).2
      have hlt : b.wd.rtc.rebootsWithoutSuccess.toNat < wdRebootBrakeMax.toNat := h.2
      omega

/-- **The count along a run.** In a run whose steps are orderly, the count at every boot is
    the number of executed reboots, and the brake stops the fourth request and no earlier
    one. -/
theorem brake_counts_reboots (rtc : { r : WdRtc // r.magic ≠ wdRtcMagic }) (ops : List BrakeOp)
    (h : Machine.Guarded brakeStep Orderly (brakeInit rtc) ops) :
    Machine.Guarded brakeStep Counted (brakeInit rtc) ops :=
  h.imp brakeStep (P := Together) (fun _ _ hop => brakeStep_together hop)
    (fun _ _ hop => brakeStep_counted hop) (brakeInit_together rtc)

/-- A channel that may reboot the device after 10 ms, and turns for it. -/
def hungOps (accepted : Bool) : List BrakeOp :=
  [.other (.hookSet true), .other (.register 0 (some ⟨some "hung", 10, 0, false, false, true⟩) 0),
    .other (.check 0 10000 ⟨true, accepted, 10000⟩)]

theorem brake_counts_reboots_once :
    Machine.Guarded brakeStep Counted (brakeInit garbageRtc) (hungOps true ++ [.rebootDue]) :=
  brake_counts_reboots garbageRtc _ (by decide)

/-- The hook refuses, and the next software reboot comes up with a watchdog reboot counted. -/
theorem brake_counts_refused :
    ¬ Machine.Guarded brakeStep Counted (brakeInit garbageRtc)
      (hungOps false ++ [.other .reboot]) := by
  intro h
  have hboot := (Machine.guarded_iff_forall brakeStep).mp h 3 (.other .reboot) rfl
  exact absurd (hboot.1 rfl) (by decide)

end Fountainer.Watchdog
