import Fountainer.Watchdog.Watchdog
import Mathlib.Data.List.Chain
import Mathlib.Algebra.GroupWithZero.Nat

/-!
# The ladder

A channel that is silent climbs one stage a deadline: first its soft recoveries, then the
attempts to escalate. A heartbeat puts it back to the foot. Requests of a reboot are counted
in RTC memory, and the count is looked at before every request.
-/

namespace Fountainer.Watchdog

variable {w w' : Wd} {id : UInt32} {now : ℤ} {env : CheckEnv}

-- ════════════════════════════════════════════════════════════════════════
-- One turn for a channel
-- ════════════════════════════════════════════════════════════════════════

/-- An action that neither climbs the ladder nor requests a reboot. -/
def WdAct.isSide : WdAct → Bool
  | .recover _ | .publish _ _ _ | .log _ _ _ _ => true
  | .stage _ | .attempt _ | .reboot _ _ _ => false

/-- An escalation of the channel requests a reboot: the probe allows it, the brake is
    released and there is a hook. -/
def Wd.Requests (w : Wd) (id : UInt32) (env : CheckEnv) : Prop :=
  ((w.ch id).info.rebootAllowed = true → env.probe = true) ∧
    w.rtc.rebootsWithoutSuccess < wdRebootBrakeMax ∧ w.hook = true

instance (w : Wd) (id : UInt32) (env : CheckEnv) : Decidable (w.Requests id env) :=
  inferInstanceAs (Decidable ((_ → _) ∧ _ ∧ _))

/-- The RTC memory after a request of the channel `c`. -/
def WdRtc.requested (r : WdRtc) (id : UInt32) (c : WdChannel) (env : CheckEnv) : WdRtc where
  magic := r.magic
  pending := if env.accepted then 1 else 0
  channel := id.toUInt8
  checkpoint := c.checkpoint
  softCount := c.softCount
  rebootsWithoutSuccess := r.rebootsWithoutSuccess + 1
  uptimeS := UInt32.ofInt (env.nowUs.tdiv 1000000)

/-- What an escalation does. -/
inductive Escalated (w : Wd) (id : UInt32) (env : CheckEnv) (w' : Wd) : Prop where
  | blocked (h : ¬ w.Requests id env) (logged : Bool)
      (hch : w'.ch = Function.update w.ch id { w.ch id with brakeLogged := logged })
      (hhook : w'.hook = w.hook) (hrtc : w'.rtc = w.rtc) (new : List WdAct)
      (hout : w'.out = w.out ++ new) (hnew : ∀ a ∈ new, a.isSide = true)
  | requested (h : w.Requests id env) (hch : w'.ch = w.ch) (hhook : w'.hook = w.hook)
      (hrtc : w'.rtc = w.rtc.requested id (w.ch id) env) (new : List WdAct)
      (hout : w'.out = w.out ++ new ++ [.reboot id 2000 env.accepted])
      (hnew : ∀ a ∈ new, a.isSide = true)

theorem escalate_escalated (w : Wd) (id : UInt32) (env : CheckEnv) :
    Escalated w id env (escalate w id env) := by
  have hsame :
    w.ch = Function.update w.ch id { w.ch id with brakeLogged := (w.ch id).brakeLogged } :=
    (Function.update_eq_self id w.ch).symm
  rw [escalate]
  dsimp only
  split
  · next hprobe =>
    refine .blocked (fun h => ?_) _ hsame rfl rfl [] (List.append_nil _).symm (by simp)
    simp [h.1 hprobe.1] at hprobe
  next hprobe =>
  split
  · next hbrake =>
    have hblocked : ¬ w.Requests id env := fun h => absurd h.2.1 (UInt8.not_lt.mpr hbrake)
    split
    · exact .blocked hblocked true rfl rfl rfl [_, _] (List.append_assoc _ _ _)
        (by simp [WdAct.isSide])
    · exact .blocked hblocked _ hsame rfl rfl [] (List.append_nil _).symm (by simp)
  next hbrake =>
  split
  · next hhook =>
    refine .blocked (fun h => ?_) _ hsame rfl rfl [] (List.append_nil _).symm (by simp)
    simp [h.2.2] at hhook
  · next hhook =>
    have hreq : w.Requests id env := by
      refine ⟨fun hallowed => ?_, UInt8.not_le.mp hbrake, by simpa using hhook⟩
      by_contra hno
      exact hprobe ⟨hallowed, by simpa using hno⟩
    refine .requested hreq ?_ ?_ ?_
      [.log .reboot id (w.ch id).checkpoint.toUInt32 (w.ch id).info.name,
      .publish .rebootRequested id.toUInt8 (w.ch id).checkpoint.toUInt32.toInt32] ?_
      (by simp [WdAct.isSide])
    all_goals cases hacc : env.accepted <;> simp [WdRtc.requested, hacc, publishWdEvent, Wd.emit]

/-- The channel after a timeout. -/
def WdChannel.rearmed (c : WdChannel) (now : ℤ) : WdChannel :=
  { c with inTimeout := true, lastBeatUs := now }

/-- What a turn does: the channel is in time, runs a soft stage, is only re-armed, or
    attempts to escalate. -/
inductive Checked (w : Wd) (id : UInt32) (now : ℤ) (env : CheckEnv) (w' : Wd) : Prop where
  | early (h : elapsedMs (w.ch id) now < (w.ch id).info.deadlineMs) (hw : w' = w)
  | stage (h : (w.ch id).info.deadlineMs ≤ elapsedMs (w.ch id) now)
      (hsoft : (w.ch id).softCount < (w.ch id).info.maxSoft)
      (hch : w'.ch = Function.update w.ch id
        { (w.ch id).rearmed now with softCount := (w.ch id).softCount + 1 })
      (hhook : w'.hook = w.hook) (hrtc : w'.rtc = w.rtc) (new : List WdAct)
      (hout : w'.out = w.out ++ .stage id :: new) (hnew : ∀ a ∈ new, a.isSide = true)
  | rearmed (h : (w.ch id).info.deadlineMs ≤ elapsedMs (w.ch id) now)
      (hsoft : (w.ch id).info.maxSoft ≤ (w.ch id).softCount)
      (hesc : (w.ch id).info.escalateReboot = false)
      (hch : w'.ch = Function.update w.ch id ((w.ch id).rearmed now))
      (hhook : w'.hook = w.hook) (hrtc : w'.rtc = w.rtc) (hout : w'.out = w.out)
  | blocked (h : (w.ch id).info.deadlineMs ≤ elapsedMs (w.ch id) now)
      (hsoft : (w.ch id).info.maxSoft ≤ (w.ch id).softCount)
      (hesc : (w.ch id).info.escalateReboot = true) (hreq : ¬ w.Requests id env)
      (logged : Bool)
      (hch : w'.ch = Function.update w.ch id
        { (w.ch id).rearmed now with brakeLogged := logged })
      (hhook : w'.hook = w.hook) (hrtc : w'.rtc = w.rtc) (new : List WdAct)
      (hout : w'.out = w.out ++ .attempt id :: new) (hnew : ∀ a ∈ new, a.isSide = true)
  | requested (h : (w.ch id).info.deadlineMs ≤ elapsedMs (w.ch id) now)
      (hsoft : (w.ch id).info.maxSoft ≤ (w.ch id).softCount)
      (hesc : (w.ch id).info.escalateReboot = true) (hreq : w.Requests id env)
      (hch : w'.ch = Function.update w.ch id ((w.ch id).rearmed now))
      (hhook : w'.hook = w.hook) (hrtc : w'.rtc = w.rtc.requested id (w.ch id) env)
      (new new' : List WdAct)
      (hout : w'.out = w.out ++ .attempt id :: (new ++ .reboot id 2000 env.accepted :: new'))
      (hnew : ∀ a ∈ new, a.isSide = true) (hnew' : ∀ a ∈ new', a.isSide = true)

theorem checkChannel_checked (w : Wd) (id : UInt32) (now : ℤ) (env : CheckEnv) :
    Checked w id now env (checkChannel w id now env) := by
  rw [checkChannel]
  dsimp only
  split
  · next hearly => exact .early hearly rfl
  next htime =>
  have htime := UInt32.not_lt.mp htime
  split
  · next hsoft =>
    have hside : ∀ new : List WdAct, new.all WdAct.isSide = true → ∀ a ∈ new, a.isSide = true :=
      fun new h => List.all_eq_true.mp h
    split
    · refine .stage htime hsoft rfl rfl rfl
        [.log .timeout id ((w.ch id).softCount + 1).toUInt32 (w.ch id).info.name,
          .publish .timeout id.toUInt8 (elapsedMs (w.ch id) now).toInt32,
          .publish .recoveryStarted id.toUInt8 ((w.ch id).softCount + 1).toUInt32.toInt32,
          .recover id] ?_ (hside _ rfl)
      simp [publishWdEvent, Wd.emit, Wd.setCh]
    · refine .stage htime hsoft rfl rfl rfl
        [.log .timeout id ((w.ch id).softCount + 1).toUInt32 (w.ch id).info.name,
          .publish .timeout id.toUInt8 (elapsedMs (w.ch id) now).toInt32] ?_ (hside _ rfl)
      simp [publishWdEvent, Wd.emit, Wd.setCh]
  next hsoft =>
  have hsoft := UInt8.not_lt.mp hsoft
  split
  swap
  · next hesc => exact .rearmed htime hsoft (by simpa using hesc) rfl rfl rfl rfl
  next hesc =>
  -- The escalation sees the channel re-armed.
  have hself : (((w.setCh id ((w.ch id).rearmed now)).emit (.attempt id)).ch id)
      = (w.ch id).rearmed now := Function.update_self _ _ _
  have hreq : ((w.setCh id ((w.ch id).rearmed now)).emit (.attempt id)).Requests id env
      ↔ w.Requests id env := by
    rw [Wd.Requests, hself]
    exact Iff.rfl
  have htail : ∀ v : Wd, ∃ tail : List WdAct, (∀ a ∈ tail, a.isSide = true) ∧
      (if (w.ch id).info.recover then v.emit (.recover id) else v)
        = { v with out := v.out ++ tail } := by
    intro v
    split
    · exact ⟨[.recover id], by simp [WdAct.isSide], rfl⟩
    · exact ⟨[], by simp, by simp⟩
  obtain ⟨tail, htail, heq⟩ := htail
    (escalate ((w.setCh id ((w.ch id).rearmed now)).emit (.attempt id)) id env)
  rw [show ({ w.ch id with inTimeout := true, lastBeatUs := now } : WdChannel)
    = (w.ch id).rearmed now from rfl, heq]
  cases escalate_escalated ((w.setCh id ((w.ch id).rearmed now)).emit (.attempt id)) id env with
  | blocked h logged hch hhook hrtc new hout hnew =>
    rw [hself] at hch
    refine .blocked htime hsoft hesc (mt hreq.mpr h) logged ?_ hhook hrtc (new ++ tail) ?_ ?_
    · exact hch.trans (Function.update_idem ..)
    · exact (congrArg (· ++ tail) hout).trans (by simp [Wd.emit, Wd.setCh])
    · intro a ha
      exact (List.mem_append.mp ha).elim (hnew a) (htail a)
  | requested h hch hhook hrtc new hout hnew =>
    rw [hself] at hrtc
    refine .requested htime hsoft hesc (hreq.mp h) hch hhook hrtc new tail ?_ hnew htail
    exact (congrArg (· ++ tail) hout).trans (by simp [Wd.emit, Wd.setCh])

-- ════════════════════════════════════════════════════════════════════════
-- The marks of a run
-- ════════════════════════════════════════════════════════════════════════

/-- What a run notes of the ladder: a boot, a beat or registration of a channel, a soft
    stage. -/
inductive WdMark where
  | boot
  | armed (id : UInt32) (t : ℤ)
  | stage (id : UInt32) (t : ℤ)
  deriving DecidableEq, Repr

/-- The mark of a step: of the calls that the watchdog takes, and of what a turn does. -/
def wdMark (w : Wd) (op : WdOp) (w' : Wd) : Option WdMark :=
  match op with
  | .powerOn _ | .reboot => some .boot
  | .register id info now =>
    if (wdRegister w id info now).1 = .ok then some (.armed id now) else none
  | .heartbeat id now => if id < wdMaxChannels ∧ (w.ch id).used then some (.armed id now) else none
  | .check id now _ => if .stage id ∈ w'.out then some (.stage id now) else none
  | .hookSet _ | .checkpoint _ _ | .success => none

/-- The marks of a run from a power-on. -/
def wdMarks (rtc : { r : WdRtc // r.magic ≠ wdRtcMagic }) (ops : List WdOp) : List WdMark :=
  Machine.collect wdStep wdMark (wdInit (resetStatics rtc)) ops

/-- The channel begins anew: its last beat or registration, or the boot. -/
def WdMark.restarts (id : UInt32) : WdMark → Bool
  | .boot => true
  | .armed i _ => i = id
  | .stage _ _ => false

/-- The time of a soft stage of the channel. -/
def WdMark.stageTime? (id : UInt32) : WdMark → Option ℤ
  | .stage i t => if i = id then some t else none
  | .boot | .armed _ _ => none

/-- The times of the channel's soft stages. -/
def stageTimes (id : UInt32) (marks : List WdMark) : List ℤ :=
  marks.filterMap (WdMark.stageTime? id)

/-- Each time lies at least a deadline after the one before. -/
def Spaced (deadlineMs : UInt32) (times : List ℤ) : Prop :=
  times.IsChain fun (a b : ℤ) => a + deadlineMs.toNat * 1000 ≤ b

/-- The captured time of a turn is not before the beat that the channel holds. -/
def Timely (w : Wd) : WdOp → Prop
  | .check id now _ => (w.ch id).used = true → (w.ch id).lastBeatUs ≤ now
  | _ => True

instance (w : Wd) : (op : WdOp) → Decidable (Timely w op)
  | .check id now _ =>
    inferInstanceAs (Decidable ((w.ch id).used = true → (w.ch id).lastBeatUs ≤ now))
  | .powerOn _ | .reboot | .hookSet _ | .register _ _ _ | .heartbeat _ _
    | .checkpoint _ _ | .success =>
    inferInstanceAs (Decidable True)

theorem Spaced.concat {d : UInt32} {times : List ℤ} {now : ℤ} (h : Spaced d times)
    (hall : ∀ t ∈ times, t + d.toNat * 1000 ≤ now) : Spaced d (times ++ [now]) := by
  refine List.IsChain.append h (List.isChain_singleton _) fun a ha b hb => ?_
  obtain rfl : now = b := by simpa using hb
  exact hall a (List.mem_of_mem_getLast? ha)

/-- A deadline that has passed on the 32-bit clock has passed. -/
theorem deadline_le_of_elapsed {c : WdChannel} (hnow : c.lastBeatUs ≤ now)
    (h : c.info.deadlineMs ≤ elapsedMs c now) :
    c.lastBeatUs + c.info.deadlineMs.toNat * 1000 ≤ now := by
  obtain ⟨n, hn⟩ := Int.eq_ofNat_of_zero_le (Int.sub_nonneg.mpr hnow)
  have helapsed : (elapsedMs c now).toNat ≤ n / 1000 := by
    rw [elapsedMs, hn, Int.tdiv_eq_ediv_of_nonneg (Int.natCast_nonneg n)]
    simp [UInt32.ofInt]
    omega
  have hle : c.info.deadlineMs.toNat ≤ (elapsedMs c now).toNat := h
  omega

/-- The channel's place on the ladder: since it was armed it has run as many soft stages as
    it counts, a deadline apart, none later than the beat that it holds. -/
def Climbed (marks : List WdMark) (id : UInt32) (c : WdChannel) : Prop :=
  ∃ before t₀ mid, marks = before ++ .armed id t₀ :: mid ∧
    (∀ m ∈ mid, m.restarts id = false) ∧
    (stageTimes id mid).length = c.softCount.toNat ∧
    Spaced c.info.deadlineMs (t₀ :: stageTimes id mid) ∧
    ∀ t ∈ t₀ :: stageTimes id mid, t ≤ c.lastBeatUs

/-- What holds of a channel along a run. -/
structure OnLadder (marks : List WdMark) (id : UInt32) (c : WdChannel) : Prop where
  climbed : c.used = true → Climbed marks id c
  bounded : c.softCount ≤ c.info.maxSoft
  unused : c.used = false → c.softCount = 0

-- ════════════════════════════════════════════════════════════════════════
-- What a step does to a channel
-- ════════════════════════════════════════════════════════════════════════

/-- A channel before and after a step, with the step's mark. -/
inductive ChannelStep (id : UInt32) (c : WdChannel) (mark : Option WdMark)
    (c' : WdChannel) : Prop where
  | booted (h : c' = blankChannel)
  | armed (t : ℤ) (hmark : mark = some (.armed id t)) (hbeat : c'.lastBeatUs = t)
      (hsoft : c'.softCount = 0 ∨ c.used = false ∧ c'.softCount = c.softCount)
  | staged (t : ℤ) (hmark : mark = some (.stage id t)) (hused : c.used = true)
      (htime : c.lastBeatUs + c.info.deadlineMs.toNat * 1000 ≤ t)
      (hlt : c.softCount < c.info.maxSoft)
      (h : c' = { c.rearmed t with softCount := c.softCount + 1 })
  | kept (hmark : ∀ m ∈ mark, m.restarts id = false ∧ m.stageTime? id = none)
      (hused : c'.used = c.used) (hinfo : c'.info = c.info) (hbeat : c.lastBeatUs ≤ c'.lastBeatUs)
      (hsoft : c'.softCount = c.softCount)

theorem ChannelStep.refl {mark : Option WdMark} {c : WdChannel}
    (hmark : ∀ m ∈ mark, m.restarts id = false ∧ m.stageTime? id = none) :
    ChannelStep id c mark c :=
  .kept hmark rfl rfl (le_refl _) rfl

theorem wdInit_ch (w : Wd) : (wdInit w).ch = fun _ => blankChannel := by
  rw [wdInit]
  dsimp only
  split
  · rfl
  · split <;> rfl

theorem wdRegister_channel (w : Wd) (i : UInt32) (info : Option WdChannelDef) (now : ℤ)
    (id : UInt32) :
    ChannelStep id (w.ch id)
      (if (wdRegister w i info now).1 = .ok then some (.armed i now) else none)
      ((wdRegister w i info now).2.ch id) := by
  unfold wdRegister
  cases info with
  | none => exact .refl (by simp)
  | some d =>
    dsimp only
    split
    · exact .refl (by simp)
    split
    · exact .refl (by simp)
    · next hunused =>
      by_cases hid : id = i
      · subst hid
        refine .armed now (by simp) (by simp [Wd.setCh]) (.inr ⟨by simpa using hunused, ?_⟩)
        simp [Wd.setCh]
      · simp only [Wd.setCh, Function.update_of_ne hid]
        exact .refl (by simp [WdMark.restarts, WdMark.stageTime?, Ne.symm hid])

theorem wdHeartbeat_ch (w : Wd) (i : UInt32) (now : ℤ) :
    (wdHeartbeat w i now).ch = if i < wdMaxChannels ∧ (w.ch i).used then
      Function.update w.ch i
        { w.ch i with lastBeatUs := now, softCount := 0, inTimeout := false, brakeLogged := false }
      else w.ch := by
  rw [wdHeartbeat]
  by_cases hi : i < wdMaxChannels
  · by_cases hu : (w.ch i).used
    · simp [hi, hu, UInt32.not_le.mpr hi, publishWdEvent, Wd.emit, Wd.setCh]
      split <;> rfl
    · simp [hi, hu, UInt32.not_le.mpr hi]
  · simp [hi, UInt32.not_lt.mp hi]

theorem wdHeartbeat_channel (w : Wd) (i : UInt32) (now : ℤ) (id : UInt32) :
    ChannelStep id (w.ch id)
      (if i < wdMaxChannels ∧ (w.ch i).used then some (.armed i now) else none)
      ((wdHeartbeat w i now).ch id) := by
  rw [wdHeartbeat_ch]
  split
  · by_cases hid : id = i
    · subst hid
      exact .armed now rfl (by simp) (.inl (by simp))
    · rw [Function.update_of_ne hid]
      exact .refl (by simp [WdMark.restarts, WdMark.stageTime?, Ne.symm hid])
  · exact .refl (by simp)

theorem wdCheckpoint_channel (w : Wd) (i : UInt32) (checkpoint : UInt16) (id : UInt32) :
    ChannelStep id (w.ch id) none ((wdCheckpoint w i checkpoint).ch id) := by
  rw [wdCheckpoint]
  split
  · exact .refl (by simp)
  · by_cases hid : id = i
    · subst hid
      exact .kept (by simp) (by simp [Wd.setCh]) (by simp [Wd.setCh]) (by simp [Wd.setCh])
        (by simp [Wd.setCh])
    · simp only [Wd.setCh, Function.update_of_ne hid]
      exact .refl (by simp)

theorem stage_not_mem_of_side {new : List WdAct} (h : ∀ a ∈ new, a.isSide = true) (i : UInt32) :
    .stage i ∉ new := fun hmem => by simpa [WdAct.isSide] using h _ hmem

theorem checkChannel_channel {i : UInt32} (hused : (w.ch i).used = true)
    (hnow : (w.ch i).lastBeatUs ≤ now) (hout : w.out = []) (id : UInt32) :
    ChannelStep id (w.ch id) (wdMark w (.check i now env) (checkChannel w i now env))
      ((checkChannel w i now env).ch id) := by
  -- No mark of a turn restarts a channel; only a stage of `id` counts for it.
  have hother : ∀ {w' : Wd}, .stage i ∉ w'.out →
      ∀ m ∈ wdMark w (.check i now env) w', m.restarts id = false ∧ m.stageTime? id = none := by
    intro w' hno
    simp [wdMark, hno]
  have hne : ∀ {w' : Wd} {c : WdChannel}, w'.ch = Function.update w.ch i c → id ≠ i →
      w'.ch id = w.ch id := fun h hid => by rw [h, Function.update_of_ne hid]
  -- A turn that runs no stage keeps the count and moves the beat to `now`.
  have hkept : ∀ {w' : Wd} {c : WdChannel}, w'.ch = Function.update w.ch i c → .stage i ∉ w'.out →
      c.used = (w.ch i).used → c.info = (w.ch i).info → c.lastBeatUs = now →
      c.softCount = (w.ch i).softCount →
      ChannelStep id (w.ch id) (wdMark w (.check i now env) w') (w'.ch id) := by
    intro w' c hch hno hu hinfo hbeat hsoft
    by_cases hid : id = i
    · subst hid
      rw [hch, Function.update_self]
      exact .kept (hother hno) hu hinfo (hbeat ▸ hnow) hsoft
    · rw [hne hch hid]
      exact .refl (hother hno)
  cases checkChannel_checked w i now env with
  | early h hw =>
    rw [hw]
    exact .refl (hother (by simp [hout]))
  | stage h hsoft hch hhook hrtc new hnew =>
    have hmark : wdMark w (.check i now env) (checkChannel w i now env) = some (.stage i now) := by
      simp [wdMark, hnew]
    rw [hmark, hch]
    by_cases hid : id = i
    · subst hid
      rw [Function.update_self]
      exact .staged now rfl hused (deadline_le_of_elapsed hnow h) hsoft rfl
    · rw [Function.update_of_ne hid]
      exact .refl (by simp [WdMark.restarts, WdMark.stageTime?, Ne.symm hid])
  | rearmed h hsoft hesc hch hhook hrtc hsame =>
    exact hkept hch (by simp [hsame, hout]) rfl rfl rfl rfl
  | blocked h hsoft hesc hreq logged hch hhook hrtc new hact hnew =>
    exact hkept hch (by simp [hact, hout, stage_not_mem_of_side hnew]) rfl rfl rfl rfl
  | requested h hsoft hesc hreq hch hhook hrtc new new' hact hnew hnew' =>
    refine hkept hch ?_ rfl rfl rfl rfl
    simp [hact, hout, stage_not_mem_of_side hnew, stage_not_mem_of_side hnew']

/-- What a step does to a channel, whichever channel it is for. -/
theorem wdStep_channel {op : WdOp} (h : Timely w op) (id : UInt32) :
    ChannelStep id (w.ch id) (wdMark w op (wdStep w op)) ((wdStep w op).ch id) := by
  cases op with
  | powerOn rtc => exact .booted (congrFun (wdInit_ch _) id)
  | reboot => exact .booted (congrFun (wdInit_ch _) id)
  | hookSet present => exact .refl (by simp [wdMark])
  | register i info now =>
    have hanswer : (wdRegister { w with out := [] } i info now).1 =
      (wdRegister w i info now).1 := by
      cases info with
      | none => rfl
      | some d =>
        simp only [wdRegister]
        split
        · rfl
        · split <;> rfl
    have hchannel := wdRegister_channel { w with out := [] } i info now id
    rwa [hanswer] at hchannel
  | heartbeat i now => exact wdHeartbeat_channel { w with out := [] } i now id
  | checkpoint i checkpoint => exact wdCheckpoint_channel { w with out := [] } i checkpoint id
  | success => exact .refl (by simp [wdMark])
  | check i now env =>
    by_cases hi : i < wdMaxChannels ∧ (w.ch i).used
    · simp only [wdStep, if_pos hi]
      exact checkChannel_channel (w := { w with out := [] }) hi.2 (h hi.2) rfl id
    · simp only [wdStep, if_neg hi]
      exact .refl (by simp [wdMark])

-- ════════════════════════════════════════════════════════════════════════
-- The ladder along a run
-- ════════════════════════════════════════════════════════════════════════

theorem Climbed.append {marks new : List WdMark} {c c' : WdChannel} (h : Climbed marks id c)
    (hnew : ∀ m ∈ new, m.restarts id = false ∧ m.stageTime? id = none)
    (hinfo : c'.info = c.info) (hbeat : c.lastBeatUs ≤ c'.lastBeatUs)
    (hsoft : c'.softCount = c.softCount) : Climbed (marks ++ new) id c' := by
  obtain ⟨before, t₀, mid, rfl, hmid, hlength, hspaced, hle⟩ := h
  have hstages : stageTimes id (mid ++ new) = stageTimes id mid := by
    have hnone : new.filterMap (WdMark.stageTime? id) = [] :=
      List.filterMap_eq_nil_iff.mpr fun m hm => (hnew m hm).2
    rw [stageTimes, List.filterMap_append, hnone, List.append_nil, stageTimes]
  refine ⟨before, t₀, mid ++ new, by simp, fun m hm => ?_, ?_, ?_, fun t ht => ?_⟩
  · exact (List.mem_append.mp hm).elim (hmid m) fun hm => (hnew m hm).1
  · rw [hstages, hlength, hsoft]
  · rwa [hstages, hinfo]
  · rw [hstages] at ht
    exact (hle t ht).trans hbeat

/-- A counter below a bound does not wrap. -/
theorem toNat_succ_of_lt {a b : UInt8} (h : a < b) : (a + 1).toNat = a.toNat + 1 := by
  have hlt : a.toNat < b.toNat := h
  have hb := b.toNat_lt
  rw [UInt8.toNat_add]
  exact Nat.mod_eq_of_lt (by simp; omega)

theorem Climbed.stage {marks : List WdMark} {c : WdChannel} {t : ℤ} (h : Climbed marks id c)
    (htime : c.lastBeatUs + c.info.deadlineMs.toNat * 1000 ≤ t)
    (hlt : c.softCount < c.info.maxSoft) :
    Climbed (marks ++ [.stage id t]) id { c.rearmed t with softCount := c.softCount + 1 } := by
  obtain ⟨before, t₀, mid, rfl, hmid, hlength, hspaced, hle⟩ := h
  have hstages : stageTimes id (mid ++ [.stage id t]) = stageTimes id mid ++ [t] := by
    simp [stageTimes, WdMark.stageTime?]
  refine ⟨before, t₀, mid ++ [.stage id t], by simp, fun m hm => ?_, ?_, ?_, fun a ha => ?_⟩
  · rcases List.mem_append.mp hm with hm | hm
    · exact hmid m hm
    · rw [List.mem_singleton.mp hm]
      rfl
  · rw [hstages, List.length_append, hlength, toNat_succ_of_lt hlt]
    rfl
  · rw [hstages]
    exact hspaced.concat fun a ha => le_trans (Int.add_le_add_right (hle a ha) _) htime
  · rw [hstages, ← List.cons_append] at ha
    rcases List.mem_append.mp ha with ha | ha
    · have := hle a ha
      show a ≤ t
      omega
    · rw [List.mem_singleton.mp ha]
      exact le_refl t

/-- A step keeps the channel on the ladder. -/
theorem ChannelStep.onLadder {marks : List WdMark} {mark : Option WdMark} {c c' : WdChannel}
    (hstep : ChannelStep id c mark c') (h : OnLadder marks id c) :
    OnLadder (marks ++ mark.toList) id c' := by
  cases hstep with
  | booted hc =>
    rw [hc]
    exact ⟨fun hused => absurd hused (by simp [blankChannel]), UInt8.le_refl _, fun _ => rfl⟩
  | armed t hmark hbeat hsoft =>
    have hzero : c'.softCount = 0 := hsoft.elim (fun hzero => hzero) fun hunused =>
      hunused.2.trans (h.unused hunused.1)
    refine ⟨fun _ => ⟨marks, t, [], by rw [hmark]; rfl, by simp, ?_, ?_, ?_⟩, ?_, fun _ => hzero⟩
    · rw [hzero]
      rfl
    · exact List.isChain_singleton _
    · simp [stageTimes, hbeat]
    · rw [hzero]
      exact UInt8.zero_le
  | staged t hmark hused htime hlt hc =>
    rw [hmark, hc]
    refine ⟨fun _ => (h.climbed hused).stage htime hlt, ?_, fun hunused => ?_⟩
    · have hsucc := toNat_succ_of_lt hlt
      have hlt : c.softCount.toNat < c.info.maxSoft.toNat := hlt
      exact UInt8.le_iff_toNat_le.mpr (hsucc ▸ hlt)
    · exact absurd (hused.symm.trans hunused) (by simp)
  | kept hmark hused hinfo hbeat hsoft =>
    refine ⟨fun hu => ?_, ?_, fun hu => hsoft.trans (h.unused (hused ▸ hu))⟩
    · exact (h.climbed (hused ▸ hu)).append (fun m hm => hmark m (by simpa using hm))
        hinfo hbeat hsoft
    · rw [hsoft, hinfo]
      exact h.bounded

theorem run_onLadder (rtc : { r : WdRtc // r.magic ≠ wdRtcMagic }) (ops : List WdOp)
    (h : Machine.Guarded wdStep Timely (wdInit (resetStatics rtc)) ops) (id : UInt32) :
    OnLadder (wdMarks rtc ops) id ((wdRun rtc ops).ch id) := by
  refine Machine.Guarded.invariant_collect wdStep (P := fun w marks => OnLadder marks id (w.ch id))
    (fun w marks op hop hw => (wdStep_channel hop id).onLadder hw) ?_ ops h
  rw [wdInit_ch]
  exact ⟨fun hused => absurd hused (by simp [blankChannel]), UInt8.le_refl _, fun _ => rfl⟩

-- ════════════════════════════════════════════════════════════════════════
-- The brake along a run
-- ════════════════════════════════════════════════════════════════════════

/-- A request of a reboot, whatever the hook answers. -/
def WdAct.isReboot : WdAct → Bool
  | .reboot _ _ _ => true
  | .stage _ | .attempt _ | .recover _ | .publish _ _ _ | .log _ _ _ _ => false

/-- The operation releases the brake. -/
def WdOp.releases : WdOp → Bool
  | .powerOn _ | .success => true
  | .reboot | .hookSet _ | .register _ _ _ | .heartbeat _ _ | .checkpoint _ _
    | .check _ _ _ => false

/-- The number of reboots that a run requests. -/
def rebootRequests (w : Wd) (ops : List WdOp) : ℕ :=
  (Machine.collect wdStep (fun _ _ w' => some (w'.out.countP WdAct.isReboot)) w ops).sum

/-- A step and the brake: it releases it, leaves its count, or requests one reboot and
    counts it. -/
inductive BrakeStep (w : Wd) (op : WdOp) (w' : Wd) : Prop where
  | released (h : op.releases = true) (hmagic : w'.rtc.magic = wdRtcMagic)
      (hcount : w'.rtc.rebootsWithoutSuccess = 0) (hout : ∀ a ∈ w'.out, a.isSide = true)
  | quiet (h : op.releases = false) (hmagic : w'.rtc.magic = wdRtcMagic)
      (hcount : w'.rtc.rebootsWithoutSuccess = w.rtc.rebootsWithoutSuccess)
      (hout : w'.out.countP WdAct.isReboot = 0)
  | requested (id : UInt32) (now : ℤ) (env : CheckEnv) (h : op = .check id now env)
      (hmagic : w'.rtc.magic = wdRtcMagic) (hreq : w.Requests id env)
      (hcount : w'.rtc.rebootsWithoutSuccess = w.rtc.rebootsWithoutSuccess + 1)
      (hout : w'.out.countP WdAct.isReboot = 1)

theorem countP_reboot_of_side {acts : List WdAct} (h : ∀ a ∈ acts, a.isSide = true) :
    acts.countP WdAct.isReboot = 0 := by
  refine List.countP_eq_zero.mpr fun a ha hreboot => ?_
  have hside := h a ha
  cases a <;> simp_all [WdAct.isSide, WdAct.isReboot]

theorem wdInit_out (w : Wd) : (wdInit w).out = w.out := by
  rw [wdInit]
  dsimp only
  split
  · rfl
  · split <;> rfl

theorem wdInit_of_magic (h : w.rtc.magic = wdRtcMagic) :
    (wdInit w).rtc.magic = wdRtcMagic ∧
      (wdInit w).rtc.rebootsWithoutSuccess = w.rtc.rebootsWithoutSuccess := by
  rw [wdInit]
  dsimp only
  rw [if_neg (not_not.mpr h)]
  split
  · exact ⟨h, rfl⟩
  · exact ⟨h, rfl⟩

theorem wdRegister_frame (w : Wd) (i : UInt32) (info : Option WdChannelDef) (now : ℤ) :
    (wdRegister w i info now).2.rtc = w.rtc ∧ (wdRegister w i info now).2.out = w.out := by
  cases info with
  | none => exact ⟨rfl, rfl⟩
  | some d =>
    rw [wdRegister]
    dsimp only
    split
    · exact ⟨rfl, rfl⟩
    · split <;> exact ⟨rfl, rfl⟩

theorem wdHeartbeat_frame (w : Wd) (i : UInt32) (now : ℤ) :
    (wdHeartbeat w i now).rtc = w.rtc ∧
      ∃ new, (wdHeartbeat w i now).out = w.out ++ new ∧ ∀ a ∈ new, a.isSide = true := by
  rw [wdHeartbeat]
  dsimp only
  split
  · exact ⟨rfl, [], by simp, by simp⟩
  split
  · refine ⟨rfl, [_, _], List.append_assoc _ _ _, ?_⟩
    simp [WdAct.isSide]
  · exact ⟨rfl, [], by simp [Wd.setCh], by simp⟩

theorem wdCheckpoint_frame (w : Wd) (i : UInt32) (checkpoint : UInt16) :
    (wdCheckpoint w i checkpoint).rtc = w.rtc ∧ (wdCheckpoint w i checkpoint).out = w.out := by
  rw [wdCheckpoint]
  split <;> exact ⟨rfl, rfl⟩

theorem checkChannel_brake (i : UInt32) (now : ℤ) (env : CheckEnv)
    (hmagic : w.rtc.magic = wdRtcMagic) (hout : w.out = []) :
    BrakeStep w (.check i now env) (checkChannel w i now env) := by
  cases checkChannel_checked w i now env with
  | early h hw =>
    rw [hw]
    exact .quiet rfl hmagic rfl (by simp [hout])
  | stage h hsoft hch hhook hrtc new hact hnew =>
    refine .quiet rfl (by rw [hrtc, hmagic]) (by rw [hrtc]) ?_
    simp [hact, hout, WdAct.isReboot, countP_reboot_of_side hnew]
  | rearmed h hsoft hesc hch hhook hrtc hsame =>
    exact .quiet rfl (by rw [hrtc, hmagic]) (by rw [hrtc]) (by simp [hsame, hout])
  | blocked h hsoft hesc hreq logged hch hhook hrtc new hact hnew =>
    refine .quiet rfl (by rw [hrtc, hmagic]) (by rw [hrtc]) ?_
    simp [hact, hout, WdAct.isReboot, countP_reboot_of_side hnew]
  | requested h hsoft hesc hreq hch hhook hrtc new new' hact hnew hnew' =>
    refine .requested i now env rfl (by rw [hrtc]; exact hmagic) hreq (by rw [hrtc]; rfl) ?_
    rw [hact, hout, List.nil_append, List.countP_cons_of_neg (by simp [WdAct.isReboot]),
      List.countP_append, countP_reboot_of_side hnew, List.countP_cons_of_pos rfl,
      countP_reboot_of_side hnew']

theorem wdStep_brake (hmagic : w.rtc.magic = wdRtcMagic) (op : WdOp) :
    BrakeStep w op (wdStep w op) := by
  cases op with
  | powerOn rtc =>
    refine .released rfl ?_ ?_ ?_
    all_goals simp [wdStep, wdInit, resetStatics, rtc.2]
  | reboot =>
    obtain ⟨hm, hcount⟩ := wdInit_of_magic (w := resetStatics w.rtc) hmagic
    exact .quiet rfl hm hcount (by simp [wdStep, wdInit_out, resetStatics])
  | hookSet present => exact .quiet rfl hmagic rfl rfl
  | register i info now =>
    obtain ⟨hrtc, hout⟩ := wdRegister_frame { w with out := [] } i info now
    exact .quiet rfl (by simpa [wdStep, hrtc] using hmagic) (by simp [wdStep, hrtc])
      (by simp [wdStep, hout])
  | heartbeat i now =>
    obtain ⟨hrtc, new, hout, hnew⟩ := wdHeartbeat_frame { w with out := [] } i now
    refine .quiet rfl (by simpa [wdStep, hrtc] using hmagic) (by simp [wdStep, hrtc]) ?_
    simp [wdStep, hout, countP_reboot_of_side hnew]
  | checkpoint i checkpoint =>
    obtain ⟨hrtc, hout⟩ := wdCheckpoint_frame { w with out := [] } i checkpoint
    exact .quiet rfl (by simpa [wdStep, hrtc] using hmagic) (by simp [wdStep, hrtc])
      (by simp [wdStep, hout])
  | success => exact .released rfl hmagic rfl (by simp [wdStep, wdSessionSuccessNote])
  | check i now env =>
    by_cases hi : i < wdMaxChannels ∧ (w.ch i).used
    · simp only [wdStep, if_pos hi]
      cases checkChannel_brake (w := { w with out := [] }) i now env hmagic rfl with
      | released h hm hcount hout => exact .released h hm hcount hout
      | quiet h hm hcount hout => exact .quiet h hm hcount hout
      | requested id' now' env' h hm hreq hcount hout =>
        exact .requested id' now' env' h hm hreq hcount hout
    · simp only [wdStep, if_neg hi]
      exact .quiet rfl hmagic rfl rfl

/-- The magic number is valid after every operation from a power-on. -/
theorem wdRun_magic (rtc : { r : WdRtc // r.magic ≠ wdRtcMagic }) (ops : List WdOp) :
    (wdRun rtc ops).rtc.magic = wdRtcMagic := by
  refine Machine.run_invariant wdStep (P := fun w => w.rtc.magic = wdRtcMagic)
    (fun w op hw => ?_) ?_ ops
  · cases wdStep_brake hw op with
    | released h hm hcount hout => exact hm
    | quiet h hm hcount hout => exact hm
    | requested id now env h hm hreq hcount hout => exact hm
  · simp [wdInit, resetStatics, rtc.2]

/-- As long as the brake is not released, its count rises by the requests and stops at its
    bound. -/
theorem rebootRequests_count (hmagic : w.rtc.magic = wdRtcMagic) (ops : List WdOp)
    (h : ∀ op ∈ ops, op.releases = false) :
    (Machine.run wdStep w ops).rtc.rebootsWithoutSuccess.toNat
        = w.rtc.rebootsWithoutSuccess.toNat + rebootRequests w ops ∧
      (rebootRequests w ops = 0 ∨
        w.rtc.rebootsWithoutSuccess.toNat + rebootRequests w ops ≤ 3) := by
  induction ops generalizing w with
  | nil => simp [rebootRequests]
  | cons op ops ih =>
    have hops : ∀ op ∈ ops, op.releases = false :=
      fun op' hop' => h op' (List.mem_cons_of_mem _ hop')
    have hcons : rebootRequests w (op :: ops)
        = (wdStep w op).out.countP WdAct.isReboot + rebootRequests (wdStep w op) ops := rfl
    rw [Machine.run_cons, hcons]
    cases wdStep_brake hmagic op with
    | released hop => exact absurd (h op List.mem_cons_self) (by simp [hop])
    | quiet _ hm hcount hout =>
      have hrest := ih hm hops
      rw [hcount] at hrest
      rwa [hout, Nat.zero_add]
    | requested id now env _ hm hreq hcount hout =>
      have hrest := ih hm hops
      have hsucc := toNat_succ_of_lt hreq.2.1
      have hlt : w.rtc.rebootsWithoutSuccess.toNat < 3 := hreq.2.1
      rw [hcount, hsucc] at hrest
      rw [hout]
      omega

/-- An attempt to escalate comes from a turn for its channel, after a deadline of silence and
    with no soft stage left. -/
theorem wdStep_attempt {op : WdOp} (h : .attempt id ∈ (wdStep w op).out) :
    ∃ now env, op = .check id now env ∧ (w.ch id).used = true ∧
      (w.ch id).info.deadlineMs ≤ elapsedMs (w.ch id) now ∧
      (w.ch id).info.maxSoft ≤ (w.ch id).softCount := by
  have hside : ∀ {acts : List WdAct}, (∀ a ∈ acts, a.isSide = true) → .attempt id ∉ acts :=
    fun hacts hmem => by simpa [WdAct.isSide] using hacts _ hmem
  cases op with
  | powerOn rtc => exact absurd h (by simp [wdStep, wdInit_out, resetStatics])
  | reboot => exact absurd h (by simp [wdStep, wdInit_out, resetStatics])
  | hookSet present => exact absurd h (by simp [wdStep])
  | register i info now =>
    exact absurd h (by simp [wdStep, (wdRegister_frame { w with out := [] } i info now).2])
  | heartbeat i now =>
    obtain ⟨-, new, hout, hnew⟩ := wdHeartbeat_frame { w with out := [] } i now
    exact absurd h (by simpa [wdStep, hout] using hside hnew)
  | checkpoint i checkpoint =>
    exact absurd h (by simp [wdStep, (wdCheckpoint_frame { w with out := [] } i checkpoint).2])
  | success => exact absurd h (by simp [wdStep, wdSessionSuccessNote])
  | check i now env =>
    by_cases hi : i < wdMaxChannels ∧ (w.ch i).used
    swap
    · exact absurd h (by simp [wdStep, hi])
    simp only [wdStep, if_pos hi] at h
    cases checkChannel_checked { w with out := [] } i now env with
    | early _ hw => exact absurd h (by simp [hw])
    | stage _ _ _ _ _ new hact hnew =>
      exact absurd h (by simpa [hact] using hside hnew)
    | rearmed _ _ _ _ _ _ hsame => exact absurd h (by simp [hsame])
    | blocked htime hsoft _ _ _ _ _ _ new hact hnew =>
      rw [hact] at h
      obtain rfl : id = i := by simpa [hside hnew] using h
      exact ⟨now, env, rfl, hi.2, htime, hsoft⟩
    | requested htime hsoft _ _ _ _ _ new new' hact hnew hnew' =>
      rw [hact] at h
      obtain rfl : id = i := by simpa [hside hnew, hside hnew'] using h
      exact ⟨now, env, rfl, hi.2, htime, hsoft⟩

/-- **The ladder and the brake.** In a run whose turns capture no time before a recorded
    beat, an attempt of a channel follows its last beat or registration of this boot with
    exactly `max_soft` soft stages in between, each a deadline after the one before, and the
    attempt a deadline after the last. And where the brake is not released, the channels
    together request at most three reboots, over however many boots. -/
theorem ladder_and_brake (rtc : { r : WdRtc // r.magic ≠ wdRtcMagic }) :
    (∀ ops op id, Machine.Guarded wdStep Timely (wdInit (resetStatics rtc)) (ops ++ [op]) →
      .attempt id ∈ (wdRun rtc (ops ++ [op])).out →
      ∃ now env before t₀ mid, op = .check id now env ∧
        wdMarks rtc ops = before ++ .armed id t₀ :: mid ∧ (∀ m ∈ mid, m.restarts id = false) ∧
        (stageTimes id mid).length = ((wdRun rtc ops).ch id).info.maxSoft.toNat ∧
        Spaced ((wdRun rtc ops).ch id).info.deadlineMs (t₀ :: stageTimes id mid ++ [now])) ∧
    ∀ ops seg, (∀ op ∈ seg, op.releases = false) →
      rebootRequests (wdRun rtc ops) seg ≤ wdRebootBrakeMax.toNat := by
  refine ⟨fun ops op id hG hattempt => ?_, fun ops seg hseg => ?_⟩
  · rw [wdRun, Machine.run_concat] at hattempt
    obtain ⟨hrun, hop, -⟩ := (Machine.guarded_append ..).mp hG
    obtain ⟨now, env, rfl, hused, htime, hsoft⟩ := wdStep_attempt hattempt
    have hladder := run_onLadder rtc ops hrun id
    obtain ⟨before, t₀, mid, hmarks, hmid, hlength, hspaced, hle⟩ := hladder.climbed hused
    have hcount : ((wdRun rtc ops).ch id).softCount = ((wdRun rtc ops).ch id).info.maxSoft :=
      UInt8.le_antisymm hladder.bounded hsoft
    have hdeadline := deadline_le_of_elapsed (hop hused) htime
    exact ⟨now, env, before, t₀, mid, rfl, hmarks, hmid, by rw [hlength, hcount],
      hspaced.concat fun t ht => le_trans (Int.add_le_add_right (hle t ht) _) hdeadline⟩
  · have hcount := (rebootRequests_count (wdRun_magic rtc ops) seg hseg).2
    have hmax : wdRebootBrakeMax.toNat = 3 := rfl
    omega

/-- RTC memory after a power-on. -/
def garbageRtc : { r : WdRtc // r.magic ≠ wdRtcMagic } := ⟨⟨0, 1, 2, 3, 4, 5, 6⟩, by decide⟩

/-- A link with one soft recovery and a deadline of 10 ms that stays silent. -/
def silentOps (env : CheckEnv) : List WdOp :=
  [.hookSet true, .register 0 (some ⟨some "link", 10, 1, true, false, true⟩) 0, .check 0 10000 env]

theorem ladder_and_brake_silent :
    (∃ now env before t₀ mid, WdOp.check 0 20000 ⟨true, true, 20000⟩ = .check 0 now env ∧
      wdMarks garbageRtc (silentOps ⟨true, true, 10000⟩) = before ++ .armed 0 t₀ :: mid ∧
      (∀ m ∈ mid, m.restarts 0 = false) ∧
      (stageTimes 0 mid).length =
        ((wdRun garbageRtc (silentOps ⟨true, true, 10000⟩)).ch 0).info.maxSoft.toNat ∧
      Spaced ((wdRun garbageRtc (silentOps ⟨true, true, 10000⟩)).ch 0).info.deadlineMs
        (t₀ :: stageTimes 0 mid ++ [now])) ∧
    rebootRequests (wdRun garbageRtc (silentOps ⟨true, true, 10000⟩))
      [.check 0 20000 ⟨true, true, 20000⟩] ≤ 3 :=
  ⟨(ladder_and_brake garbageRtc).1 _ _ 0 (by decide) (by decide),
    (ladder_and_brake garbageRtc).2 _ _ (by decide)⟩

end Fountainer.Watchdog
