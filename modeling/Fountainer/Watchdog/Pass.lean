import Fountainer.Watchdog.Ladder

/-!
# A pass of the supervisor

`wd_task` captures the time once and then checks the channels one by one; recoveries in between
can block, and heartbeats of other tasks come in. A heartbeat after the captured time makes the
difference negative, and its conversion to 32 bits makes it large.
-/

namespace Fountainer.Watchdog

/-- The watchdog with the clock of the boot and the time that the pass of `wd_task` has captured;
    `beatUs` keeps, for the statements, when each channel was registered or last had a
    heartbeat. -/
structure Supervision where
  w : Wd
  nowUs : ℤ
  capturedUs : ℤ
  beatUs : UInt32 → ℤ

/-- What happens: time passes, a pass begins, `wd_task` checks a channel, or one of the calls. -/
inductive PassOp where
  | elapse (us : ℕ)
  | capture
  | check (id : UInt32) (env : CheckEnv)
  | powerOn (rtc : { r : WdRtc // r.magic ≠ wdRtcMagic })
  | reboot
  | hookSet (present : Bool)
  | register (id : UInt32) (info : Option WdChannelDef)
  | heartbeat (id : UInt32)
  | checkpoint (id : UInt32) (checkpoint : UInt16)
  | success

/-- The start of a boot. -/
def supervisionStart (w : Wd) : Supervision where
  w := w
  nowUs := 0
  capturedUs := 0
  beatUs _ := 0

/-- One step. Every call sees the clock, a check the captured time. -/
def passStep (s : Supervision) : PassOp → Supervision
  | .elapse us => { s with nowUs := s.nowUs + us }
  | .capture => { s with capturedUs := s.nowUs }
  | .check id env => { s with w := wdStep s.w (.check id s.capturedUs env) }
  | .powerOn rtc => supervisionStart (wdStep s.w (.powerOn rtc))
  | .reboot => supervisionStart (wdStep s.w .reboot)
  | .hookSet present => { s with w := wdStep s.w (.hookSet present) }
  | .register id info =>
    { s with
      w := wdStep s.w (.register id info s.nowUs)
      beatUs := if (wdRegister s.w id info s.nowUs).1 = .ok then Function.update s.beatUs id s.nowUs
        else s.beatUs }
  | .heartbeat id =>
    { s with
      w := wdStep s.w (.heartbeat id s.nowUs)
      beatUs := if id < wdMaxChannels ∧ (s.w.ch id).used then Function.update s.beatUs id s.nowUs
        else s.beatUs }
  | .checkpoint id checkpoint => { s with w := wdStep s.w (.checkpoint id checkpoint) }
  | .success => { s with w := wdStep s.w .success }

/-- The supervision after the operations, from a power-on. -/
def passRun (rtc : { r : WdRtc // r.magic ≠ wdRtcMagic }) (ops : List PassOp) : Supervision :=
  Machine.run passStep (supervisionStart (wdInit (resetStatics rtc))) ops

/-- The last call runs a soft recovery or an escalation of the channel. -/
def ActsOn (id : UInt32) (w : Wd) : Prop := .stage id ∈ w.out ∨ .attempt id ∈ w.out

instance (id : UInt32) (w : Wd) : Decidable (ActsOn id w) := inferInstanceAs (Decidable (_ ∨ _))

/-- The channel is supervised, and its latest heartbeat is younger than its deadline. -/
def Supervision.Fresh (s : Supervision) (id : UInt32) : Prop :=
  id < wdMaxChannels ∧ (s.w.ch id).used = true ∧
    s.nowUs - s.beatUs id < (s.w.ch id).info.deadlineMs.toNat * 1000

/-- No check of the run acts on a channel whose latest heartbeat is younger than its deadline. -/
def NoFalseTimeout (rtc : { r : WdRtc // r.magic ≠ wdRtcMagic }) (ops : List PassOp) : Prop :=
  ∀ i id env, ops[i]? = some (.check id env) → (passRun rtc (ops.take i)).Fresh id →
    ¬ ActsOn id (passRun rtc (ops.take (i + 1))).w

/-- The whole milliseconds by which the heartbeat of the channel is after the captured time. -/
def WdChannel.aheadMs (c : WdChannel) (capturedUs : ℤ) : ℤ := (c.lastBeatUs - capturedUs).tdiv 1000

/-- The heartbeat is not a millisecond after the captured time, as far as 32 bits can tell. -/
def WdChannel.NotAhead (c : WdChannel) (capturedUs : ℤ) : Prop :=
  c.aheadMs capturedUs ≤ 0 ∨ c.aheadMs capturedUs % 4294967296 = 0 ∨
    4294967296 < c.aheadMs capturedUs % 4294967296 + c.info.deadlineMs.toNat

/-- A timeout of the channel has no consequence: its recoveries are used up, and it does not
    escalate. -/
def WdChannel.WarnOnly (c : WdChannel) : Prop :=
  c.info.maxSoft ≤ c.softCount ∧ c.info.escalateReboot = false

variable {w : Wd} {s : Supervision} {id : UInt32} {capturedUs nowUs : ℤ} {env : CheckEnv}

-- ════════════════════════════════════════════════════════════════════════
-- One check
-- ════════════════════════════════════════════════════════════════════════

theorem elapsedMs_toNat (c : WdChannel) (capturedUs : ℤ) :
    ((elapsedMs c capturedUs).toNat : ℤ) = -c.aheadMs capturedUs % 4294967296 := by
  rw [elapsedMs, WdChannel.aheadMs, ← Int.neg_tdiv, Int.neg_sub]
  generalize (capturedUs - c.lastBeatUs).tdiv 1000 = elapsed
  simp [UInt32.ofInt]
  omega

/-- The comparison of the check, for a channel whose beat is younger than its deadline. -/
theorem elapsedMs_lt_iff (hcaptured : capturedUs ≤ nowUs) {c : WdChannel}
    (hdeadline : c.info.deadlineMs ≠ 0)
    (hfresh : nowUs - c.lastBeatUs < c.info.deadlineMs.toNat * 1000) :
    elapsedMs c capturedUs < c.info.deadlineMs ↔ c.NotAhead capturedUs := by
  have hpos : c.info.deadlineMs.toNat ≠ 0 := fun h => hdeadline (UInt32.toNat_inj.mp h)
  have hlt := c.info.deadlineMs.toNat_lt
  have helapsed := elapsedMs_toNat c capturedUs
  have hahead : -c.aheadMs capturedUs < c.info.deadlineMs.toNat := by
    rw [WdChannel.aheadMs, ← Int.neg_tdiv, Int.neg_sub]
    rcases le_total c.lastBeatUs capturedUs with hle | hle
    · rw [Int.tdiv_eq_ediv_of_nonneg (by omega)]
      omega
    · have hnonneg : 0 ≤ (c.lastBeatUs - capturedUs).tdiv 1000 :=
        Int.tdiv_nonneg (by omega) (by decide)
      rw [← Int.neg_sub, Int.neg_tdiv]
      omega
  rw [UInt32.lt_iff_toNat_lt, WdChannel.NotAhead]
  omega

/-- A check acts when the elapsed time reaches the deadline and there is something to do. -/
theorem checkChannel_actsOn (w : Wd) (id : UInt32) (now : ℤ) (env : CheckEnv) :
    ActsOn id (checkChannel { w with out := [] } id now env) ↔
      ¬ elapsedMs (w.ch id) now < (w.ch id).info.deadlineMs ∧ ¬ (w.ch id).WarnOnly := by
  cases checkChannel_checked { w with out := [] } id now env with
  | early h hw => simp [hw, ActsOn, h]
  | stage h hsoft hch hhook hrtc new hout hnew =>
    have hstage : ¬ (w.ch id).WarnOnly := fun h => absurd hsoft (UInt8.not_lt.mpr h.1)
    exact iff_of_true (.inl (by simp [hout])) ⟨UInt32.not_lt.mpr h, hstage⟩
  | rearmed h hsoft hesc hch hhook hrtc hout =>
    refine iff_of_false (by simp [ActsOn, hout]) fun hno => hno.2 ⟨hsoft, hesc⟩
  | blocked h hsoft hesc hreq logged hch hhook hrtc new hout hnew =>
    refine iff_of_true (.inr (by simp [hout])) ⟨UInt32.not_lt.mpr h, fun hwarn => ?_⟩
    exact absurd (hesc.symm.trans hwarn.2) (by decide)
  | requested h hsoft hesc hreq hch hhook hrtc new new' hout hnew hnew' =>
    refine iff_of_true (.inr (by simp [hout])) ⟨UInt32.not_lt.mpr h, fun hwarn => ?_⟩
    exact absurd (hesc.symm.trans hwarn.2) (by decide)

/-- What a check leaves of the channels: at most the one that it is for is re-armed, and one
    without consequence stays so. -/
theorem checkChannel_ch (w : Wd) (id : UInt32) (now : ℤ) (env : CheckEnv) :
    (checkChannel w id now env).ch = w.ch ∨
      ∃ c, (checkChannel w id now env).ch = Function.update w.ch id c ∧
        ¬ elapsedMs (w.ch id) now < (w.ch id).info.deadlineMs ∧ c.used = (w.ch id).used ∧
        c.info = (w.ch id).info ∧ c.lastBeatUs = now ∧ ((w.ch id).WarnOnly → c.WarnOnly) := by
  cases checkChannel_checked w id now env with
  | early h hw => exact .inl (congrArg Wd.ch hw)
  | stage h hsoft hch hhook hrtc new hout hnew =>
    refine .inr ⟨_, hch, UInt32.not_lt.mpr h, rfl, rfl, rfl, fun hwarn => ?_⟩
    exact absurd hsoft (UInt8.not_lt.mpr hwarn.1)
  | rearmed h hsoft hesc hch hhook hrtc hout =>
    exact .inr ⟨_, hch, UInt32.not_lt.mpr h, rfl, rfl, rfl, fun hwarn => hwarn⟩
  | blocked h hsoft hesc hreq logged hch hhook hrtc new hout hnew =>
    exact .inr ⟨_, hch, UInt32.not_lt.mpr h, rfl, rfl, rfl, fun hwarn => hwarn⟩
  | requested h hsoft hesc hreq hch hhook hrtc new new' hout hnew hnew' =>
    exact .inr ⟨_, hch, UInt32.not_lt.mpr h, rfl, rfl, rfl, fun hwarn => hwarn⟩

-- ════════════════════════════════════════════════════════════════════════
-- Runs without a heartbeat ahead of the pass
-- ════════════════════════════════════════════════════════════════════════

/-- The check of a fresh channel does not meet a heartbeat ahead of it, or has no consequence. -/
def CheckGuard (s : Supervision) : PassOp → Prop
  | .check id _ =>
    s.Fresh id → (s.w.ch id).NotAhead s.capturedUs ∨ (s.w.ch id).WarnOnly
  | _ => True

/-- The check of a fresh channel does not act on it. -/
def CheckSpares (s : Supervision) : PassOp → Prop
  | .check id env => s.Fresh id → ¬ ActsOn id (passStep s (.check id env)).w
  | _ => True

/-- What a channel holds, given its latest heartbeat: a beat not before it, unless a timeout has
    no consequence or the deadline is over. -/
structure Tracked (nowUs beatUs : ℤ) (c : WdChannel) : Prop where
  deadline : c.info.deadlineMs ≠ 0
  beat : beatUs ≤ c.lastBeatUs ∨ c.WarnOnly ∨ c.info.deadlineMs.toNat * 1000 ≤ nowUs - beatUs

/-- The invariant: the pass has captured its time earlier, and all supervised channels are
    tracked. -/
structure Supervision.Tracks (s : Supervision) : Prop where
  captured : s.capturedUs ≤ s.nowUs
  channels : ∀ id, (s.w.ch id).used = true → Tracked s.nowUs (s.beatUs id) (s.w.ch id)

theorem Tracked.elapse {beatUs : ℤ} {c : WdChannel} (h : Tracked nowUs beatUs c) (us : ℕ) :
    Tracked (nowUs + us) beatUs c :=
  ⟨h.deadline, h.beat.imp_right (Or.imp_right fun h => by omega)⟩

theorem supervisionStart_tracks {w : Wd} (h : ∀ id, (w.ch id).used = false) :
    (supervisionStart w).Tracks :=
  ⟨le_refl _, fun id hused => absurd (hused.symm.trans (h id)) (by decide)⟩

theorem wdInit_unused (w : Wd) (id : UInt32) : ((wdInit w).ch id).used = false := by
  rw [wdInit_ch]
  rfl

/-- The answer of a check of a fresh channel, where the invariant holds. -/
theorem Supervision.Tracks.elapsed_iff (h : s.Tracks) (hfresh : s.Fresh id) :
    (elapsedMs (s.w.ch id) s.capturedUs < (s.w.ch id).info.deadlineMs ∨ (s.w.ch id).WarnOnly) ↔
      ((s.w.ch id).NotAhead s.capturedUs ∨ (s.w.ch id).WarnOnly) := by
  obtain ⟨-, hused, htime⟩ := hfresh
  have hch := h.channels id hused
  by_cases hwarn : (s.w.ch id).WarnOnly
  · simp [hwarn]
  have hbeat : s.beatUs id ≤ (s.w.ch id).lastBeatUs := by
    rcases hch.beat with hbeat | hbeat | hbeat
    · exact hbeat
    · exact absurd hbeat hwarn
    · omega
  rw [elapsedMs_lt_iff h.captured hch.deadline (by omega)]

theorem checkSpares_iff (h : s.Tracks) (o : PassOp) : CheckSpares s o ↔ CheckGuard s o := by
  cases o with
  | check id env =>
    refine forall_congr' fun hfresh => ?_
    have hstep : wdStep s.w (.check id s.capturedUs env)
        = checkChannel { s.w with out := [] } id s.capturedUs env := if_pos ⟨hfresh.1, hfresh.2.1⟩
    rw [passStep, hstep, checkChannel_actsOn, ← h.elapsed_iff hfresh, not_and_or, not_not, not_not]
  | _ => exact Iff.rfl

theorem Supervision.Tracks.check (h : s.Tracks) (hG : CheckGuard s (.check id env)) :
    (passStep s (.check id env)).Tracks := by
  refine ⟨h.captured, ?_⟩
  change ∀ i, ((wdStep s.w (.check id s.capturedUs env)).ch i).used = true →
    Tracked s.nowUs (s.beatUs i) ((wdStep s.w (.check id s.capturedUs env)).ch i)
  by_cases hid : id < wdMaxChannels ∧ (s.w.ch id).used
  swap
  · rw [show wdStep s.w (.check id s.capturedUs env) = { s.w with out := [] } from if_neg hid]
    exact h.channels
  rw [show wdStep s.w (.check id s.capturedUs env)
    = checkChannel { s.w with out := [] } id s.capturedUs env from if_pos hid]
  have hchannel := h.channels id hid.2
  rcases checkChannel_ch { s.w with out := [] } id s.capturedUs env with
    heq | ⟨c, heq, helapsed, hused, hinfo, hlast, hwarn⟩
  · rw [heq]
    exact h.channels
  rw [heq]
  intro i hi
  by_cases hne : i = id
  swap
  · rw [Function.update_of_ne hne] at hi ⊢
    exact h.channels i hi
  subst hne
  rw [Function.update_self]
  refine ⟨hinfo ▸ hchannel.deadline, .inr ?_⟩
  -- A channel that is re-armed while fresh is one without consequence.
  by_cases hfresh : s.Fresh i
  · rcases (h.elapsed_iff hfresh).mpr (hG hfresh) with hlt | hwarn'
    · exact absurd hlt helapsed
    · exact .inl (hwarn hwarn')
  · refine .inr ?_
    rw [hinfo]
    by_contra hlt
    exact hfresh ⟨hid.1, hid.2, not_le.mp hlt⟩

theorem Supervision.Tracks.register (h : s.Tracks) (i : UInt32) (info : Option WdChannelDef) :
    (passStep s (.register i info)).Tracks := by
  refine ⟨h.captured, ?_⟩
  simp only [passStep, wdStep, wdRegister]
  cases info with
  | none => exact h.channels
  | some d =>
    dsimp only
    split
    · exact h.channels
    split
    · exact h.channels
    next hdef hfree =>
    simp only [not_or] at hdef
    intro id hused
    by_cases hid : id = i
    · subst hid
      simpa [Wd.setCh] using ⟨hdef.2.2, Or.inl (le_refl s.nowUs)⟩
    · simp only [Wd.setCh, if_true, Function.update_of_ne hid] at hused ⊢
      exact h.channels id hused

theorem Supervision.Tracks.heartbeat (h : s.Tracks) (i : UInt32) :
    (passStep s (.heartbeat i)).Tracks := by
  refine ⟨h.captured, ?_⟩
  change ∀ id, _ → Tracked s.nowUs ((if i < wdMaxChannels ∧ (s.w.ch i).used then
    Function.update s.beatUs i s.nowUs else s.beatUs) id) _
  have hch := wdHeartbeat_ch { s.w with out := [] } i s.nowUs
  simp only [passStep, wdStep, hch]
  split
  swap
  · exact h.channels
  next hi =>
  intro id hused
  by_cases hid : id = i
  · subst hid
    rw [Function.update_self, Function.update_self]
    exact ⟨(h.channels id hi.2).deadline, .inl (le_refl _)⟩
  · rw [Function.update_of_ne hid] at hused ⊢
    rw [Function.update_of_ne hid]
    exact h.channels id hused

theorem Supervision.Tracks.checkpoint (h : s.Tracks) (i : UInt32) (checkpoint : UInt16) :
    (passStep s (.checkpoint i checkpoint)).Tracks := by
  refine ⟨h.captured, ?_⟩
  simp only [passStep, wdStep, wdCheckpoint]
  split
  · exact h.channels
  intro id hused
  by_cases hid : id = i
  · subst hid
    simp only [Wd.setCh, Function.update_self] at hused ⊢
    exact ⟨(h.channels id hused).deadline, (h.channels id hused).beat⟩
  · simp only [Wd.setCh, Function.update_of_ne hid] at hused ⊢
    exact h.channels id hused

theorem Supervision.Tracks.step (s : Supervision) (o : PassOp) (hG : CheckGuard s o)
    (h : s.Tracks) : (passStep s o).Tracks := by
  cases o with
  | elapse us =>
    refine ⟨?_, fun id hused => (h.channels id hused).elapse us⟩
    have := h.captured
    change s.capturedUs ≤ s.nowUs + us
    omega
  | capture => exact ⟨le_refl _, h.channels⟩
  | check id env => exact h.check hG
  | powerOn rtc => exact supervisionStart_tracks (wdInit_unused _)
  | reboot => exact supervisionStart_tracks (wdInit_unused _)
  | hookSet present => exact ⟨h.captured, h.channels⟩
  | register i info => exact h.register i info
  | heartbeat i => exact h.heartbeat i
  | checkpoint i checkpoint => exact h.checkpoint i checkpoint
  | success => exact ⟨h.captured, h.channels⟩

theorem noFalseTimeout_iff_guarded (rtc : { r : WdRtc // r.magic ≠ wdRtcMagic })
    (ops : List PassOp) : NoFalseTimeout rtc ops ↔
      Machine.Guarded passStep CheckSpares (supervisionStart (wdInit (resetStatics rtc))) ops := by
  rw [Machine.guarded_iff_forall]
  constructor
  · intro h i o ho
    cases o with
    | check id env =>
      intro hfresh
      have hact := h i id env ho hfresh
      rwa [passRun, Machine.run_take_succ passStep ho] at hact
    | _ => exact trivial
  · intro h i id env ho hfresh
    rw [passRun, Machine.run_take_succ passStep ho]
    exact h i _ ho hfresh

/-- **False timeouts**: a run has none exactly when no check of a fresh channel meets a heartbeat
    that is a millisecond or more after the captured time, channels without consequence apart. -/
theorem noFalseTimeout_iff (rtc : { r : WdRtc // r.magic ≠ wdRtcMagic }) (ops : List PassOp) :
    NoFalseTimeout rtc ops ↔ ∀ i id env, ops[i]? = some (.check id env) →
      (passRun rtc (ops.take i)).Fresh id →
        ((passRun rtc (ops.take i)).w.ch id).NotAhead (passRun rtc (ops.take i)).capturedUs ∨
          ((passRun rtc (ops.take i)).w.ch id).WarnOnly := by
  have hstart : (supervisionStart (wdInit (resetStatics rtc))).Tracks :=
    supervisionStart_tracks (wdInit_unused _)
  have hguard : Machine.Guarded passStep CheckSpares
    (supervisionStart (wdInit (resetStatics rtc))) ops
      ↔ Machine.Guarded passStep CheckGuard (supervisionStart (wdInit (resetStatics rtc))) ops :=
    ⟨fun h => h.imp passStep (fun s o hG h => .step s o ((checkSpares_iff h o).mp hG) h)
      (fun s o hG h => (checkSpares_iff h o).mp hG) hstart,
    fun h => h.imp passStep Supervision.Tracks.step
      (fun s o hG h => (checkSpares_iff h o).mpr hG) hstart⟩
  rw [noFalseTimeout_iff_guarded, hguard, Machine.guarded_iff_forall]
  constructor
  · intro h i id env ho hfresh
    exact h i _ ho hfresh
  · intro h i o ho
    cases o with
    | check id env => exact h i id env ho
    | _ => exact trivial

/-- RTC memory after a power-on. -/
def exampleRtc : { r : WdRtc // r.magic ≠ wdRtcMagic } := ⟨⟨0, 0, 0, 0, 0, 0, 0⟩, by decide⟩

/-- A channel of one second, with recoveries. -/
def exampleChannel : WdChannelDef :=
  { name := some "comm", deadlineMs := 1000, maxSoft := 3, recover := true, rebootAllowed := false
    escalateReboot := true }

/-- A pass begins half a second after the boot; the channel beats two milliseconds later, and is
    checked another millisecond later. -/
def lateBeat : List PassOp :=
  [.register 0 (some exampleChannel), .elapse 500000, .capture, .elapse 2000, .heartbeat 0,
    .elapse 1000, .check 0 ⟨true, true, 503000⟩]

theorem lateBeat_times_out : ¬ NoFalseTimeout exampleRtc lateBeat := by
  intro h
  refine h 6 0 ⟨true, true, 503000⟩ rfl ⟨by decide, by decide, by decide⟩ ?_
  decide

end Fountainer.Watchdog
