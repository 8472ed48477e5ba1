import Fountainer.Pump.Protection

/-!
# Limits on switching

Two limits protect the pump from switching too often: the number of starts in an
hour, and the shortest pause and run. Both are stated about the relay edges of a
whole run, and both follow from the guards of a single call because the stamps
and the start ring of the state follow these edges (`pmRun_tracks`).
-/

namespace Fountainer.Pump

variable {F : Type*}

/-- A call that switches the relay on passed the pause and the quota. -/
theorem Effect.turned_on {a b : Control F} {c : PmCall F} (he : Effect a c b)
    (ha : a.relayOn = false) (hb : b.relayOn = true) {t : UInt64} (ht : c.time? = some t) :
    (a.pumpStopMs = 0 ∨ t - a.pumpStopMs ≥ a.cfg.minOffMs.toUInt64) ∧
      startsInHour a.startsMs t < a.cfg.maxStartsPerHour := by
  cases he with
  | stay | ack | config => exact absurd (ha.symm.trans hb) (by decide)
  | start now md deadline bar htime hoff hrest hinit hcause hpause hquota =>
    obtain rfl : now = t := Option.some.inj (htime.symm.trans ht)
    exact ⟨hpause, hquota⟩
  | stop | latch => exact absurd hb (by simp)

/-- A call that switches the relay off without a fault is a restart, or comes after
    the shortest run. -/
theorem Effect.turned_off {a b : Control F} {c : PmCall F} (he : Effect a c b)
    (ha : a.relayOn = true) (hb : b.relayOn = false) (hfault : b.state ≠ .fault)
    {t : UInt64} (ht : c.time? = some t) :
    runTime a.pumpStartMs t ≥ a.cfg.minOnMs.toUInt64 ∨ c = .requestRestart t := by
  cases he with
  | stay | ack | config => exact absurd (ha.symm.trans hb) (by decide)
  | start => exact absurd hb (by simp)
  | stop now htime hon hrun =>
    obtain rfl : now = t := Option.some.inj (htime.symm.trans ht)
    exact hrun
  | latch => exact absurd rfl hfault

/-- A start time that is not later than `now` counts when it lies in the hour
    before `now`. -/
theorem startCounts_iff {now stamp : UInt64} (hpos : 0 < stamp) (hle : stamp ≤ now) :
    startCounts now stamp = true ↔ now.toNat ≤ stamp.toNat + 3600000 := by
  have hne : stamp ≠ 0 := by
    rintro rfl
    exact absurd hpos (by decide)
  have hle' : stamp.toNat ≤ now.toNat := UInt64.le_iff_toNat_le.mp hle
  simp only [startCounts, Bool.and_eq_true, bne_iff_ne, ne_eq, hne, not_false_eq_true, true_and,
    decide_eq_true_eq, UInt64.le_iff_toNat_le, UInt64.toNat_sub_of_le now stamp hle]
  change now.toNat - stamp.toNat ≤ 3600000 ↔ _
  omega

variable [FloatArith F]

/-- The hour up to `t`, both ends included. -/
def InHour (t u : UInt64) : Prop := u ≤ t ∧ t.toNat ≤ u.toNat + 3600000

instance (t u : UInt64) : Decidable (InHour t u) := inferInstanceAs (Decidable (_ ∧ _))

/-- When the ring does not reach its size, it counts every start of the hour. -/
theorem startsInHour_eq (cfg : PmConfig F) (calls : List (PmCall F)) (t : UInt64)
    (htimed : Timed calls) (hpos : ∀ u ∈ callTimes calls, 0 < u)
    (hle : ∀ u ∈ callTimes calls, u ≤ t)
    (hmiss : (startsInHour (pmRun cfg calls).startsMs t).toNat < pmStartHistory) :
    (startsInHour (pmRun cfg calls).startsMs t).toNat =
      (startTimes cfg calls).countP (InHour t) := by
  have hsub := startTimes_sublist cfg calls
  have hmem : ∀ u ∈ startTimes cfg calls, 0 < u ∧ u ≤ t :=
    fun u hu => ⟨hpos u (hsub.subset hu), hle u (hsub.subset hu)⟩
  have hwindow : ∀ u ∈ startTimes cfg calls, startCounts t u = true ↔ InHour t u := by
    intro u hu
    rw [startCounts_iff (hmem u hu).1 (hmem u hu).2]
    exact ⟨fun h => ⟨(hmem u hu).2, h⟩, fun h => h.2⟩
  have hring : OverwriteRing.Keeps 0 (pmRun cfg calls).startsMs (pmRun cfg calls).startsIdx
      (startTimes cfg calls) := (pmRun_tracks cfg calls htimed).ring
  rw [startsInHour_toNat] at hmiss ⊢
  rw [hring.countP_eq_hist (startCounts t) rfl (List.Pairwise.sublist hsub htimed) ?_ hmiss]
  · exact List.countP_congr (fun u hu => by simpa using hwindow u hu)
  · -- A later start lies in the hour when an earlier one does.
    intro u hu v hv huv hcount
    rw [hwindow u hu] at hcount
    rw [hwindow v hv]
    have hle' : u.toNat ≤ v.toNat := UInt64.le_iff_toNat_le.mp huv
    exact ⟨(hmem v hv).2, by have := hcount.2; omega⟩

/-- **Starts per hour.** When times are positive and do not run backwards, and no
    configuration allows more starts than the ring holds, a call that switches the
    relay on at `t` finds at most `max_starts_per_hour` starts in the hour up to
    `t`, its own included. -/
theorem starts_per_hour (cfg : PmConfig F) (calls : List (PmCall F)) (c : PmCall F) (t : UInt64)
    (htimed : Timed (calls ++ [c])) (hpos : ∀ u ∈ callTimes (calls ++ [c]), 0 < u)
    (hcfg : cfg.maxStartsPerHour ≤ 16)
    (hset : ∀ cfg', .configSet cfg' ∈ calls → cfg'.maxStartsPerHour ≤ 16)
    (ht : c.time? = some t) (hoff : (pmRun cfg calls).relayOn = false)
    (hon : (pmRun cfg (calls ++ [c])).relayOn = true) :
    (startTimes cfg (calls ++ [c])).countP (InHour t) ≤
      (pmRun cfg (calls ++ [c])).cfg.maxStartsPerHour.toNat := by
  rw [pmRun_concat] at hon ⊢
  have he := pmRun_effect cfg calls c
  have hquota : (startsInHour (pmRun cfg calls).startsMs t).toNat <
      (pmRun cfg calls).cfg.maxStartsPerHour.toNat :=
    UInt8.lt_iff_toNat_lt.mp (he.turned_on hoff hon ht).2
  have hlimit : (pmRun cfg calls).cfg.maxStartsPerHour.toNat ≤ 16 :=
    UInt8.le_iff_toNat_le.mp (pmRun_cfg (·.maxStartsPerHour ≤ 16) cfg calls hcfg hset)
  have hcount := startsInHour_eq cfg calls t htimed.of_concat
    (fun u hu => hpos u (by rw [callTimes_concat]; simp [hu])) (htimed.le_last ht)
    (lt_of_lt_of_le hquota hlimit)
  have hkeep : (call (pmRun cfg calls) c).cfg = (pmRun cfg calls).cfg := by
    rcases he.cfg_cases with hkeep | hcall
    · exact hkeep
    · rw [hcall] at ht
      exact absurd ht (by simp [PmCall.time?])
  rw [startTimes_concat, hoff, hon, addEdge_start, ht, hkeep, List.countP_append, ← hcount]
  have hone : (some t).toList.countP (fun u => decide (InHour t u)) ≤ 1 := List.countP_le_length
  omega

/-- Manual runs of two seconds, one a minute. -/
def minuteRuns (n : ℕ) : List (PmCall Float32) :=
  .update 1.0 true 200 :: (List.range n).flatMap fun i =>
    [.requestOn 2 (400 + 60000 * UInt64.ofNat i), .update 2.5 true (6400 + 60000 * UInt64.ofNat i)]

/-- The fifth manual start of the hour uses up the quota of five. -/
theorem starts_per_hour_fifth :
    (startTimes plantConfig (minuteRuns 4)).countP (InHour 240400) = 4 ∧
      (startTimes plantConfig (minuteRuns 4 ++ [.requestOn 2 240400])).countP
        (InHour 240400) ≤ 5 := by
  have hquota : (pmRun plantConfig
      (minuteRuns 4 ++ [.requestOn 2 240400])).cfg.maxStartsPerHour.toNat = 5 := by
    decide +kernel
  have hpos : (callTimes (minuteRuns 4 ++ [.requestOn 2 240400])).all (0 < ·) = true := by
    decide +kernel
  have hfifth := starts_per_hour plantConfig (minuteRuns 4) (.requestOn 2 240400) 240400
    (by decide +kernel) (fun u hu => of_decide_eq_true (List.all_eq_true.mp hpos u hu))
    (by decide) (by simp [minuteRuns]) rfl (by decide +kernel) (by decide +kernel)
  rw [hquota] at hfifth
  exact ⟨by decide +kernel, hfifth⟩

/-- **No short cycles.** When times are positive and do not run backwards, a call
    that switches the relay on comes at least `min_off_ms` after the last stop, of
    whatever cause; and a call that switches it off comes at least `min_on_ms`
    after the start, unless it latches a fault or is `pm_request_restart`. -/
theorem no_short_cycle (cfg : PmConfig F) (calls : List (PmCall F)) (c : PmCall F) (t : UInt64)
    (htimed : Timed (calls ++ [c])) (hpos : ∀ u ∈ callTimes (calls ++ [c]), 0 < u)
    (ht : c.time? = some t) :
    ((pmRun cfg calls).relayOn = false → (pmRun cfg (calls ++ [c])).relayOn = true →
      ∀ u ∈ (stopTimes cfg calls).getLast?,
        u.toNat + (pmRun cfg calls).cfg.minOffMs.toNat ≤ t.toNat) ∧
    ((pmRun cfg calls).relayOn = true → (pmRun cfg (calls ++ [c])).relayOn = false →
      (pmRun cfg (calls ++ [c])).state ≠ .fault → (∀ now, c ≠ .requestRestart now) →
      ∃ u ∈ (startTimes cfg calls).getLast?,
        u.toNat + (pmRun cfg calls).cfg.minOnMs.toNat ≤ t.toNat) := by
  rw [pmRun_concat]
  have he := pmRun_effect cfg calls c
  have htracks := pmRun_tracks cfg calls htimed.of_concat
  refine ⟨fun hoff hon u hu => ?_, fun hon hoff hfault hrestart => ?_⟩
  · have hmem : u ∈ callTimes calls :=
      (stopTimes_sublist cfg calls).subset (List.mem_of_getLast? hu)
    have hstop : (pmRun cfg calls).control.pumpStopMs = u := by
      rw [htracks.stop_eq, Option.mem_def.mp hu]
      rfl
    have hupos : 0 < u := hpos u (by rw [callTimes_concat]; simp [hmem])
    have hle : u ≤ t := htimed.le_last ht u hmem
    rcases (he.turned_on hoff hon ht).1 with hzero | hpause
    · -- A stop stamp of 0 means no stop, but the last stop has a positive time.
      rw [hstop] at hzero
      exact absurd hupos (by simp [hzero])
    · rw [hstop] at hpause
      have hdiff := UInt64.le_iff_toNat_le.mp hpause
      have hle' := UInt64.le_iff_toNat_le.mp hle
      rw [UInt64.toNat_sub_of_le t u hle] at hdiff
      have hmin : (pmRun cfg calls).cfg.minOffMs.toNat ≤ t.toNat - u.toNat := by
        simpa [Pm.control] using hdiff
      omega
  · obtain ⟨u, hu⟩ : ∃ u, (startTimes cfg calls).getLast? = some u :=
      Option.isSome_iff_exists.mp (by simpa using htracks.on_started hon)
    have hstart : (pmRun cfg calls).control.pumpStartMs = u := by
      rw [htracks.start_eq, hu]
      rfl
    have hle : u ≤ t :=
      htimed.le_last ht u ((startTimes_sublist cfg calls).subset (List.mem_of_getLast? hu))
    rcases he.turned_off hon hoff hfault ht with hrun | hcall
    · rw [hstart] at hrun
      have hdiff := UInt64.le_iff_toNat_le.mp hrun
      have hle' := UInt64.le_iff_toNat_le.mp hle
      rw [runTime_toNat hle] at hdiff
      have hmin : (pmRun cfg calls).cfg.minOnMs.toNat ≤ t.toNat - u.toNat := by
        simpa [Pm.control] using hdiff
      exact ⟨u, hu, by omega⟩
    · exact absurd hcall (hrestart t)

/-- A manual run of two seconds is stopped by a tick, after the five seconds of the
    shortest run. -/
theorem no_short_cycle_timed :
    ∃ u ∈ (startTimes (F := Float32) plantConfig
        [.update 1.0 true 200, .requestOn 2 400]).getLast?, u.toNat + 5000 ≤ 6000 :=
  (no_short_cycle plantConfig [.update 1.0 true 200, .requestOn 2 400] (.update 2.5 true 6000) 6000
    (by decide) (by simp [callTimes, PmCall.time?]) rfl).2
    (by decide +kernel) (by decide +kernel) (by decide +kernel) (by simp)

end Fountainer.Pump
