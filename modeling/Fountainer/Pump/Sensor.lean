import Fountainer.Pump.Task
import Fountainer.Pump.Effects
import Mathlib.Tactic.Linarith
import Mathlib.Tactic.NormNum

/-!
# The jump filter and the debounce of the pressure sensor

Readings around one level, for pressures as exact numbers. A rejected reading
lowers the `rank` of the filter, so the level is adopted after at most eight of
them. The debounce counts the same rejected readings with a smaller limit: three
of them report a broken sensor before five of them adopt the level.
-/

namespace Fountainer.Pump

section Filter

variable {F : Type*} [FloatArith F]

/-- The verdict of the jump filter on a cycle's reading. -/
def filtered (s : SensorFilter F) (i : CycleInput F) : SensorFilter F × Bool :=
  jumpFilter s (i.pressureManual != 0) (measure i).1 (measure i).2

/-- The reading passed the filter: the manager gets the reading itself. -/
structure Accepted (s : SensorFilter F) (i : CycleInput F) : Prop where
  measOk : (sensorCycle s i).2.measOk = true
  useBar : (sensorCycle s i).2.useBar = (measure i).1

/-- The filter after a reading that passed. -/
structure Adopted (s : SensorFilter F) (bar : F) : Prop where
  haveGood : s.haveGood = true
  lastGoodBar : s.lastGoodBar = bar
  jumpPending : s.jumpPending = 0
  sensorFails : s.sensorFails = 0

/-- A reading that passes leaves no candidate behind. -/
theorem jumpFilter_passed {s : SensorFilter F} {manual measOk : Bool} {bar : F}
    (h : (jumpFilter s manual bar measOk).2 = true) :
    (jumpFilter s manual bar measOk).1.jumpPending = 0 := by
  unfold jumpFilter at h ⊢
  dsimp only at h ⊢
  split_ifs at h with hjump hn
  · rw [if_pos hjump, if_pos hn]
  · rw [if_neg hjump]

theorem sensorCycle_passed {s : SensorFilter F} {i : CycleInput F} (h : (filtered s i).2 = true) :
    Accepted s i ∧ (sensorCycle s i).2.sensorOk = true ∧
      Adopted (s.next i) (measure i).1 := by
  have hpending : (filtered s i).1.jumpPending = 0 := jumpFilter_passed h
  unfold filtered at h hpending
  refine ⟨⟨h, ?_⟩, ?_, ?_⟩
  · simp [sensorCycle, h]
  · simp [sensorCycle, h]
  · simp only [SensorFilter.next, sensorCycle, h, debounce, if_true]
    exact ⟨rfl, rfl, hpending, rfl⟩

theorem sensorCycle_dropped {s : SensorFilter F} {i : CycleInput F}
    (h : (filtered s i).2 = false) :
    ¬ Accepted s i ∧ s.next i = debounce (filtered s i).1 (measure i).1 false ∧
      (sensorCycle s i).2.sensorOk =
        decide ((s.next i).sensorFails < pumpSensorFailLimit) := by
  unfold filtered at h
  refine ⟨fun ha => ?_, ?_, ?_⟩
  · have := ha.measOk
    simp [sensorCycle, h] at this
  · simp [SensorFilter.next, sensorCycle, filtered, h]
  · simp [SensorFilter.next, sensorCycle, h]

theorem accepted_iff {s : SensorFilter F} {i : CycleInput F} :
    Accepted s i ↔ (filtered s i).2 = true := by
  constructor
  · intro ha
    by_contra h
    exact (sensorCycle_dropped (Bool.not_eq_true _ ▸ h)).1 ha
  · exact fun h => (sensorCycle_passed h).1

theorem Accepted.adopted {s : SensorFilter F} {i : CycleInput F} (h : Accepted s i) :
    Adopted (s.next i) (measure i).1 :=
  (sensorCycle_passed (accepted_iff.mp h)).2.2

omit [FloatArith F] in
@[simp] theorem debounce_jumpPending (s : SensorFilter F) (bar : F) (measOk : Bool) :
    (debounce s bar measOk).jumpPending = s.jumpPending := by
  cases measOk <;> rfl

/-- After every cycle fewer consistent readings are pending than adopt a level. -/
theorem sensorCycle_pending (s : SensorFilter F) (i : CycleInput F) :
    (s.next i).jumpPending < pumpJumpResyncN := by
  have h : (filtered s i).1.jumpPending < pumpJumpResyncN := by
    unfold filtered jumpFilter
    dsimp only
    split_ifs with hjump hn
    · exact (by decide : (0 : UInt8) < pumpJumpResyncN)
    · exact UInt8.not_le.mp hn
    · exact (by decide : (0 : UInt8) < pumpJumpResyncN)
  simpa [SensorFilter.next, sensorCycle, filtered] using h

theorem run_pending {s : SensorFilter F} (hs : s.jumpPending < pumpJumpResyncN)
    (is : List (CycleInput F)) :
    (Machine.run SensorFilter.next s is).jumpPending < pumpJumpResyncN :=
  Machine.run_invariant SensorFilter.next (P := fun s => s.jumpPending < pumpJumpResyncN)
    (fun s i _ => sensorCycle_pending s i) hs is

end Filter

variable {K : Type*} [Field K] [LinearOrder K] [FloatArith.SqrtOp K]

/-- The numeral 2 of the field, under a name of its own. -/
theorem two_atLeastTwo : Nat.AtLeastTwo 2 := ⟨le_rfl⟩

attribute [local instance] two_atLeastTwo

/-- A valid reading of the sensor, not simulated, within 0.5 bar of the level. -/
structure CycleInput.Steady (level : K) (i : CycleInput K) : Prop where
  readOk : i.readOk = true
  live : pumpSensorMinMv ≤ i.mv
  real : i.pressureManual = 0
  near : |i.bar - level| ≤ 1 / 2

instance (level : K) (i : CycleInput K) : Decidable (i.Steady level) :=
  decidable_of_iff (i.readOk = true ∧ pumpSensorMinMv ≤ i.mv ∧ i.pressureManual = 0 ∧
      |i.bar - level| ≤ 1 / 2)
    ⟨fun ⟨hread, hlive, hreal, hnear⟩ => ⟨hread, hlive, hreal, hnear⟩,
      fun h => ⟨h.readOk, h.live, h.real, h.near⟩⟩

/-- The last good value lies at the level. -/
def SensorFilter.Synced (level : K) (s : SensorFilter K) : Prop :=
  s.haveGood = true ∧ |s.lastGoodBar - level| ≤ 1 / 2

/-- A bound on the readings around the level until one is accepted. An anchor at
    the level only counts on; another one may first be counted on and is then
    replaced. -/
def rank (level : K) (s : SensorFilter K) : ℕ :=
  if s.jumpPending = 0 then 5
  else if |s.jumpPendingBar - level| ≤ 1 / 2 then 5 - s.jumpPending.toNat
  else 9 - s.jumpPending.toNat

variable [IsStrictOrderedRing K]

theorem jumps_iff {bar lastGoodBar : K} : jumps bar lastGoodBar = true ↔
    5 < |bar - lastGoodBar| := by
  have h : (pumpMaxJumpBar : K) = 5 :=
    show (OfScientific.ofScientific 50 true 1 : K) = 5 by norm_num
  rw [jumps, h, decide_eq_true_iff]
  exact decide_eq_true_iff

theorem consistent_iff {bar anchor : K} : consistent bar anchor = true ↔ |bar - anchor| ≤ 1 := by
  have h : (pumpJumpConsistBar : K) = 1 :=
    show (OfScientific.ofScientific 10 true 1 : K) = 1 by norm_num
  rw [consistent, h, decide_eq_true_iff]
  exact decide_eq_true_iff

omit [FloatArith.SqrtOp K] in
theorem near_of_near {x y level : K} (hx : |x - level| ≤ 1 / 2) (hy : |y - level| ≤ 1 / 2) :
    |x - y| ≤ 1 := by
  rw [abs_le] at *
  constructor <;> linarith [hx.1, hx.2, hy.1, hy.2]

omit [FloatArith.SqrtOp K] [IsStrictOrderedRing K] in
theorem CycleInput.Steady.measure_eq {level : K} {i : CycleInput K} (hi : i.Steady level) :
    measure i = (i.bar, true) := by
  simp [measure, hi.real, hi.readOk, hi.live]

omit [IsStrictOrderedRing K] in
/-- A reading that jumps is dropped, unless the candidate it belongs to is complete. -/
theorem CycleInput.Steady.filtered_eq {level : K} {i : CycleInput K} (hi : i.Steady level)
    (s : SensorFilter K) :
    filtered s i =
      if s.haveGood = true ∧ jumps i.bar s.lastGoodBar = true then
        if pumpJumpResyncN ≤ (notePending s i.bar).jumpPending then
          ({ notePending s i.bar with jumpPending := 0 }, true)
        else (notePending s i.bar, false)
      else ({ s with jumpPending := 0 }, true) := by
  unfold filtered jumpFilter
  simp [hi.measure_eq, hi.real]

omit [IsStrictOrderedRing K] in
/-- A dropped reading is noted as a candidate and counted as a miss. -/
theorem CycleInput.Steady.dropped {level : K} {i : CycleInput K} (hi : i.Steady level)
    {s : SensorFilter K} (h : ¬ Accepted s i) :
    s.next i = debounce (notePending s i.bar) i.bar false ∧
      (sensorCycle s i).2.sensorOk = decide ((s.next i).sensorFails < pumpSensorFailLimit) := by
  have hdrop : (filtered s i).2 = false := by simpa [accepted_iff] using h
  have hnote : (filtered s i).1 = notePending s i.bar := by
    rw [hi.filtered_eq] at hdrop ⊢
    split_ifs at hdrop ⊢
    rfl
  obtain ⟨-, hnext, hok⟩ := sensorCycle_dropped hdrop
  rw [hnote, hi.measure_eq] at hnext
  exact ⟨hnext, hok⟩

-- ════════════════════════════════════════════════════════════════════════
-- Adoption of a level
-- ════════════════════════════════════════════════════════════════════════

section Level

variable {level : K}

omit [IsStrictOrderedRing K] in
theorem Accepted.synced {s : SensorFilter K} {i : CycleInput K} (h : Accepted s i)
    (hi : i.Steady level) : (s.next i).Synced level := by
  have hadopted := h.adopted
  refine ⟨hadopted.haveGood, ?_⟩
  rw [hadopted.lastGoodBar, hi.measure_eq]
  exact hi.near

/-- Next to the last good value a reading passes. -/
theorem SensorFilter.Synced.accepts {s : SensorFilter K} {i : CycleInput K} (h : s.Synced level)
    (hi : i.Steady level) : Accepted s i := by
  have hnot : ¬ jumps i.bar s.lastGoodBar = true := by
    rw [jumps_iff, not_lt]
    exact (near_of_near hi.near h.2).trans (by norm_num)
  rw [accepted_iff, hi.filtered_eq, if_neg fun hjump => hnot hjump.2]

theorem SensorFilter.Synced.run {s : SensorFilter K} (h : s.Synced level)
    {is : List (CycleInput K)} (his : ∀ i ∈ is, i.Steady level) :
    (Machine.run SensorFilter.next s is).Synced level := by
  induction is generalizing s with
  | nil => exact h
  | cons i is ih =>
    obtain ⟨hi, his⟩ := List.forall_mem_cons.mp his
    exact ih ((h.accepts hi).synced hi) his

omit [FloatArith.SqrtOp K] [IsStrictOrderedRing K] in
theorem rank_pos {s : SensorFilter K} (hs : s.jumpPending < pumpJumpResyncN) :
    0 < rank level s := by
  have hlt : s.jumpPending.toNat < 5 := UInt8.lt_iff_toNat_lt.mp hs
  unfold rank
  split_ifs <;> omega

omit [FloatArith.SqrtOp K] [IsStrictOrderedRing K] in
theorem rank_le {s : SensorFilter K} : rank level s ≤ 8 := by
  unfold rank
  split_ifs with hzero hnear
  · omega
  · omega
  · have hne : s.jumpPending.toNat ≠ 0 := fun h => hzero (UInt8.toNat_inj.mp h)
    omega

/-- A dropped reading at the level either counts for the candidate or replaces
    one that is not at the level. -/
theorem rank_notePending {s : SensorFilter K} {bar : K} (hs : s.jumpPending < pumpJumpResyncN)
    (hbar : |bar - level| ≤ 1 / 2) : rank level (notePending s bar) < rank level s := by
  have hlt : s.jumpPending.toNat < 5 := UInt8.lt_iff_toNat_lt.mp hs
  unfold notePending
  split_ifs with hcounts
  · have hne : s.jumpPending.toNat ≠ 0 := fun h => hcounts.1 (UInt8.toNat_inj.mp h)
    have hsucc : (s.jumpPending + 1).toNat = s.jumpPending.toNat + 1 := by
      rw [UInt8.toNat_add, UInt8.toNat_one]
      omega
    have hpos : s.jumpPending + 1 ≠ 0 := fun h => by simp [h] at hsucc
    simp only [rank, if_neg hcounts.1, if_neg hpos, hsucc]
    split_ifs <;> omega
  · simp only [rank, hbar, if_true, UInt8.toNat_one, if_neg (by decide : (1 : UInt8) ≠ 0)]
    split_ifs with hzero hnear
    · omega
    · exact absurd ⟨hzero, consistent_iff.mpr (near_of_near hbar hnear)⟩ hcounts
    · omega

/-- A reading at the level that does not pass lowers the rank. -/
theorem rank_sensorCycle {s : SensorFilter K} {i : CycleInput K}
    (hs : s.jumpPending < pumpJumpResyncN) (hi : i.Steady level) (h : ¬ Accepted s i) :
    rank level (s.next i) < rank level s := by
  rw [(hi.dropped h).1]
  exact rank_notePending hs hi.near

/-- A run of readings at the level is synced, or has used up rank. -/
theorem run_synced_or_rank {s : SensorFilter K} (hs : s.jumpPending < pumpJumpResyncN)
    (is : List (CycleInput K)) (his : ∀ i ∈ is, i.Steady level) :
    let r := Machine.run SensorFilter.next s is
    r.Synced level ∨ rank level r + is.length ≤ rank level s := by
  refine Machine.run_rank SensorFilter.next
    (I := fun s => s.jumpPending < pumpJumpResyncN) (G := CycleInput.Steady level)
    (fun s i _ => sensorCycle_pending s i) (fun s i hi h => (h.accepts hi).synced hi)
    (fun s i hs hi hnot => rank_sensorCycle hs hi fun h => hnot (h.synced hi)) hs is his

/-- The eighth reading at the level passes at the latest, the fifth when no
    candidate is pending, and after one that passed every reading does. -/
theorem run_accepts {s : SensorFilter K} (hs : s.jumpPending < pumpJumpResyncN)
    {is : List (CycleInput K)} (his : ∀ i ∈ is, i.Steady level) {i : CycleInput K}
    (hi : i.Steady level) (hdue : rank level s ≤ is.length + 1) :
    Accepted (Machine.run SensorFilter.next s is) i := by
  have hpending : (Machine.run SensorFilter.next s is).jumpPending <
      pumpJumpResyncN :=
    run_pending hs is
  rcases run_synced_or_rank hs is his with hsynced | hrank
  · exact hsynced.accepts hi
  · by_contra hnot
    have hlt := rank_sensorCycle hpending hi hnot
    have hpos : 0 < rank level (SensorFilter.next (Machine.run SensorFilter.next s is) i) :=
      rank_pos (sensorCycle_pending (Machine.run SensorFilter.next s is) i)
    omega

end Level

/-- The cycle hands the reading itself to the manager, as a healthy one. -/
structure TakesReading {F : Type*} [FloatArith F] (t : PumpTask F) (i : CycleInput F) : Prop where
  accepted : Accepted t.sensor i
  pm : (pumpTaskCycle t i).1.pm =
    pollCommandDps (pmUpdate (configRefresh t i.cfg).pm i.bar true (nowMs i.timeUs))
      i.pumpCommand i.faultAck true (nowMs i.timeUs)

omit [IsStrictOrderedRing K] in
theorem Accepted.takesReading {level : K} {t : PumpTask K} {i : CycleInput K}
    (h : Accepted t.sensor i) (hi : i.Steady level) : TakesReading t i := by
  have hok := (sensorCycle_passed (accepted_iff.mp h)).2.1
  have hbar := h.useBar
  rw [hi.measure_eq] at hbar
  refine ⟨h, ?_⟩
  simp only [pumpTaskCycle, configRefresh_sensor, hok, hbar]

omit [IsStrictOrderedRing K] in
theorem taskRun_pending (cfg : PmConfig K) (steps : List (TaskStep K)) :
    (taskRun cfg steps).sensor.jumpPending < pumpJumpResyncN := by
  unfold taskRun
  rw [run_taskStep_sensor]
  exact run_pending (by decide : (0 : UInt8) < pumpJumpResyncN) _

/-- **The jump filter cannot get stuck.** After any history of cycles and requests, when
    all readings are valid, not simulated and within 0.5 bar of one level, the
    manager gets the reading itself from the eighth cycle on, from the fifth on when
    no candidate was pending, and after every cycle in which it did. -/
theorem jump_filter_resyncs (cfg : PmConfig K) (hist steps : List (TaskStep K)) (level : K)
    (hsteady : ∀ i ∈ cycles steps, i.Steady level) (pre : List (TaskStep K)) (i : CycleInput K)
    (post : List (TaskStep K)) (hsplit : steps = pre ++ .cycle i :: post)
    (hdue : 7 ≤ (cycles pre).length ∨
      (taskRun cfg hist).sensor.jumpPending = 0 ∧ 4 ≤ (cycles pre).length ∨
      ∃ pre' j post', pre = pre' ++ .cycle j :: post' ∧
        TakesReading (taskRun cfg (hist ++ pre')) j) :
    TakesReading (taskRun cfg (hist ++ pre)) i := by
  have hcycles : cycles steps = cycles pre ++ i :: cycles post := by
    rw [hsplit, cycles_append]
    rfl
  have hi : i.Steady level := hsteady i (by simp [hcycles])
  have hpre : ∀ j ∈ cycles pre, j.Steady level := fun j hj => hsteady j (by simp [hcycles, hj])
  refine Accepted.takesReading ?_ hi
  have hpending := taskRun_pending cfg hist
  rw [taskRun, Machine.run_append, run_taskStep_sensor]
  rcases hdue with hseven | ⟨hzero, hfour⟩ | ⟨pre', j, post', rfl, hj⟩
  · refine run_accepts hpending hpre hi (rank_le.trans ?_)
    omega
  · refine run_accepts hpending hpre hi ?_
    have hrank : rank level (taskRun cfg hist).sensor = 5 := if_pos hzero
    have : rank level (Machine.run taskStep (pumpTaskInit cfg) hist).sensor = 5 := hrank
    omega
  · have hsplit' : cycles (pre' ++ .cycle j :: post') = cycles pre' ++ j :: cycles post' := by
      rw [cycles_append]
      rfl
    rw [hsplit'] at hpre ⊢
    rw [Machine.run_append, Machine.run_cons, ← run_taskStep_sensor, ← Machine.run_append]
    have hsynced := hj.accepted.synced (hpre j (by simp))
    exact (hsynced.run fun k hk => hpre k (by simp [hk])).accepts hi

/-- A reading of the plant without simulation and commands. -/
def plantReading (bar : ℚ) (timeUs : UInt64) : CycleInput ℚ where
  cfg := plantConfig
  readOk := true
  mv := 500
  bar := bar
  pressureManual := 0
  pressureValue := 0
  faultAck := 0
  pumpCommand := 0
  timeUs := timeUs

/-- A good reading, then a glitch at 9 bar. -/
def glitch : List (TaskStep ℚ) :=
  [.cycle (plantReading 2 200000), .cycle (plantReading 9 400000)]

/-- Readings around 9.9 bar, of which the first three are consistent with the glitch. -/
def newLevel : List (TaskStep ℚ) :=
  [9.9, 9.9, 9.9, 10.3, 10.3, 9.9, 9.9, 9.9].map fun bar => .cycle (plantReading bar 600000)

theorem jump_filter_resyncs_newLevel :
    TakesReading (taskRun plantConfig (glitch ++ newLevel.take 7)) (plantReading 9.9 600000) :=
  jump_filter_resyncs plantConfig glitch newLevel 9.9 (by decide +kernel) (newLevel.take 7)
    (plantReading 9.9 600000) [] rfl (.inl (by decide))

/-- The seventh reading is still dropped. -/
example : (sensorCycle (taskRun plantConfig (glitch ++ newLevel.take 6)).sensor
    (plantReading 9.9 600000)).2.measOk = false := by decide +kernel

-- ════════════════════════════════════════════════════════════════════════
-- The debounce during a level change
-- ════════════════════════════════════════════════════════════════════════

/-- Readings have been dropped since the last good one, and nothing else happened. -/
structure Outstanding (g : K) (n : ℕ) (s : SensorFilter K) : Prop where
  haveGood : s.haveGood = true
  lastGoodBar : s.lastGoodBar = g
  sensorFails : s.sensorFails.toNat = n
  jumpPending : s.jumpPending.toNat ≤ n

/-- The first three readings all lie more than 5 bar from `g`. -/
def JumpBurst (g : K) (is : List (CycleInput K)) : Prop :=
  3 ≤ is.length ∧ ∀ i ∈ is.take 3, 5 < |i.bar - g|

section Burst

variable {level g : K}

omit [FloatArith.SqrtOp K] [IsStrictOrderedRing K] in
theorem JumpBurst.of_append {is js : List (CycleInput K)} (h : JumpBurst g is) :
    JumpBurst g (is ++ js) := by
  refine ⟨by simpa using h.1.trans (Nat.le_add_right _ _), ?_⟩
  rw [List.take_append_of_le_length h.1]
  exact h.2

omit [IsStrictOrderedRing K] in
theorem notePending_le (s : SensorFilter K) (bar : K) :
    (notePending s bar).jumpPending.toNat ≤ s.jumpPending.toNat + 1 := by
  unfold notePending
  split_ifs
  · rw [UInt8.toNat_add, UInt8.toNat_one]
    exact Nat.mod_le _ _
  · simp

/-- Up to the fourth dropped reading in a row the filter drops exactly the jumps. -/
theorem Outstanding.accepted_iff {n : ℕ} {s : SensorFilter K} {i : CycleInput K}
    (h : Outstanding g n s) (hn : n ≤ 3) (hi : i.Steady level) :
    Accepted s i ↔ ¬ 5 < |i.bar - g| := by
  have hbelow : ¬ pumpJumpResyncN ≤ (notePending s i.bar).jumpPending := by
    intro hle
    have hfive : 5 ≤ (notePending s i.bar).jumpPending.toNat := UInt8.le_iff_toNat_le.mp hle
    have hnote := notePending_le s i.bar
    have hp := h.jumpPending
    omega
  rw [Pump.accepted_iff, hi.filtered_eq, ← jumps_iff, h.haveGood, h.lastGoodBar, if_neg hbelow]
  by_cases hjump : jumps i.bar g = true <;> simp [hjump]

theorem Outstanding.next {n : ℕ} {s : SensorFilter K} {i : CycleInput K} (h : Outstanding g n s)
    (hn : n ≤ 3) (hi : i.Steady level) (hjump : 5 < |i.bar - g|) :
    Outstanding g (n + 1) (s.next i) ∧
      ((sensorCycle s i).2.sensorOk = true ↔ n + 1 < 3) := by
  have hnot : ¬ Accepted s i := fun ha => (h.accepted_iff hn hi).mp ha hjump
  obtain ⟨hnext, hok⟩ := hi.dropped hnot
  have hkeep : (notePending s i.bar).haveGood = s.haveGood ∧
      (notePending s i.bar).lastGoodBar = s.lastGoodBar ∧
      (notePending s i.bar).sensorFails = s.sensorFails := by
    unfold notePending
    split_ifs <;> exact ⟨rfl, rfl, rfl⟩
  have hfails : (s.next i).sensorFails.toNat = n + 1 := by
    have hlt : s.sensorFails < 255 := UInt8.lt_iff_toNat_lt.mpr (by
      rw [h.sensorFails]
      exact Nat.lt_of_le_of_lt hn (by decide))
    rw [hnext]
    simp only [debounce, hkeep.2.2, hlt, if_true, Bool.false_eq_true, if_false]
    rw [UInt8.toNat_add, UInt8.toNat_one, h.sensorFails]
    omega
  refine ⟨⟨?_, ?_, hfails, ?_⟩, ?_⟩
  · rw [hnext]
    exact hkeep.1.trans h.haveGood
  · rw [hnext]
    exact hkeep.2.1.trans h.lastGoodBar
  · rw [hnext, debounce_jumpPending]
    exact (notePending_le s i.bar).trans (Nat.add_le_add_right h.jumpPending 1)
  · rw [hok, decide_eq_true_iff, UInt8.lt_iff_toNat_lt, hfails]
    exact Iff.rfl

/-- Without a burst of jumps the readings have adopted the level, or at most two
    have been dropped. -/
theorem run_outstanding {s : SensorFilter K} (hs : Outstanding g 0 s) (is : List (CycleInput K))
    (his : ∀ i ∈ is, i.Steady level) (hburst : ¬ JumpBurst g is) :
    (Machine.run SensorFilter.next s is).Synced level ∨
      is.length ≤ 2 ∧ (∀ i ∈ is, 5 < |i.bar - g|) ∧
        Outstanding g is.length (Machine.run SensorFilter.next s is) := by
  induction is using List.reverseRecOn with
  | nil => exact .inr ⟨by simp, by simp, hs⟩
  | append_singleton is i ih =>
    have hi : i.Steady level := his i (by simp)
    rw [Machine.run_concat]
    rcases ih (fun j hj => his j (List.mem_append_left _ hj)) fun h => hburst h.of_append with
      hsynced | ⟨hlen, hall, hout⟩
    · exact .inl ((hsynced.accepts hi).synced hi)
    · by_cases hjump : 5 < |i.bar - g|
      · have hall' : ∀ j ∈ is ++ [i], 5 < |j.bar - g| := by
          intro j hj
          rcases List.mem_append.mp hj with hj | hj
          · exact hall j hj
          · rwa [List.mem_singleton.mp hj]
        have hlen' : (is ++ [i]).length ≤ 2 := by
          by_contra hlong
          exact hburst ⟨by omega, fun j hj => hall' j (List.mem_of_mem_take hj)⟩
        refine .inr ⟨hlen', hall', ?_⟩
        rw [List.length_append]
        exact (hout.next (hlen.trans (by omega)) hi hjump).1
      · exact .inl (((hout.accepted_iff (hlen.trans (by omega)) hi).mpr hjump).synced hi)

/-- The sensor is reported healthy throughout exactly when the readings do not
    start with three jumps. -/
theorem sensorOk_iff {s : SensorFilter K} (hs : Outstanding g 0 s) {is : List (CycleInput K)}
    (his : ∀ i ∈ is, i.Steady level) :
    (∀ pre i post, is = pre ++ i :: post →
      (sensorCycle (Machine.run SensorFilter.next s pre) i).2.sensorOk = true) ↔
    ¬ JumpBurst g is := by
  constructor
  · rintro hok ⟨hlen, hjumps⟩
    match is, hlen with
    | a :: b :: c :: rest, _ =>
      simp only [List.take_succ_cons, List.take_zero, List.forall_mem_cons] at his hjumps
      have h1 := (hs.next (by omega) his.1 hjumps.1).1
      have h2 := (h1.next (by omega) his.2.1 hjumps.2.1).1
      have h3 := (h2.next (by omega) his.2.2.1 hjumps.2.2.1).2.mp (hok [a, b] c rest rfl)
      omega
  · rintro hburst pre i post rfl
    have hi : i.Steady level := his i (by simp)
    have hshort : ¬ JumpBurst g (pre ++ [i]) := fun h => hburst (by simpa using h.of_append)
    have hpre : ¬ JumpBurst g pre := fun h => hshort h.of_append
    rcases run_outstanding hs pre (fun j hj => his j (by simp [hj])) hpre with
      hsynced | ⟨hlen, hall, hout⟩
    · exact (sensorCycle_passed (accepted_iff.mp (hsynced.accepts hi))).2.1
    · by_cases hjump : 5 < |i.bar - g|
      · refine (hout.next (hlen.trans (by omega)) hi hjump).2.mpr ?_
        by_contra hlong
        refine hshort ⟨by simpa using hlong, fun j hj => ?_⟩
        rcases List.mem_append.mp (List.mem_of_mem_take hj) with hj | hj
        · exact hall j hj
        · rwa [List.mem_singleton.mp hj]
      · have hacc := (hout.accepted_iff (hlen.trans (by omega)) hi).mpr hjump
        exact (sensorCycle_passed (Pump.accepted_iff.mp hacc)).2.1

end Burst

section Latch

variable {F : Type*} [FloatArith F]

omit [FloatArith F] in
theorem latchFault_fault (s : Pm F) (f : PmFault) (now : UInt64) :
    (latchFault s f now).fault = f :=
  congrArg Control.fault (latchFault_control s f now)

theorem protections_healthy {s : Pm F} {now : UInt64}
    (h : (protections s true now).fault = .sensor) : s.fault = .sensor := by
  unfold protections at h
  simp only [not_true_eq_false, if_false] at h
  split_ifs at h <;> first | exact h | simp [latchFault_fault] at h

theorem stateUpdate_fault {s : Pm F} {sensorOk : Bool} {now : UInt64}
    (h : (stateUpdate s sensorOk now).fault = .sensor) : s.fault = .sensor := by
  have henter (q : Pm F) (st : PmState) : (enterState q st now).fault = q.fault :=
    congrArg Control.fault (enterState_control q st now)
  unfold stateUpdate at h
  split at h
  · unfold updateInit at h
    split_ifs at h
    · rwa [henter] at h
    · exact h
  · unfold updateIdle at h
    dsimp only at h
    split_ifs at h
    · rwa [henter] at h
    · exact h
  · unfold updatePressureDrop at h
    dsimp only at h
    split_ifs at h <;> first | exact h | rwa [henter] at h | simp [latchFault_fault] at h
  · unfold updateStarting at h
    dsimp only at h
    split_ifs at h <;> first | rwa [henter] at h | simp [latchFault_fault] at h
  · unfold updateRunning at h
    dsimp only at h
    split_ifs at h <;> first | exact h | rwa [henter] at h
  · unfold updateRecovering at h
    dsimp only at h
    split_ifs at h <;> first | exact h | rwa [henter] at h
  · unfold updateLockout at h
    dsimp only at h
    split_ifs at h <;> first | exact h | rwa [henter] at h
  · exact h

/-- A healthy tick latches no sensor fault. -/
theorem pmUpdate_healthy {s : Pm F} {bar : F} {now : UInt64}
    (h : (pmUpdate s bar true now).fault = .sensor) : s.fault = .sensor := by
  have hmetrics (q : Pm F) : (metricsUpdate q now).fault = q.fault :=
    congrArg Control.fault (metricsUpdate_control q now)
  have hinput : (eventUpdate (filtersUpdate s bar now) now).control = s.control := by simp
  unfold pmUpdate at h
  dsimp only at h
  rw [hmetrics] at h
  have hfault := protections_healthy (stateUpdate_fault h)
  rwa [show (eventUpdate (filtersUpdate s bar now) now).fault = s.fault from
    congrArg Control.fault hinput] at hfault

end Latch

/-- In every cycle among the steps the manager gets a healthy sensor, and its tick
    latches no sensor fault. -/
def SensorKept {F : Type*} [FloatArith F] (t : PumpTask F) (steps : List (TaskStep F)) : Prop :=
  ∀ pre i post, steps = pre ++ .cycle i :: post →
    let t := Machine.run taskStep t pre
    let sample := (pumpTaskCycle t i).2
    let pm := (configRefresh t i.cfg).pm
    sample.sensorOk = true ∧
      ((pmUpdate pm sample.useBar sample.sensorOk (nowMs i.timeUs)).fault = .sensor →
        pm.fault = .sensor)

/-- **A level change and the debounce.** After a cycle whose reading passed, readings
    within 0.5 bar of a new level leave the sensor healthy exactly when they do not
    start with three readings more than 5 bar from the last good one. -/
theorem sensorKept_iff (cfg : PmConfig K) (hist : List (TaskStep K)) (last : CycleInput K)
    (hlast : Accepted (taskRun cfg hist).sensor last) (level : K) (steps : List (TaskStep K))
    (hsteady : ∀ i ∈ cycles steps, i.Steady level) :
    SensorKept (taskRun cfg (hist ++ [.cycle last])) steps ↔
      ¬ JumpBurst (measure last).1 (cycles steps) := by
  have hadopted := hlast.adopted
  have hstart : (taskRun cfg (hist ++ [.cycle last])).sensor =
      (taskRun cfg hist).sensor.next last := by
    rw [taskRun, Machine.run_concat]
    exact pumpTaskCycle_sensor _ _
  have hout : Outstanding (measure last).1 0 (taskRun cfg (hist ++ [.cycle last])).sensor := by
    rw [hstart]
    exact ⟨hadopted.haveGood, hadopted.lastGoodBar, by simp [hadopted.sensorFails],
      by simp [hadopted.jumpPending]⟩
  rw [← sensorOk_iff hout hsteady]
  constructor
  · intro hkept pre i post hsplit
    obtain ⟨pre', rest, rfl, rfl, hrest⟩ := List.filterMap_eq_append_iff.mp hsplit
    obtain ⟨skip, step, post', rfl, hskip, hstep, -⟩ := List.filterMap_eq_cons_iff.mp hrest
    obtain rfl : step = .cycle i := by
      cases step with
      | cycle j => exact congrArg TaskStep.cycle (Option.some.inj hstep)
      | requestOn | requestOff | requestRestart | modeSet => cases hstep
    have hok := (hkept (pre' ++ skip) i post' (by simp)).1
    rw [pumpTaskCycle_sample, run_taskStep_sensor] at hok
    have hnone : cycles skip = [] := List.filterMap_eq_nil_iff.mpr hskip
    rwa [cycles_append, hnone, List.append_nil] at hok
  · intro hok pre i post hsplit
    have hcycles : cycles steps = cycles pre ++ i :: cycles post := by
      rw [hsplit, cycles_append]
      rfl
    have hsample : (pumpTaskCycle (Machine.run taskStep (taskRun cfg (hist ++ [.cycle last])) pre)
        i).2.sensorOk = true := by
      rw [pumpTaskCycle_sample, run_taskStep_sensor]
      exact hok _ i _ hcycles
    refine ⟨hsample, fun hfault => ?_⟩
    rw [hsample] at hfault
    exact pmUpdate_healthy hfault

/-- A level change by 3 bar. -/
theorem sensorKept_threeBar :
    SensorKept (taskRun plantConfig ([] ++ [.cycle (plantReading 2 200000)]))
      [.cycle (plantReading 5 400000), .cycle (plantReading 5 600000),
        .cycle (plantReading 5 800000)] :=
  (sensorKept_iff plantConfig [] (plantReading 2 200000)
    (accepted_iff.mpr (by decide +kernel)) 5 _ (by decide +kernel)).mpr
    fun h => absurd (h.2 (plantReading 5 400000) (by simp [cycles, TaskStep.cycle?]))
      (by decide +kernel)

/-- A level change by 7 bar: the third reading reports a broken sensor. -/
theorem sevenBar_sensorFault :
    ¬ ∀ (cfg : PmConfig ℚ) (hist : List (TaskStep ℚ)) (last : CycleInput ℚ),
      Accepted (taskRun cfg hist).sensor last → ∀ (level : ℚ) (steps : List (TaskStep ℚ)),
        (∀ i ∈ cycles steps, i.Steady level) →
          SensorKept (taskRun cfg (hist ++ [.cycle last])) steps := by
  intro h
  have hkept := h plantConfig [] (plantReading 2 200000) (accepted_iff.mpr (by decide +kernel)) 9
    [.cycle (plantReading 9 400000), .cycle (plantReading 9 600000),
      .cycle (plantReading 9 800000)] (by decide +kernel)
  have hok := (hkept [.cycle (plantReading 9 400000), .cycle (plantReading 9 600000)]
    (plantReading 9 800000) [] rfl).1
  revert hok
  decide +kernel

/-- The fault is latched. -/
example :
    (taskRun plantConfig ([2, 9, 9, 9].map fun bar => .cycle (plantReading bar 200000))).pm.fault =
    .sensor := by decide +kernel

end Fountainer.Pump
