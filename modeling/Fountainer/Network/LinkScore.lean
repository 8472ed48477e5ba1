import Fountainer.Lib.FloatArith
import Fountainer.Lib.Runs
import Fountainer.Lib.Smoothing
import Mathlib.Tactic.NormNum

/-!
# The score of the link

`link_score.c`: a raw score from the signal strength less three capped penalties, its exponential
average, and the flag of a poor link with its two thresholds. With exact arithmetic the average and
the flag are a smoothed signal over the raw scores.
-/

namespace Fountainer.Network

open FloatArith (ofUnsigned ofSigned ofSigned_of_nonneg)

/-- `link_inputs_t`. -/
structure LinkInputs where
  rssiDbm : Int8
  wlanDisconnects1h : UInt8
  sessionDrops1h : UInt8
  txFails5m : UInt16

/-- `link_state_t`. -/
structure LinkState (F : Type*) where
  scoreEma : F
  poor : Bool

/-- `rssi_base`. -/
def rssiBase (rssi : Int8) : ℤ :=
  if rssi = 0 then 0
  else if rssi ≥ -60 then 100
  else if rssi ≤ -90 then 0
  else ((rssi.toInt + 90) * 100).tdiv 30

/-- `cap`. -/
def cap (v lo : ℤ) : ℤ := if v < lo then lo else v

/-- The penalty of `n` WLAN disconnects. -/
def wlanPenalty (n : UInt8) : ℤ := cap (-15 * n.toNat) (-30)

/-- The penalty of `n` session drops. -/
def sessionPenalty (n : UInt8) : ℤ := cap (-10 * n.toNat) (-30)

/-- The penalty of `n` dropped frames. -/
def txPenalty (n : UInt16) : ℤ := cap (-2 * n.toNat) (-20)

/-- The score of `link_score_step` before it is averaged. -/
def rawScore (inputs : LinkInputs) : ℤ :=
  let score := rssiBase inputs.rssiDbm + wlanPenalty inputs.wlanDisconnects1h +
    sessionPenalty inputs.sessionDrops1h + txPenalty inputs.txFails5m
  let score := if score < 0 then 0 else score
  if score > 100 then 100 else score

section Functions

variable {F : Type*} [FloatArith F]

/-- `LINK_SCORE_EMA_ALPHA`. -/
def linkScoreEmaAlpha : F := 0.3

/-- `LINK_SCORE_POOR_BELOW`. -/
def linkScorePoorBelow : ℕ := 40

/-- `LINK_SCORE_GOOD_ABOVE`. -/
def linkScoreGoodAbove : ℕ := 55

/-- `link_state_init`. -/
def linkStateInit : LinkState F where
  scoreEma := 100.0
  poor := false

/-- `link_score_step`. -/
def linkScoreStep (st : LinkState F) (inputs : LinkInputs) : UInt8 × LinkState F :=
  let score := rawScore inputs
  let ema := linkScoreEmaAlpha * ofSigned score + (1.0 - linkScoreEmaAlpha) * st.scoreEma
  let poor :=
    if st.poor then
      if ema > ofUnsigned linkScoreGoodAbove then false else st.poor
    else if ema < ofUnsigned linkScorePoorBelow then true else st.poor
  (UInt8.ofInt score, ⟨ema, poor⟩)

/-- The state after the steps from `link_state_init`. -/
def linkRun (F : Type*) [FloatArith F] (steps : List LinkInputs) : LinkState F :=
  Machine.run (fun st inputs => (linkScoreStep st inputs).2) linkStateInit steps

end Functions

/-- The inputs are at least as good as the other ones, both with a link. -/
structure LinkInputs.AtLeastAsGood (x y : LinkInputs) : Prop where
  rssi : y.rssiDbm ≤ x.rssiDbm
  link : x.rssiDbm ≠ 0 ∧ y.rssiDbm ≠ 0
  wlan : x.wlanDisconnects1h ≤ y.wlanDisconnects1h
  session : x.sessionDrops1h ≤ y.sessionDrops1h
  tx : x.txFails5m ≤ y.txFails5m

-- ════════════════════════════════════════════════════════════════════════
-- The raw score
-- ════════════════════════════════════════════════════════════════════════

theorem rssiBase_eq {rssi : Int8} (hlink : rssi ≠ 0) :
    rssiBase rssi = if -60 ≤ rssi.toInt then 100 else if rssi.toInt ≤ -90 then 0
      else (rssi.toInt + 90) * 100 / 30 := by
  have hhigh : rssi ≥ -60 ↔ -60 ≤ rssi.toInt := Int8.le_iff_toInt_le
  have hlow : rssi ≤ -90 ↔ rssi.toInt ≤ -90 := Int8.le_iff_toInt_le
  rw [rssiBase, if_neg hlink]
  simp only [hhigh, hlow]
  split_ifs with _ hweak
  · rfl
  · rfl
  · exact Int.tdiv_eq_ediv_of_nonneg (by omega)

/-- A stronger signal has at least the same base. -/
theorem rssiBase_mono {r s : Int8} (hr : r ≠ 0) (hs : s ≠ 0) (h : r ≤ s) :
    rssiBase r ≤ rssiBase s := by
  have hle : r.toInt ≤ s.toInt := Int8.le_iff_toInt_le.mp h
  rw [rssiBase_eq hr, rssiBase_eq hs]
  split_ifs <;> omega

theorem cap_mono {v w : ℤ} (h : v ≤ w) (lo : ℤ) : cap v lo ≤ cap w lo := by
  simp only [cap]
  split_ifs <;> omega

/-- Better inputs have at least the same raw score. -/
theorem rawScore_mono {x y : LinkInputs} (h : x.AtLeastAsGood y) : rawScore y ≤ rawScore x := by
  have hrssi := rssiBase_mono h.link.2 h.link.1 h.rssi
  have hwlan : wlanPenalty y.wlanDisconnects1h ≤ wlanPenalty x.wlanDisconnects1h :=
    cap_mono (by have := UInt8.le_iff_toNat_le.mp h.wlan; omega) _
  have hsession : sessionPenalty y.sessionDrops1h ≤ sessionPenalty x.sessionDrops1h :=
    cap_mono (by have := UInt8.le_iff_toNat_le.mp h.session; omega) _
  have htx : txPenalty y.txFails5m ≤ txPenalty x.txFails5m :=
    cap_mono (by have := UInt16.le_iff_toNat_le.mp h.tx; omega) _
  simp only [rawScore]
  split_ifs <;> omega

theorem rawScore_mem (inputs : LinkInputs) : 0 ≤ rawScore inputs ∧ rawScore inputs ≤ 100 := by
  simp only [rawScore]
  split_ifs <;> omega

theorem linkScoreStep_score {F : Type*} [FloatArith F] (st : LinkState F) (inputs : LinkInputs) :
    ((linkScoreStep st inputs).1.toNat : ℤ) = rawScore inputs := by
  obtain ⟨h0, h100⟩ := rawScore_mem inputs
  have hmod : rawScore inputs % 2 ^ 8 = rawScore inputs := Int.emod_eq_of_lt h0 (by omega)
  show ((UInt8.ofNat (rawScore inputs % 2 ^ 8).toNat).toNat : ℤ) = rawScore inputs
  rw [hmod, UInt8.toNat_ofNat_of_lt' (by change _ < 2 ^ 8; omega), Int.toNat_of_nonneg h0]

-- ════════════════════════════════════════════════════════════════════════
-- The average and the flag
-- ════════════════════════════════════════════════════════════════════════

open Smoothing

/-- The average and the flag as a smoothed signal. -/
def LinkState.signal (st : LinkState ℚ) : Signal ℚ := ⟨st.scoreEma, st.poor⟩

/-- With exact arithmetic a step is a sample of the raw score. -/
theorem signal_step (st : LinkState ℚ) (inputs : LinkInputs) :
    (linkScoreStep st inputs).2.signal = sample 0.3 40 55 st.signal (rawScore inputs) := by
  have hone : (1.0 : ℚ) = 1 := by norm_num
  have hema : (linkScoreStep st inputs).2.scoreEma =
      smooth 0.3 (rawScore inputs : ℚ) st.scoreEma := by
    show _ * ofSigned (rawScore inputs) + _ = _
    rw [ofSigned_of_nonneg (rawScore_mem inputs).1, smooth, ← hone]
    rfl
  have hpoor : (linkScoreStep st inputs).2.poor =
      flag 40 55 (linkScoreStep st inputs).2.scoreEma st.poor := by
    obtain ⟨e, he⟩ : ∃ e, (linkScoreStep st inputs).2.scoreEma = e := ⟨_, rfl⟩
    have hgood : FloatArith.lt (ofUnsigned linkScoreGoodAbove) e = decide (55 < e) := by
      show decide (((55 : ℕ) : ℚ) < e) = _
      simp
    have hlow : FloatArith.lt e (ofUnsigned linkScorePoorBelow) = decide (e < 40) := by
      show decide (e < ((40 : ℕ) : ℚ)) = _
      simp
    show (if st.poor then if FloatArith.lt _ (linkScoreStep st inputs).2.scoreEma then false
      else st.poor else if FloatArith.lt (linkScoreStep st inputs).2.scoreEma _ then true
      else st.poor) = _
    rw [he, hgood, hlow, flag]
    cases st.poor with
    | true =>
      by_cases hgt : 55 < e
      · simp [hgt]
      · simp [not_lt.mp hgt]
    | false => simp
  rw [LinkState.signal, hpoor, hema]
  rfl

/-- The signal after a run is that of the raw scores. -/
theorem signal_run (steps : List LinkInputs) :
    (linkRun ℚ steps).signal =
      Machine.run (sample 0.3 40 55) ⟨100, false⟩ (steps.map fun x => (rawScore x : ℚ)) := by
  induction steps using List.reverseRecOn with
  | nil =>
    have hfull : (100.0 : ℚ) = 100 := by norm_num
    show (⟨(100.0 : ℚ), false⟩ : Signal ℚ) = ⟨100, false⟩
    rw [hfull]
  | append_singleton steps x ih =>
    rw [List.map_append, List.map_singleton, Machine.run_concat, ← ih, linkRun, Machine.run_concat,
      ← linkRun, signal_step]

/-- **Monotone link score**: over two histories of which the first is at least as good at every
    step, the average of the first is at least that of the second, and the first is poor only where
    the second is. The raw scores and the averages are in [0, 100]. -/
theorem linkScore_monotone {xs ys : List LinkInputs}
    (h : List.Forall₂ LinkInputs.AtLeastAsGood xs ys) {n : ℕ} {x y : LinkInputs}
    (hx : xs[n]? = some x) (hy : ys[n]? = some y) :
    let a := linkScoreStep (linkRun ℚ (xs.take n)) x
    let b := linkScoreStep (linkRun ℚ (ys.take n)) y
    b.2.scoreEma ≤ a.2.scoreEma ∧ (a.2.poor = true → b.2.poor = true) ∧
      (0 ≤ a.2.scoreEma ∧ a.2.scoreEma ≤ 100) ∧ (0 ≤ b.2.scoreEma ∧ b.2.scoreEma ≤ 100) ∧
      (a.1.toNat = rawScore x ∧ 0 ≤ rawScore x ∧ rawScore x ≤ 100) ∧
      (b.1.toNat = rawScore y ∧ 0 ≤ rawScore y ∧ rawScore y ≤ 100) := by
  have hlast : ∀ {zs : List LinkInputs} {z}, zs[n]? = some z →
      (linkScoreStep (linkRun ℚ (zs.take n)) z).2 = linkRun ℚ (zs.take (n + 1)) :=
    fun hz => (Machine.run_take_succ (fun st inputs => (linkScoreStep st inputs).2) hz).symm
  have hweight : (0.3 : ℚ) ∈ Set.Icc 0 1 := ⟨by norm_num, by norm_num⟩
  -- the signals of the two histories up to this step
  have hbetter : (linkRun ℚ (xs.take (n + 1))).signal.Better
      (linkRun ℚ (ys.take (n + 1))).signal := by
    rw [signal_run, signal_run]
    refine (Signal.Better.refl _).run hweight (by norm_num) ?_
    rw [List.forall₂_map_left_iff, List.forall₂_map_right_iff]
    exact (List.forall₂_take _ h).imp fun x y hxy => Int.cast_le.mpr (rawScore_mono hxy)
  have hrange : ∀ zs : List LinkInputs, (linkRun ℚ zs).scoreEma ∈ Set.Icc 0 100 := by
    intro zs
    show (linkRun ℚ zs).signal.average ∈ _
    rw [signal_run]
    refine average_mem hweight ⟨by norm_num, le_rfl⟩ fun score hscore => ?_
    obtain ⟨z, -, rfl⟩ := List.mem_map.mp hscore
    obtain ⟨h0, h100⟩ := rawScore_mem z
    exact ⟨Int.cast_nonneg h0, show (rawScore z : ℚ) ≤ 100 by exact_mod_cast h100⟩
  dsimp only
  rw [hlast hx, hlast hy]
  exact ⟨hbetter.average, hbetter.raised, hrange _, hrange _,
    ⟨linkScoreStep_score _ x, rawScore_mem x⟩, ⟨linkScoreStep_score _ y, rawScore_mem y⟩⟩

/-- A good link beside a bad one, after one step and one more. -/
theorem linkScore_monotone_good :
    (linkScoreStep (linkRun ℚ [⟨-85, 2, 1, 7⟩]) ⟨-85, 2, 1, 7⟩).2.scoreEma ≤
      (linkScoreStep (linkRun ℚ [⟨-62, 0, 1, 0⟩]) ⟨-62, 0, 1, 0⟩).2.scoreEma := by
  have hgood : LinkInputs.AtLeastAsGood ⟨-62, 0, 1, 0⟩ ⟨-85, 2, 1, 7⟩ :=
    ⟨by decide, by decide, by decide, by decide, by decide⟩
  exact (@linkScore_monotone [⟨-62, 0, 1, 0⟩, ⟨-62, 0, 1, 0⟩] [⟨-85, 2, 1, 7⟩, ⟨-85, 2, 1, 7⟩]
    (.cons hgood (.cons hgood .nil)) 1 _ _ rfl rfl).1

end Fountainer.Network
