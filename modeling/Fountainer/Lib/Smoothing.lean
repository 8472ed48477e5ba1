import Fountainer.Lib.Runs
import Mathlib.Algebra.Order.Field.Basic
import Mathlib.Data.List.Forall2

/-!
# A smoothed signal with hysteresis

Samples are folded into an exponential average; a flag is raised when the average falls below one
threshold and lowered when it rises above another. The average stays in the range of the samples.
Better samples give a better average, and, as the thresholds are ordered, never a flag that worse
ones do not give as well.
-/

namespace Smoothing

/-- The average of the samples and the flag. -/
structure Signal (K : Type*) where
  average : K
  raised : Bool

section Flag

variable {K : Type*} [LinearOrder K]

/-- A flag raised below `lo` and lowered above `hi`. -/
def flag (lo hi average : K) (raised : Bool) : Bool :=
  if raised then decide (average ≤ hi) else decide (average < lo)

/-- The signal is at least as good as the other one. -/
structure Signal.Better (s t : Signal K) : Prop where
  average : t.average ≤ s.average
  raised : s.raised = true → t.raised = true

theorem Signal.Better.refl (s : Signal K) : s.Better s := ⟨le_rfl, id⟩

theorem flag_of_le {lo hi : K} (hlohi : lo ≤ hi) {x y : K} (hxy : x ≤ y) {b c : Bool}
    (hbc : b = true → c = true) (hy : flag lo hi y b = true) : flag lo hi x c = true := by
  cases b with
  | true =>
    rw [hbc rfl]
    exact decide_eq_true (hxy.trans (of_decide_eq_true hy))
  | false =>
    have hlow : x < lo := hxy.trans_lt (of_decide_eq_true hy)
    cases c with
    | true => exact decide_eq_true (hlow.le.trans hlohi)
    | false => exact decide_eq_true hlow

end Flag

/-- The average with one more sample, which has the weight `a`. -/
def smooth {K : Type*} [Ring K] (a sample average : K) : K := a * sample + (1 - a) * average

theorem smooth_self {K : Type*} [Ring K] (a x : K) : smooth a x x = x := by
  rw [smooth, ← add_mul, add_sub_cancel, one_mul]

variable {K : Type*} [Field K] [LinearOrder K]

/-- One more sample. -/
def sample (a lo hi : K) (s : Signal K) (x : K) : Signal K where
  average := smooth a x s.average
  raised := flag lo hi (smooth a x s.average) s.raised

variable [IsStrictOrderedRing K] {a lo hi : K}

theorem smooth_mono (ha : a ∈ Set.Icc 0 1) {x y s t : K} (hxy : x ≤ y) (hst : s ≤ t) :
    smooth a x s ≤ smooth a y t :=
  add_le_add (mul_le_mul_of_nonneg_left hxy ha.1)
    (mul_le_mul_of_nonneg_left hst (sub_nonneg.mpr ha.2))

/-- The average of values of a range is in the range. -/
theorem smooth_mem (ha : a ∈ Set.Icc 0 1) {l u x s : K} (hx : x ∈ Set.Icc l u)
    (hs : s ∈ Set.Icc l u) : smooth a x s ∈ Set.Icc l u := by
  constructor
  · calc l = smooth a l l := (smooth_self a l).symm
      _ ≤ smooth a x s := smooth_mono ha hx.1 hs.1
  · calc smooth a x s ≤ smooth a u u := smooth_mono ha hx.2 hs.2
      _ = u := smooth_self a u

/-- A better sample keeps the better signal better. -/
theorem Signal.Better.sample (ha : a ∈ Set.Icc 0 1) (hlohi : lo ≤ hi) {s t : Signal K}
    (h : s.Better t) {x y : K} (hxy : y ≤ x) :
    (sample a lo hi s x).Better (sample a lo hi t y) := by
  have havg : smooth a y t.average ≤ smooth a x s.average := smooth_mono ha hxy h.average
  exact ⟨havg, flag_of_le hlohi havg h.raised⟩

/-- **Monotone runs**: better samples give a better signal at the end. -/
theorem Signal.Better.run (ha : a ∈ Set.Icc 0 1) (hlohi : lo ≤ hi) {s t : Signal K}
    (h : s.Better t) {xs ys : List K} (hxys : List.Forall₂ (fun x y => y ≤ x) xs ys) :
    (Machine.run (Smoothing.sample a lo hi) s xs).Better
      (Machine.run (Smoothing.sample a lo hi) t ys) := by
  induction hxys generalizing s t with
  | nil => exact h
  | cons hxy _ ih => exact ih (h.sample ha hlohi hxy)

/-- The average stays in the range of the samples. -/
theorem average_mem (ha : a ∈ Set.Icc 0 1) {l u : K} {s : Signal K}
    (hs : s.average ∈ Set.Icc l u) {xs : List K} (hxs : ∀ x ∈ xs, x ∈ Set.Icc l u) :
    (Machine.run (sample a lo hi) s xs).average ∈ Set.Icc l u := by
  induction xs generalizing s with
  | nil => exact hs
  | cons x xs ih =>
    have hstep : (sample a lo hi s x).average ∈ Set.Icc l u :=
      smooth_mem ha (hxs x List.mem_cons_self) hs
    exact ih hstep fun y hy => hxs y (List.mem_cons_of_mem x hy)

end Smoothing
