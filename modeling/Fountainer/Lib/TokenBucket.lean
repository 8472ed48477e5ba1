import Mathlib.Algebra.Order.Field.Basic
import Mathlib.Tactic.Linarith
import Mathlib.Tactic.Ring

/-!
# Token buckets

A bucket holds up to `capacity` tokens and fills at `rate`. A request comes at a time and with a
cost; it is granted, and pays, when the bucket holds as much. In an interval of length `d` the
granted requests cost at most `capacity + rate * d`, whatever the requests are: what is spent from
some time on was in the bucket then or has flowed in since.
-/

namespace TokenBucket

/-- The level, and the time that it is of. -/
structure Bucket (K : Type*) where
  level : K
  last : K

/-- A request: its time and its cost. -/
structure Request (K : Type*) where
  time : K
  cost : K

section

variable {K : Type*} [Field K] [LinearOrder K] (capacity rate : K)

/-- The level at a later time. -/
def refilled (s : Bucket K) (t : K) : K := min (s.level + rate * (t - s.last)) capacity

/-- The bucket has the tokens for the request. -/
def Grants (s : Bucket K) (r : Request K) : Prop := r.cost ≤ refilled capacity rate s r.time

instance (s : Bucket K) (r : Request K) : Decidable (Grants capacity rate s r) :=
  inferInstanceAs (Decidable (_ ≤ _))

/-- The bucket after a request. -/
def request (s : Bucket K) (r : Request K) : Bucket K where
  level := refilled capacity rate s r.time - if Grants capacity rate s r then r.cost else 0
  last := r.time

/-- What the granted requests from `a` to `b` have cost. -/
def spent (a b : K) : Bucket K → List (Request K) → K
  | _, [] => 0
  | s, r :: rs =>
    (if Grants capacity rate s r ∧ a ≤ r.time ∧ r.time ≤ b then r.cost else 0) +
      spent a b (request capacity rate s r) rs

end

/-- The times do not run backwards from `start` on, and no cost is negative. -/
def Ordered {K : Type*} [Field K] [LinearOrder K] : K → List (Request K) → Prop
  | _, [] => True
  | start, r :: rs => start ≤ r.time ∧ 0 ≤ r.cost ∧ Ordered r.time rs

theorem Ordered.mono {K : Type*} [Field K] [LinearOrder K] {start start' : K}
    {rs : List (Request K)} (h : Ordered start' rs) (hle : start ≤ start') : Ordered start rs := by
  cases rs with
  | nil => exact trivial
  | cons r rs => exact ⟨hle.trans h.1, h.2⟩

/-- The level is between zero and the capacity. -/
structure Filled {K : Type*} [Field K] [LinearOrder K] (capacity : K) (s : Bucket K) : Prop where
  nonneg : 0 ≤ s.level
  le_capacity : s.level ≤ capacity

variable {K : Type*} [Field K] [LinearOrder K] [IsStrictOrderedRing K] {capacity rate a b start : K}
  {s : Bucket K} {r : Request K} {rs : List (Request K)}

/-- **Request**: the level stays between zero and the capacity. -/
theorem Filled.request (h : Filled capacity s) (hrate : 0 ≤ rate) (htime : s.last ≤ r.time)
    (hcost : 0 ≤ r.cost) : Filled capacity (request capacity rate s r) := by
  have hcap : 0 ≤ capacity := h.nonneg.trans h.le_capacity
  have hflow : 0 ≤ rate * (r.time - s.last) := mul_nonneg hrate (sub_nonneg.mpr htime)
  have hlow : 0 ≤ refilled capacity rate s r.time := le_min (by linarith [h.nonneg]) hcap
  have hhigh : refilled capacity rate s r.time ≤ capacity := min_le_right _ _
  by_cases hgrant : Grants capacity rate s r
  · have hle : r.cost ≤ refilled capacity rate s r.time := hgrant
    constructor
    · rw [TokenBucket.request, if_pos hgrant]
      exact sub_nonneg.mpr hle
    · rw [TokenBucket.request, if_pos hgrant]
      exact (sub_le_self _ hcost).trans hhigh
  · constructor
    · rw [TokenBucket.request, if_neg hgrant, sub_zero]
      exact hlow
    · rw [TokenBucket.request, if_neg hgrant, sub_zero]
      exact hhigh

omit [IsStrictOrderedRing K] in
/-- Nothing is spent after the interval. -/
theorem spent_eq_zero (hrs : Ordered start rs) (hb : b < start) :
    spent capacity rate a b s rs = 0 := by
  induction rs generalizing s start with
  | nil => rfl
  | cons r rs ih =>
    obtain ⟨htime, -, hrs⟩ := hrs
    have hlate : b < r.time := hb.trans_le htime
    rw [spent, if_neg fun h => absurd h.2.2 (not_le.mpr hlate), ih hrs hlate, add_zero]

/-- What a request costs is taken out of the level. -/
theorem cost_add_level (hcost : 0 ≤ r.cost) :
    (if Grants capacity rate s r ∧ a ≤ r.time ∧ r.time ≤ b then r.cost else 0) +
      (request capacity rate s r).level ≤ refilled capacity rate s r.time := by
  by_cases hgrant : Grants capacity rate s r
  · have hpaid : (if Grants capacity rate s r ∧ a ≤ r.time ∧ r.time ≤ b then r.cost else 0) ≤
        r.cost := by
      split_ifs
      · exact le_rfl
      · exact hcost
    rw [request, if_pos hgrant]
    linarith
  · rw [request, if_neg hgrant, if_neg fun h => hgrant h.1, zero_add, sub_zero]

/-- What is spent was in the bucket or has flowed in. -/
theorem spent_le_level (hrate : 0 ≤ rate) (hs : Filled capacity s) (hrs : Ordered s.last rs)
    (hb : s.last ≤ b) : spent capacity rate a b s rs ≤ s.level + rate * (b - s.last) := by
  have hflow : 0 ≤ rate * (b - s.last) := mul_nonneg hrate (sub_nonneg.mpr hb)
  induction rs generalizing s with
  | nil => exact add_nonneg hs.nonneg hflow
  | cons r rs ih =>
    obtain ⟨htime, hcost, hrs⟩ := hrs
    have hpaid := @cost_add_level K _ _ _ capacity rate a b s r hcost
    rw [spent]
    obtain hlate | hin := lt_or_ge b r.time
    · rw [if_neg fun h => absurd h.2.2 (not_le.mpr hlate), spent_eq_zero hrs hlate, add_zero]
      exact add_nonneg hs.nonneg hflow
    · have hrest := ih (hs.request hrate htime hcost) hrs hin
        (mul_nonneg hrate (sub_nonneg.mpr hin))
      have hrefilled : refilled capacity rate s r.time ≤ s.level + rate * (r.time - s.last) :=
        min_le_left _ _
      have hsplit : rate * (b - s.last) = rate * (b - r.time) + rate * (r.time - s.last) := by ring
      change _ ≤ (request capacity rate s r).level + rate * (b - r.time) at hrest
      linarith

/-- **Token bucket**: in every interval the granted requests cost at most the capacity and what
    flows in meanwhile. -/
theorem spent_le (hrate : 0 ≤ rate) (hs : Filled capacity s) (hrs : Ordered s.last rs)
    (hab : a ≤ b) : spent capacity rate a b s rs ≤ capacity + rate * (b - a) := by
  have hbound : 0 ≤ capacity + rate * (b - a) :=
    add_nonneg (hs.nonneg.trans hs.le_capacity) (mul_nonneg hrate (sub_nonneg.mpr hab))
  induction rs generalizing s with
  | nil => exact hbound
  | cons r rs ih =>
    obtain ⟨htime, hcost, hrs⟩ := hrs
    have hfilled := hs.request hrate htime hcost
    have hpaid := @cost_add_level K _ _ _ capacity rate a b s r hcost
    rw [spent]
    obtain hearly | hfrom := lt_or_ge r.time a
    · rw [if_neg fun h => absurd h.2.1 (not_le.mpr hearly), zero_add]
      exact ih hfilled hrs
    obtain hlate | hin := lt_or_ge b r.time
    · rw [if_neg fun h => absurd h.2.2 (not_le.mpr hlate), spent_eq_zero hrs hlate, add_zero]
      exact hbound
    · -- The bucket holds at most its capacity at the first request of the interval.
      have hrest := @spent_le_level K _ _ _ capacity rate a b _ rs hrate hfilled hrs hin
      have hrefilled : refilled capacity rate s r.time ≤ capacity := min_le_right _ _
      have hmono : rate * (b - r.time) ≤ rate * (b - a) :=
        mul_le_mul_of_nonneg_left (by linarith) hrate
      change _ ≤ (request capacity rate s r).level + rate * (b - r.time) at hrest
      linarith

end TokenBucket
