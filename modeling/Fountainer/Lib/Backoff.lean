import Mathlib.Algebra.BigOperators.Group.List.Basic
import Mathlib.Order.Monotone.Basic
import Mathlib.Tactic.Ring

/-!
# Exponential backoff

The wait between attempts is doubled after each failure, up to a cap. Attempts are paced when each
one keeps the wait that is due by the number of those before it; then the time that a series of them
takes is at least the sum of the waits.
-/

namespace Backoff

variable {base cap : ℕ}

variable (base cap) in
/-- The wait after the failure number `k` of a series, from 0 on. -/
def delay (k : ℕ) : ℕ := min (base * 2 ^ k) cap

theorem delay_zero (h : base ≤ cap) : delay base cap 0 = base := by
  rw [delay, pow_zero, Nat.mul_one]
  exact Nat.min_eq_left h

/-- Doubling, with the cap applied each time. -/
theorem delay_succ (k : ℕ) : delay base cap (k + 1) = min (2 * delay base cap k) cap := by
  have hpow : base * 2 ^ (k + 1) = 2 * (base * 2 ^ k) := by ring
  rw [delay, delay, hpow]
  omega

theorem delay_le (k : ℕ) : delay base cap k ≤ cap := Nat.min_le_right _ _

theorem le_delay (h : base ≤ cap) (k : ℕ) : base ≤ delay base cap k :=
  Nat.le_min.mpr ⟨Nat.le_mul_of_pos_right _ (Nat.two_pow_pos k), h⟩

variable (base cap) in
/-- The times of a series of attempts, each with the wait that is due behind the one before. -/
def Paced (ts : List ℕ) : Prop :=
  ∀ i t t', ts[i]? = some t → ts[i + 1]? = some t' → t + delay base cap i ≤ t'

theorem paced_nil : Paced base cap [] := fun _ _ _ h => by cases h

theorem paced_singleton (t : ℕ) : Paced base cap [t] := fun _ _ _ _ h => by cases h

/-- One more attempt. -/
theorem Paced.concat {ts : List ℕ} (h : Paced base cap ts) {last t : ℕ}
    (hlast : ts.getLast? = some last) (ht : last + delay base cap (ts.length - 1) ≤ t) :
    Paced base cap (ts ++ [t]) := by
  intro i u u' hu hu'
  rw [List.getLast?_eq_getElem?] at hlast
  have hi : i + 1 < ts.length + 1 := by
    have := (List.getElem?_eq_some_iff.mp hu').1
    rwa [List.length_append, List.length_singleton] at this
  rw [List.getElem?_append_left (by omega)] at hu
  by_cases hend : i + 1 < ts.length
  · rw [List.getElem?_append_left hend] at hu'
    exact h i u u' hu hu'
  · obtain rfl : i = ts.length - 1 := by omega
    rw [List.getElem?_append_right (by omega),
      show ts.length - 1 + 1 - ts.length = 0 by omega] at hu'
    obtain rfl : t = u' := Option.some.inj hu'
    rw [hlast] at hu
    obtain rfl : last = u := Option.some.inj hu
    exact ht

/-- **The time of a series**: its attempts take at least the sum of the waits. -/
theorem Paced.total {ts : List ℕ} (h : Paced base cap ts) {first last : ℕ}
    (hfirst : ts.head? = some first) (hlast : ts.getLast? = some last) :
    first + ((List.range (ts.length - 1)).map (delay base cap)).sum ≤ last := by
  have hprefix (n : ℕ) (t : ℕ) (hn : ts[n]? = some t) :
      first + ((List.range n).map (delay base cap)).sum ≤ t := by
    induction n generalizing t with
    | zero =>
      rw [List.head?_eq_getElem?, hn] at hfirst
      obtain rfl := Option.some.inj hfirst
      simp
    | succ n ih =>
      obtain ⟨u, hu⟩ : ∃ u, ts[n]? = some u := by
        have hlt := (List.getElem?_eq_some_iff.mp hn).1
        exact ⟨ts[n], List.getElem?_eq_getElem (by omega)⟩
      have hstep := h n u t hu hn
      have hsum := ih u hu
      rw [List.range_succ, List.map_append, List.sum_append, List.map_singleton, List.sum_singleton]
      omega
  rw [List.getLast?_eq_getElem?] at hlast
  exact hprefix _ _ hlast

end Backoff
