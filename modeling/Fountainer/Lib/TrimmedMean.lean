import Mathlib.Algebra.Order.BigOperators.Group.List
import Mathlib.Algebra.Order.Ring.Int
import Mathlib.Order.Bounds.Basic

/-!
# Trimmed means

The mean of integer samples without the least and the greatest of them, with C's division. When all
samples but one lie in an interval, the mean does, wherever the other one is: should it be left in,
it would lie between two that are inside.
-/

namespace TrimmedMean

section Extremes

variable {α : Type*} [LinearOrder α]

/-- The least of some values, as a loop finds it. -/
def least (x : α) (xs : List α) : α := xs.foldl (fun a y => if y < a then y else a) x

/-- The greatest of some values. -/
def greatest (x : α) (xs : List α) : α := xs.foldl (fun a y => if y > a then y else a) x

theorem least_isLeast (x : α) (xs : List α) : IsLeast {y | y ∈ x :: xs} (least x xs) := by
  induction xs generalizing x with
  | nil => exact ⟨List.mem_singleton_self x, fun y hy => (List.mem_singleton.mp hy).ge⟩
  | cons z xs ih =>
    obtain ⟨hmem, hle⟩ := ih (if z < x then z else x)
    have hstep : least x (z :: xs) = least (if z < x then z else x) xs := rfl
    have hmin : (if z < x then z else x) ≤ x ∧ (if z < x then z else x) ≤ z := by
      split_ifs with hlt
      · exact ⟨hlt.le, le_rfl⟩
      · exact ⟨le_rfl, not_lt.mp hlt⟩
    have hfirst := hle List.mem_cons_self
    rw [hstep]
    refine ⟨?_, fun y hy => ?_⟩
    · rcases List.mem_cons.mp hmem with heq | htail
      · rw [heq]
        show _ ∈ x :: z :: xs
        split_ifs <;> simp
      · exact List.mem_cons_of_mem _ (List.mem_cons_of_mem _ htail)
    · rcases List.mem_cons.mp hy with rfl | htail
      · exact hfirst.trans hmin.1
      · rcases List.mem_cons.mp htail with rfl | htail
        · exact hfirst.trans hmin.2
        · exact hle (List.mem_cons_of_mem _ htail)

theorem greatest_isGreatest (x : α) (xs : List α) :
    IsGreatest {y | y ∈ x :: xs} (greatest x xs) :=
  @least_isLeast αᵒᵈ _ x xs

end Extremes

variable {xs : List ℤ} {lo hi m M : ℤ}

theorem sum_bounds (h : ∀ x ∈ xs, lo ≤ x ∧ x ≤ hi) :
    xs.length * lo ≤ xs.sum ∧ xs.sum ≤ xs.length * hi := by
  refine ⟨?_, ?_⟩
  · rw [← nsmul_eq_mul]
    exact List.card_nsmul_le_sum xs lo fun x hx => (h x hx).1
  · rw [← nsmul_eq_mul]
    exact List.sum_le_card_nsmul xs hi fun x hx => (h x hx).2

/-- C's division keeps the bounds of a mean. -/
theorem mean_bounds {n s : ℤ} (hn : 0 < n) (hlo : n * lo ≤ s) (hhi : s ≤ n * hi) :
    lo ≤ s.tdiv n ∧ s.tdiv n ≤ hi := by
  have h₁ := Int.tdiv_le_tdiv hn hlo
  have h₂ := Int.tdiv_le_tdiv hn hhi
  rw [Int.mul_tdiv_cancel_left _ hn.ne'] at h₁ h₂
  exact ⟨h₁, h₂⟩

/-- The samples outside the interval. -/
def outside (lo hi : ℤ) (xs : List ℤ) : ℕ := xs.countP fun x => x < lo || hi < x

theorem outside_eq_zero : outside lo hi xs = 0 ↔ ∀ x ∈ xs, lo ≤ x ∧ x ≤ hi := by
  simp [outside, List.countP_eq_zero]

/-- **One outlier**: what is left without the least and the greatest sample is inside. -/
theorem trimmed_inside {rest : List ℤ} (hperm : xs.Perm (m :: M :: rest))
    (hm : ∀ x ∈ xs, m ≤ x) (hM : ∀ x ∈ xs, x ≤ M) (hout : outside lo hi xs ≤ 1) :
    ∀ x ∈ rest, lo ≤ x ∧ x ≤ hi := by
  intro x hx
  have hmem : x ∈ xs := hperm.mem_iff.mpr (List.mem_cons_of_mem _ (List.mem_cons_of_mem _ hx))
  have hmx := hm x hmem
  have hxM := hM x hmem
  rw [outside, hperm.countP_eq, List.countP_cons, List.countP_cons] at hout
  by_contra hbad
  have hrest : 0 < rest.countP fun x => x < lo || hi < x := by
    refine List.countP_pos_iff.mpr ⟨x, hx, ?_⟩
    simp only [Bool.or_eq_true, decide_eq_true_eq]
    omega
  -- With an outlier left, the extreme one on its side is outside too.
  by_cases hlow : x < lo
  · rw [if_pos (show (decide (m < lo) || decide (hi < m)) = true by simp; omega)] at hout
    omega
  · rw [if_pos (show (decide (M < lo) || decide (hi < M)) = true by simp; omega)] at hout
    omega

/-- **The trimmed mean**: with one outlier at most, it is in the interval. -/
theorem trimmed_bounds (hm : IsLeast {x | x ∈ xs} m) (hM : IsGreatest {x | x ∈ xs} M)
    (hlen : 3 ≤ xs.length) (hout : outside lo hi xs ≤ 1) :
    lo ≤ (xs.sum - m - M).tdiv (xs.length - 2) ∧ (xs.sum - m - M).tdiv (xs.length - 2) ≤ hi := by
  have hMmem : M ∈ xs.erase m := by
    by_cases heq : M = m
    · -- All samples are equal.
      subst heq
      refine List.count_pos_iff.mp ?_
      have hall : xs = List.replicate xs.length M :=
        List.eq_replicate_of_mem fun x hx => le_antisymm (hM.2 hx) (hm.2 hx)
      rw [List.count_erase_self, hall, List.count_replicate_self]
      omega
    · exact (List.mem_erase_of_ne heq).mpr hM.1
  have hperm : xs.Perm (m :: M :: (xs.erase m).erase M) :=
    (List.perm_cons_erase hm.1).trans ((List.perm_cons_erase hMmem).cons m)
  have hlength := hperm.length_eq
  have hsum := hperm.sum_eq
  have hinside := trimmed_inside hperm (fun x hx => hm.2 hx) (fun x hx => hM.2 hx) hout
  obtain ⟨hlo, hhi⟩ := sum_bounds hinside
  rw [List.length_cons, List.length_cons] at hlength
  rw [List.sum_cons, List.sum_cons] at hsum
  have hrest : xs.sum - m - M = ((xs.erase m).erase M).sum := by omega
  have hcount : (xs.length : ℤ) - 2 = ((xs.erase m).erase M).length := by omega
  rw [hrest, hcount]
  exact mean_bounds (by omega) hlo hhi

/-- The plain mean lies between the least and the greatest sample. -/
theorem plain_bounds (hm : IsLeast {x | x ∈ xs} m) (hM : IsGreatest {x | x ∈ xs} M) :
    m ≤ xs.sum.tdiv xs.length ∧ xs.sum.tdiv xs.length ≤ M := by
  obtain ⟨hlo, hhi⟩ := sum_bounds fun x hx => ⟨hm.2 hx, hM.2 hx⟩
  exact mean_bounds (Int.natCast_pos.mpr (List.length_pos_of_mem hm.1)) hlo hhi

end TrimmedMean
