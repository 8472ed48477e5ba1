import Mathlib.Algebra.Group.Fin.Basic
import Mathlib.Algebra.Group.Units.Equiv
import Mathlib.Data.List.FinRange
import Mathlib.Data.List.GetD
import Mathlib.Tactic.Abel

/-!
# A ring that keeps the last entries

A ring of `n` slots with a write index keeps the last `n` entries of an unbounded
history and forgets the rest. `Keeps` relates the ring to the history it was
fed. Counting over the ring counts the last `n` entries; for a sorted history and
a predicate that later entries inherit, that is the whole count, unless every
slot counts.
-/

namespace OverwriteRing

variable {α : Type*} {n : ℕ} [NeZero n]

/-- The slot written `k` writes before the last one. -/
def slot (idx : Fin n) (k : Fin n) : Fin n := idx - 1 - k

/-- The ring, written next at `idx`, holds the end of the history, oldest entry
    first in `hist`; slots not written yet hold `empty`. -/
def Keeps (empty : α) (ring : Fin n → α) (idx : Fin n) (hist : List α) : Prop :=
  ∀ k : Fin n, ring (slot idx k) = hist.reverse.getD k empty

theorem keeps_nil (empty : α) (idx : Fin n) : Keeps empty (fun _ => empty) idx [] := by
  intro k
  simp

theorem slot_succ_zero (idx : Fin n) : slot (idx + 1) 0 = idx := by
  simp [slot]

/-- One write: the history grows by the entry. -/
theorem Keeps.push {empty : α} {ring : Fin n → α} {idx : Fin n} {hist : List α}
    (h : Keeps empty ring idx hist) (x : α) :
    Keeps empty (Function.update ring idx x) (idx + 1) (hist ++ [x]) := by
  intro k
  rw [List.reverse_append, List.reverse_singleton, List.singleton_append]
  by_cases hk : k = 0
  · subst hk
    rw [slot_succ_zero, Function.update_self]
    simp
  · -- Slot `k` of the new ring is slot `k - 1` of the old one.
    have hslot : slot (idx + 1) k = slot idx (k - 1) := by
      simp only [slot]
      abel
    have hne : slot idx (k - 1) ≠ idx := by
      intro he
      have hzero : k = 0 := by
        have hk' : idx - 1 - (k - 1) = idx - k := by abel
        rw [slot, hk', sub_eq_self] at he
        exact he
      exact hk hzero
    have hval : (k : ℕ) = ((k - 1 : Fin n) : ℕ) + 1 := by
      have hpos : 0 < (k : ℕ) := Nat.pos_of_ne_zero (fun hz => hk (Fin.ext (by simpa using hz)))
      have hn : 1 < n := by omega
      have hone : ((1 : Fin n) : ℕ) = 1 := Nat.mod_eq_of_lt hn
      rw [Fin.sub_val_of_le (Fin.le_def.mpr (by omega)), hone]
      omega
    rw [hslot, Function.update_of_ne hne, h (k - 1), hval, List.getD_cons_succ]

/-- The ring read from the newest slot back is the end of the history, filled up
    with empty slots. -/
theorem Keeps.map_slot {empty : α} {ring : Fin n → α} {idx : Fin n} {hist : List α}
    (h : Keeps empty ring idx hist) :
    (List.finRange n).map (fun k => ring (slot idx k)) =
      hist.reverse.take n ++ List.replicate (n - hist.length) empty := by
  apply List.ext_getElem
  · simp only [List.length_map, List.length_finRange, List.length_append, List.length_take,
      List.length_reverse, List.length_replicate]
    omega
  · intro i hi _
    have hin : i < n := by simpa using hi
    rw [List.getElem_map, List.getElem_finRange, Fin.cast_mk, h ⟨i, hin⟩]
    by_cases hlen : i < hist.length
    · rw [List.getElem_append_left (by simp; omega), List.getElem_take,
        List.getD_eq_getElem _ _ (by simpa using hlen)]
    · rw [List.getElem_append_right (by simp; omega), List.getElem_replicate,
        List.getD_eq_default _ _ (by simpa using hlen)]

/-- **Counting over the ring** counts the last `n` entries of the history. -/
theorem Keeps.countP_eq {empty : α} {ring : Fin n → α} {idx : Fin n} {hist : List α}
    (h : Keeps empty ring idx hist) (p : α → Bool) (hp : p empty = false) :
    (List.finRange n).countP (fun i => p (ring i)) = (hist.reverse.take n).countP p := by
  have hperm : ((List.finRange n).map (slot idx)).Perm (List.finRange n) :=
    Equiv.Perm.map_finRange_perm (n := n) (Equiv.subLeft (idx - 1))
  calc (List.finRange n).countP (fun i => p (ring i))
      = ((List.finRange n).map (slot idx)).countP (fun i => p (ring i)) := hperm.symm.countP_eq _
    _ = ((List.finRange n).map (fun k => ring (slot idx k))).countP p := by
        rw [List.countP_map, List.countP_map]
        rfl
    _ = (hist.reverse.take n).countP p := by
        rw [h.map_slot, List.countP_append]
        simp [List.countP_replicate, hp]

/-- In a sorted list, a predicate that recent entries inherit from older ones and
    that misses a recent entry misses all older ones. -/
theorem countP_older_eq_zero {r : α → α → Prop} {older recent : List α} {p : α → Bool}
    (hsorted : (older ++ recent).Pairwise r)
    (hup : ∀ x ∈ older, ∀ y ∈ recent, r x y → p x → p y)
    (hmiss : recent.countP p < recent.length) : older.countP p = 0 := by
  obtain ⟨y, hy, hpy⟩ : ∃ y ∈ recent, ¬ p y := by
    by_contra hall
    have heq : recent.countP p = recent.length :=
      List.countP_eq_length.mpr (fun y hy => not_not.mp (fun hpy => hall ⟨y, hy, hpy⟩))
    omega
  refine List.countP_eq_zero.mpr (fun x hx hpx => hpy ?_)
  exact hup x hx y hy ((List.pairwise_append.mp hsorted).2.2 x hx y hy) hpx

/-- **No undercount.** For a sorted history and a predicate that later entries
    inherit, a ring that is not full of counting entries counts all of the history. -/
theorem Keeps.countP_eq_hist {r : α → α → Prop} {empty : α} {ring : Fin n → α} {idx : Fin n}
    {hist : List α} (h : Keeps empty ring idx hist) (p : α → Bool) (hp : p empty = false)
    (hsorted : hist.Pairwise r) (hup : ∀ x ∈ hist, ∀ y ∈ hist, r x y → p x → p y)
    (hmiss : (List.finRange n).countP (fun i => p (ring i)) < n) :
    (List.finRange n).countP (fun i => p (ring i)) = hist.countP p := by
  have hring := h.countP_eq p hp
  -- Split the history into its last `n` entries and the older ones.
  have hlast : (hist.drop (hist.length - n)).countP p = (hist.reverse.take n).countP p := by
    rw [List.take_reverse, List.countP_reverse]
  have hsplit : hist.countP p =
      (hist.take (hist.length - n)).countP p + (hist.drop (hist.length - n)).countP p := by
    rw [← List.countP_append, List.take_append_drop]
  rw [hring, ← hlast] at hmiss ⊢
  rw [hsplit]
  by_cases hlen : hist.length ≤ n
  · simp [Nat.sub_eq_zero_of_le hlen]
  · have hzero : (hist.take (hist.length - n)).countP p = 0 := by
      refine countP_older_eq_zero (by rwa [List.take_append_drop])
        (fun x hx y hy => hup x (List.mem_of_mem_take hx) y (List.mem_of_mem_drop hy)) ?_
      rw [List.length_drop]
      omega
    omega

/-- **Saturated count.** So the ring counts the whole history up to its size. -/
theorem Keeps.countP_eq_min {r : α → α → Prop} {empty : α} {ring : Fin n → α} {idx : Fin n}
    {hist : List α} (h : Keeps empty ring idx hist) (p : α → Bool) (hp : p empty = false)
    (hsorted : hist.Pairwise r) (hup : ∀ x ∈ hist, ∀ y ∈ hist, r x y → p x → p y) :
    (List.finRange n).countP (fun i => p (ring i)) = min n (hist.countP p) := by
  have hsize : (List.finRange n).countP (fun i => p (ring i)) ≤ n :=
    List.countP_le_length.trans List.length_finRange.le
  have hhist : (List.finRange n).countP (fun i => p (ring i)) ≤ hist.countP p := by
    rw [h.countP_eq p hp, ← List.countP_reverse (l := hist)]
    exact (List.take_sublist n hist.reverse).countP_le
  by_cases hmiss : (List.finRange n).countP (fun i => p (ring i)) < n
  · have heq := h.countP_eq_hist p hp hsorted hup hmiss
    rw [heq] at hmiss ⊢
    exact (min_eq_right hmiss.le).symm
  · omega

/-- Counting into an 8-bit counter that does not overflow. -/
theorem foldl_count_toNat (p : α → Bool) (l : List α) (k : UInt8)
    (h : k.toNat + l.length < 256) :
    (l.foldl (fun k i => if p i then k + 1 else k) k).toNat = k.toNat + l.countP p := by
  induction l generalizing k with
  | nil => simp
  | cons x l ih =>
    rw [List.length_cons] at h
    by_cases hx : p x
    · have hk : (k + 1).toNat = k.toNat + 1 := by
        rw [UInt8.toNat_add]
        exact Nat.mod_eq_of_lt (by simp; omega)
      simp only [List.foldl_cons, hx, if_true]
      rw [ih (k + 1) (by omega), hk, List.countP_cons_of_pos hx]
      omega
    · simp only [List.foldl_cons, hx, if_false, Bool.false_eq_true]
      rw [ih k (by omega), List.countP_cons_of_neg hx]

-- ════════════════════════════════════════════════════════════════════════
-- Entries at absolute positions
-- ════════════════════════════════════════════════════════════════════════

/-- The ring holds the end of the history, the entry with the number `p` in the slot
    `p` modulo the size. Slots not written yet may hold anything. -/
def Stores (ring : Fin n → α) (hist : List α) : Prop :=
  ∀ p (hp : p < hist.length), hist.length ≤ p + n → ring (Fin.ofNat n p) = hist[p]

theorem stores_nil (ring : Fin n → α) : Stores ring [] := fun _ hp => absurd hp (by simp)

/-- Two numbers less than the size apart have different slots. -/
theorem ofNat_ne {p q : ℕ} (hlt : p < q) (hq : q < p + n) : Fin.ofNat n p ≠ Fin.ofNat n q := by
  intro h
  have hmod : p % n = q % n := congrArg Fin.val h
  have hdvd : n ∣ q - p := Nat.dvd_of_mod_eq_zero (Nat.sub_mod_eq_zero_of_mod_eq hmod.symm)
  have := Nat.le_of_dvd (by omega) hdvd
  omega

theorem Stores.push {ring : Fin n → α} {hist : List α} (h : Stores ring hist) (x : α) :
    Stores (Function.update ring (Fin.ofNat n hist.length) x) (hist ++ [x]) := by
  intro p hp hlast
  rw [List.length_append, List.length_singleton] at hp hlast
  by_cases hnew : p = hist.length
  · subst hnew
    rw [Function.update_self, List.getElem_append_right (le_refl _)]
    simp
  · have hold : p < hist.length := by omega
    rw [Function.update_of_ne (ofNat_ne hold (by omega)), List.getElem_append_left hold]
    exact h p hold (by omega)

/-- The contents of `m` slots from `i` on. -/
def scan (ring : Fin n → α) (i : Fin n) : ℕ → List α
  | 0 => []
  | m + 1 => ring i :: scan ring (i + 1) m

theorem ofNat_succ (p : ℕ) : Fin.ofNat n (p + 1) = Fin.ofNat n p + 1 := by
  apply Fin.ext
  simp [Fin.val_add]

/-- Slots that hold the end of the history are read as that part of it. -/
theorem Stores.scan_eq {ring : Fin n → α} {hist : List α} (h : Stores ring hist) {p m : ℕ}
    (hfirst : hist.length ≤ p + n) (hend : p + m ≤ hist.length) :
    scan ring (Fin.ofNat n p) m = (hist.drop p).take m := by
  induction m generalizing p with
  | zero => rfl
  | succ m ih =>
    have hp : p < hist.length := by omega
    rw [scan, ← ofNat_succ, ih (by omega) (by omega), h p hp hfirst,
      List.drop_eq_getElem_cons hp, List.take_succ_cons]

end OverwriteRing
