import Mathlib.Algebra.BigOperators.Group.Finset.Basic
import Mathlib.Data.Fintype.Card
import Mathlib.Data.Multiset.Range
import Mathlib.Logic.Function.Basic

/-!
# Slot pools

A pool has finitely many slots, each marked used or not. Whoever takes a free slot holds it
together with the number of that taking, and gives both back at the end. `Holds` relates the marks
to what all holders have together, whoever they are: a slot is used just when it is held, no slot
is held twice, and each taking is either held once or has been given back once.
-/

namespace SlotPool

variable {ι : Type*}

/-- The marks `used`, the slots that are held with their numbers, the count of the takings and the
    numbers given back belong together. -/
structure Holds (used : ι → Bool) (held : Multiset (ι × ℕ)) (taken : ℕ) (returned : List ℕ) :
    Prop where
  nodup : (held.map Prod.fst).Nodup
  used_iff : ∀ i, used i = true ↔ i ∈ held.map Prod.fst
  balance : (returned : Multiset ℕ) + held.map Prod.snd = Multiset.range taken

variable {used : ι → Bool} {held : Multiset (ι × ℕ)} {taken : ℕ} {returned : List ℕ} {i : ι} {n : ℕ}

/-- At the start nothing is held. -/
theorem Holds.empty : Holds (fun _ : ι => false) 0 0 [] := by
  refine ⟨Multiset.nodup_zero, fun i => ?_, rfl⟩
  simp

/-- Taking a free slot. -/
theorem Holds.take [DecidableEq ι] (h : Holds used held taken returned) (hi : used i = false) :
    Holds (Function.update used i true) ((i, taken) ::ₘ held) (taken + 1) returned := by
  have hn : i ∉ held.map Prod.fst := fun hm => by simp [(h.used_iff i).2 hm] at hi
  refine ⟨?_, fun j => ?_, ?_⟩
  · rw [Multiset.map_cons]
    exact Multiset.nodup_cons.2 ⟨hn, h.nodup⟩
  · by_cases hj : j = i
    · simp [hj]
    · rw [Function.update_of_ne hj, h.used_iff, Multiset.map_cons, Multiset.mem_cons]
      exact (or_iff_right hj).symm
  · rw [Multiset.map_cons, Multiset.add_cons, h.balance, Multiset.range_succ]

/-- Giving a slot back. -/
theorem Holds.give [DecidableEq ι] (h : Holds used ((i, n) ::ₘ held) taken returned) :
    Holds (Function.update used i false) held taken (returned ++ [n]) := by
  have hd : i ∉ held.map Prod.fst ∧ (held.map Prod.fst).Nodup := by
    have := h.nodup
    rwa [Multiset.map_cons, Multiset.nodup_cons] at this
  refine ⟨hd.2, fun j => ?_, ?_⟩
  · by_cases hj : j = i
    · subst hj
      simpa using hd.1
    · rw [Function.update_of_ne hj, h.used_iff, Multiset.map_cons, Multiset.mem_cons]
      exact or_iff_right hj
  · rw [← h.balance, Multiset.map_cons, ← Multiset.coe_add, Multiset.coe_singleton,
      add_assoc, Multiset.singleton_add]

/-- A slot that is held is used. -/
theorem Holds.used_of_mem (h : Holds used held taken returned) (hm : (i, n) ∈ held) :
    used i = true :=
  (h.used_iff i).2 (Multiset.mem_map_of_mem Prod.fst hm)

/-- A number that is held has been issued. -/
theorem Holds.lt_taken (h : Holds used held taken returned) (hm : (i, n) ∈ held) : n < taken := by
  rw [← Multiset.mem_range, ← h.balance]
  exact Multiset.mem_add.2 (.inr (Multiset.mem_map_of_mem Prod.snd hm))

/-- No taking is given back twice. -/
theorem Holds.returned_nodup (h : Holds used held taken returned) : returned.Nodup := by
  have : ((returned : Multiset ℕ) + held.map Prod.snd).Nodup :=
    h.balance ▸ Multiset.nodup_range taken
  exact Multiset.coe_nodup.1 (Multiset.nodup_add.1 this).1

/-- As many slots are used as are held. -/
theorem Holds.card_used [Fintype ι] (h : Holds used held taken returned) :
    (Finset.univ.filter fun i => used i = true).card = held.card := by
  have : (Finset.univ.filter fun i => used i = true) = ⟨held.map Prod.fst, h.nodup⟩ := by
    ext i
    simp only [Finset.mem_filter, Finset.mem_univ, true_and, h.used_iff]
    exact Iff.rfl
  rw [this]
  exact Multiset.card_map _ _

end SlotPool
