import Mathlib.Data.List.Basic
import Mathlib.Data.List.Infix

/-!
# A reader with a cursor

A log numbers its entries and keeps only those from some number on; a reader asks for what
stands behind its cursor, gets some of it, and moves the cursor to the last entry it got.
`Step` is what the log and the reader may do, and `accounted` says where every entry is after
any run: it was sent once, it still waits, or the log had dropped it before the cursor got
there.
-/

namespace Cursor

variable {α : Type*}

/-- The log with all entries ever issued and the first number it still keeps; the reader with
    its cursor and what it got. -/
structure Reader (α : Type*) where
  issued : List α
  first : ℕ
  since : ℕ
  sent : List α

variable (key : α → ℕ) (wanted : α → Prop) [DecidablePred wanted]

/-- What a poll may return. -/
def Reader.pending (s : Reader α) : List α :=
  s.issued.filter fun x => s.first ≤ key x ∧ s.since < key x ∧ wanted x

/-- The log issues entries and drops old ones, or the reader gets the first of the pending
    entries. -/
inductive Step (s s' : Reader α) : Prop where
  | log (new : List α) (hissued : s'.issued = s.issued ++ new)
      (hsorted : (s'.issued.map key).Pairwise (· < ·)) (hnew : ∀ x ∈ new, s.since < key x)
      (hfirst : s.first ≤ s'.first) (hsince : s'.since = s.since) (hsent : s'.sent = s.sent)
  | poll (batch : List α) (hbatch : batch <+: s.pending key wanted) (hissued : s'.issued = s.issued)
      (hfirst : s'.first = s.first) (hsince : s'.since = (batch.getLast?.map key).getD s.since)
      (hsent : s'.sent = s.sent ++ batch)

variable {key wanted}

theorem mem_pending {s : Reader α} {x : α} : x ∈ s.pending key wanted ↔
    x ∈ s.issued ∧ s.first ≤ key x ∧ s.since < key x ∧ wanted x := by
  simp [Reader.pending]

/-- What is not beyond the last entry of a prefix is in it. -/
theorem mem_of_prefix_of_le {xs ys : List α} {x y : α} (hpre : ys <+: xs)
    (hsorted : (xs.map key).Pairwise (· < ·)) (hy : y ∈ ys) (hx : x ∈ xs) (hle : key x ≤ key y) :
    x ∈ ys := by
  obtain ⟨zs, rfl⟩ := hpre
  rcases List.mem_append.mp hx with hx | hx
  · exact hx
  · rw [List.map_append, List.pairwise_append] at hsorted
    have := hsorted.2.2 (key y) (List.mem_map_of_mem hy) (key x) (List.mem_map_of_mem hx)
    omega

/-- What the reader got: in order, wanted, issued, and not beyond the cursor. -/
structure Sent (key : α → ℕ) (wanted : α → Prop) (start : ℕ) (s : Reader α) : Prop where
  sorted : (s.issued.map key).Pairwise (· < ·)
  start_le : start ≤ s.since
  sent_sorted : (s.sent.map key).Pairwise (· < ·)
  sent_mem : ∀ x ∈ s.sent, x ∈ s.issued ∧ wanted x ∧ start < key x ∧ key x ≤ s.since

/-- The cursor after a poll: behind everything that the poll returned. -/
theorem Step.poll_since {s : Reader α} {batch : List α} (hbatch : batch <+: s.pending key wanted)
    (hsorted : (s.issued.map key).Pairwise (· < ·)) :
    s.since ≤ (batch.getLast?.map key).getD s.since ∧
      ∀ x ∈ batch, key x ≤ (batch.getLast?.map key).getD s.since := by
  have hpending : ((s.pending key wanted).map key).Pairwise (· < ·) :=
    hsorted.sublist (List.filter_sublist.map key)
  have hbsorted := hpending.sublist (hbatch.sublist.map key)
  cases hlast : batch.getLast? with
  | none =>
    rw [List.getLast?_eq_none_iff] at hlast
    simp [hlast]
  | some y =>
    obtain ⟨ys, rfl⟩ := List.getLast?_eq_some_iff.mp hlast
    have hy : y ∈ s.pending key wanted := hbatch.subset (by simp)
    refine ⟨(mem_pending.mp hy).2.2.1.le, fun x hx => ?_⟩
    rcases List.mem_append.mp hx with hx | hx
    · rw [List.map_append, List.pairwise_append] at hbsorted
      exact (hbsorted.2.2 (key x) (List.mem_map_of_mem hx) (key y) (by simp)).le
    · rw [List.mem_singleton.mp hx]
      exact le_refl _

theorem Step.sent {start : ℕ} {s s' : Reader α} (hstep : Step key wanted s s')
    (h : Sent key wanted start s) : Sent key wanted start s' := by
  cases hstep with
  | log new hissued hsorted hnew hfirst hsince hsent =>
    refine ⟨hsorted, by rw [hsince]; exact h.start_le, by rw [hsent]; exact h.sent_sorted, ?_⟩
    rw [hsent, hsince, hissued]
    intro x hx
    obtain ⟨hmem, hrest⟩ := h.sent_mem x hx
    exact ⟨List.mem_append_left _ hmem, hrest⟩
  | poll batch hbatch hissued hfirst hsince hsent =>
    obtain ⟨hle, hall⟩ := Step.poll_since hbatch h.sorted
    have hpending : ((s.pending key wanted).map key).Pairwise (· < ·) :=
      h.sorted.sublist (List.filter_sublist.map key)
    refine ⟨by rw [hissued]; exact h.sorted, by rw [hsince]; exact h.start_le.trans hle, ?_, ?_⟩
    · rw [hsent, List.map_append, List.pairwise_append]
      refine ⟨h.sent_sorted, hpending.sublist (hbatch.sublist.map key), fun a ha b hb => ?_⟩
      -- What was sent is not beyond the cursor, what is sent now is.
      obtain ⟨x, hx, rfl⟩ := List.mem_map.mp ha
      obtain ⟨y, hy, rfl⟩ := List.mem_map.mp hb
      exact (h.sent_mem x hx).2.2.2.trans_lt (mem_pending.mp (hbatch.subset hy)).2.2.1
    · rw [hsent, hsince, hissued]
      intro x hx
      rcases List.mem_append.mp hx with hx | hx
      · obtain ⟨hmem, hwant, hstart, hsince'⟩ := h.sent_mem x hx
        exact ⟨hmem, hwant, hstart, hsince'.trans hle⟩
      · obtain ⟨hmem, -, hlt, hwant⟩ := mem_pending.mp (hbatch.subset hx)
        exact ⟨hmem, hwant, h.start_le.trans_lt hlt, hall x hx⟩

/-- Where a wanted entry is after `n` steps: it was sent, it waits, or at some time it was
    dropped with the cursor before it. -/
def Placed (key : α → ℕ) (f : ℕ → Reader α) (n : ℕ) (x : α) : Prop :=
  x ∈ (f n).sent ∨ ((f n).since < key x ∧ (f n).first ≤ key x) ∨
    ∃ i ≤ n, (f i).since < key x ∧ key x < (f i).first

theorem Placed.step {start : ℕ} {f : ℕ → Reader α} {n : ℕ} {x : α}
    (hstep : Step key wanted (f n) (f (n + 1))) (hsent : Sent key wanted start (f n))
    (hwant : wanted x) (hx : x ∈ (f n).issued) (h : Placed key f n x) : Placed key f (n + 1) x := by
  rcases h with h | ⟨hlt, hle⟩ | ⟨i, hi, hlost⟩
  · left
    cases hstep with
    | log new _ _ _ _ _ hs => rwa [hs]
    | poll batch _ _ _ _ hs => exact hs ▸ List.mem_append_left _ h
  · cases hstep with
    | log new _ _ _ hfirst hsince _ =>
      by_cases hkept : (f (n + 1)).first ≤ key x
      · exact .inr (.inl ⟨by rwa [hsince], hkept⟩)
      · exact .inr (.inr ⟨n + 1, le_refl _, by rwa [hsince], by omega⟩)
    | poll batch hbatch hissued hfirst hsince hs =>
      by_cases hpassed : (f (n + 1)).since < key x
      · exact .inr (.inl ⟨hpassed, by rwa [hfirst]⟩)
      · -- The cursor has moved past it, so the batch goes beyond it.
        left
        have hpending : x ∈ (f n).pending key wanted := mem_pending.mpr ⟨hx, hle, hlt, hwant⟩
        have hsorted : (((f n).pending key wanted).map key).Pairwise (· < ·) :=
          hsent.sorted.sublist (List.filter_sublist.map key)
        rw [hsince] at hpassed
        cases hlast : batch.getLast? with
        | none =>
          rw [hlast] at hpassed
          exact absurd hlt hpassed
        | some y =>
          rw [hlast] at hpassed
          have hmem := mem_of_prefix_of_le hbatch hsorted (List.mem_of_getLast? hlast) hpending
            (by simpa using hpassed)
          exact hs ▸ List.mem_append_right _ hmem
  · exact .inr (.inr ⟨i, by omega, hlost⟩)

variable (key wanted) in
/-- **The account of a reader.** After any run every wanted entry beyond the start was sent,
    waits, or was dropped before the cursor got there; and what was sent was sent once and in
    order. -/
theorem accounted {f : ℕ → Reader α} {n : ℕ} (hstep : ∀ i < n, Step key wanted (f i) (f (i + 1)))
    (hsorted : ((f 0).issued.map key).Pairwise (· < ·)) (hnone : (f 0).sent = []) :
    Sent key wanted (f 0).since (f n) ∧
      ∀ x ∈ (f n).issued, wanted x → (f 0).since < key x → Placed key f n x := by
  induction n with
  | zero =>
    refine ⟨⟨hsorted, le_refl _, by simp [hnone], by simp [hnone]⟩, fun x _ _ hlt => ?_⟩
    by_cases hkept : (f 0).first ≤ key x
    · exact .inr (.inl ⟨hlt, hkept⟩)
    · exact .inr (.inr ⟨0, le_refl _, hlt, by omega⟩)
  | succ n ih =>
    obtain ⟨hsent, hplaced⟩ := ih fun i hi => hstep i (by omega)
    have hlast := hstep n (by omega)
    refine ⟨hlast.sent hsent, fun x hx hwant hstart => ?_⟩
    by_cases hold : x ∈ (f n).issued
    · exact (hplaced x hold hwant hstart).step hlast hsent hwant hold
    · -- A new entry is in front of the cursor.
      cases hlast with
      | log new hissued _ hnew _ hsince _ =>
        have hlt : (f (n + 1)).since < key x := by
          rw [hissued] at hx
          rw [hsince]
          exact hnew x ((List.mem_append.mp hx).resolve_left hold)
        by_cases hkept : (f (n + 1)).first ≤ key x
        · exact .inr (.inl ⟨hlt, hkept⟩)
        · exact .inr (.inr ⟨n + 1, le_refl _, hlt, by omega⟩)
      | poll batch _ hissued => exact absurd (hissued ▸ hx) hold

end Cursor
