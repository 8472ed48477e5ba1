import Fountainer.Logging.ReadSince

/-!
# Seek equals filter

An iteration that seeks first shows what a plain iteration shows behind the cursor. Seeking
walks over the records with its own copy of the steps of the iteration and stops at the
position behind a gap, where the iteration may stand before it; from both the next step
finds the same record. The rings are those that pushes and clears reach, of any capacity:
a push that ends had room for its record.
-/

namespace Fountainer.Logging

open Bytes

namespace LogRing

/-- The records that an iteration shows after a seek. -/
def contentsSince (r : LogRing) (sinceSeq : UInt32) : Option (List LogView) := do
  let it ← r.logRingIterSeek (r.count.toNat + 1) r.logRingIterBegin sinceSeq
  r.iterate (r.count.toNat + 1) it

/-- The record found at a position, behind a gap, stands where it was found. -/
theorem recordAt_found {r : LogRing} {pos p : UInt16} {size : UInt8}
    (h : r.recordAt pos = some (some (p, size))) : r.recordAt p = some (some (p, size)) := by
  unfold recordAt at h
  split_ifs at h with hpos
  · simp at h
  simp only [Option.bind_eq_bind, Option.bind_eq_some_iff] at h
  obtain ⟨marker, -, size', hsize, h⟩ := h
  generalize (if marker = 0 then (0 : UInt16) else pos) = q at hsize h
  split_ifs at h with hrange hfit
  · simp at h
  · simp at h
  simp only [Option.some.injEq, Prod.mk.injEq] at h
  obtain ⟨rfl, rfl⟩ := h
  have hne : size' ≠ 0 := by
    intro hz
    rw [hz] at hrange
    exact hrange (.inl (by decide))
  have hlt : ¬ q ≥ r.capacity := by
    intro hge
    have := UInt16.le_iff_toNat_le.mp hge
    simp only [load] at hsize
    split_ifs at hsize with hin
    omega
  rw [recordAt, if_neg hlt, hsize]
  simp only [Option.bind_eq_bind, Option.bind_some, if_neg hne, hsize, if_neg hrange, if_neg hfit]

theorem shows_numbers {r : LogRing} {views : List LogView} {recs : List LogRecord}
    (h : List.Forall₂ (LogView.Shows r) views recs) :
    (views.map fun v => v.seq.toNat) = recs.map fun x => x.seq.toNat := by
  induction h with
  | nil => rfl
  | cons hshow _ ih => rw [List.map_cons, List.map_cons, ih, hshow.seq]

/-- **Seeking and iterating** from one position: the seek stops before the first record
    behind the cursor that the iteration shows. -/
theorem seek_iterate {r : LogRing} {recs : List LogRecord} {it : LogIter} (h : r.Before it recs)
    (sinceSeq : UInt32) :
    ∃ views it', List.Forall₂ (LogView.Shows r) views recs ∧
      (∀ fuel, recs.length < fuel → r.logRingIterSeek fuel it sinceSeq = some it') ∧
      (∀ fuel, recs.length < fuel → r.iterate fuel it = some views) ∧
      ∀ fuel, recs.length < fuel →
        r.iterate fuel it' = some (views.dropWhile fun v => v.seq ≤ sinceSeq) := by
  induction recs generalizing it with
  | nil =>
    have hstop (fuel : ℕ) (hfuel : 0 < fuel) : r.iterate fuel it = some [] := by
      obtain ⟨fuel, rfl⟩ := Nat.exists_eq_add_of_lt hfuel
      simp [iterate, logRingIterNext, h.remaining_eq_zero]
    refine ⟨[], it, .nil, fun fuel hfuel => ?_, hstop, hstop⟩
    obtain ⟨fuel, rfl⟩ := Nat.exists_eq_add_of_lt hfuel
    simp [logRingIterSeek, h.remaining_eq_zero]
  | cons x recs ih =>
    obtain ⟨hne, p, size, hrec, hholds, hfit, -, hnext⟩ := h.next
    obtain ⟨views, it', hshows, hseek, hiter, hrest⟩ := ih hnext
    have hseq := loadSeq_eq hholds hfit
    have hview : r.viewAt p.toNat = some (x.entry.view x.seq p.toNat) :=
      viewAt_eq hholds (by simpa [LogRecord.bytes] using hfit)
    have hshow := shows_view hholds hfit
    have hstep (pos : UInt16) (hpos : r.recordAt pos = some (some (p, size))) (fuel : ℕ)
        (hfuel : (x :: recs).length < fuel) :
        r.iterate fuel { it with pos := pos } = some (x.entry.view x.seq p.toNat :: views) := by
      obtain ⟨fuel, rfl⟩ : ∃ k, fuel = k + 1 := ⟨fuel - 1, by omega⟩
      rw [List.length_cons] at hfuel
      simp [iterate, logRingIterNext, hne, hpos, hview, hiter fuel (by omega)]
    by_cases hlt : x.seq > sinceSeq
    · refine ⟨_, { it with pos := p }, .cons hshow hshows, fun fuel hfuel => ?_, hstep it.pos hrec,
        fun fuel hfuel => ?_⟩
      · obtain ⟨fuel, rfl⟩ : ∃ k, fuel = k + 1 := ⟨fuel - 1, by omega⟩
        simp [logRingIterSeek, hne, hrec, hseq, hlt]
      · rw [hstep p (recordAt_found hrec) fuel hfuel,
          List.dropWhile_cons_of_neg (by simpa [hshow.seq] using hlt)]
    · refine ⟨_, it', .cons hshow hshows, fun fuel hfuel => ?_, hstep it.pos hrec,
        fun fuel hfuel => ?_⟩
      · obtain ⟨fuel, rfl⟩ : ∃ k, fuel = k + 1 := ⟨fuel - 1, by omega⟩
        rw [List.length_cons] at hfuel
        simp [logRingIterSeek, hne, hrec, hseq, hlt, hseek fuel (by omega)]
      · rw [List.length_cons] at hfuel
        rw [hrest fuel (by omega), List.dropWhile_cons_of_pos (by simpa [hshow.seq] using hlt)]

-- ════════════════════════════════════════════════════════════════════════
-- Reachable rings
-- ════════════════════════════════════════════════════════════════════════

/-- The ring holds records with ascending numbers, after `pushes` pushes. -/
structure Ascending (r : LogRing) (pushes : ℕ) (recs : List LogRecord) : Prop where
  placed : r.Placed (recs.map LogRecord.bytes)
  sorted : (recs.map fun x => x.seq.toNat).Pairwise (· < ·)
  le_pushes : ∀ x ∈ recs, x.seq.toNat ≤ pushes
  nextSeq_eq : r.nextSeq.toNat = pushes + 1

theorem Placed.used_le {r : LogRing} {cells : List (List UInt8)} (h : r.Placed cells) :
    r.used.toNat ≤ r.capacity.toNat := by
  rcases h.shape with hs | ⟨lo, hi, -, -, hw⟩
  · have hused := hs.used_eq
    have hhead := hs.head_eq
    have hlt := hs.head_lt
    omega
  · have hused := hw.used_eq
    have hle := hw.head_le
    have hlt := hw.tail_lt
    omega

/-- A record that does not fit into an empty ring never finds room. -/
theorem makeRoom_tooLarge {fuel : ℕ} {r : LogRing} {cells : List (List UInt8)} {needed : UInt16}
    (h : r.Placed cells) (hlarge : r.capacity.toNat < needed.toNat) :
    makeRoom fuel r needed = none := by
  induction fuel generalizing r cells with
  | zero => rfl
  | succ fuel ih =>
    have hused := h.used_le
    have hfull : r.capacity - r.used < needed := by
      rw [UInt16.lt_iff_toNat_lt, toNat_u16_sub hused]
      omega
    rw [makeRoom]
    simp only [hfull, if_true]
    cases cells with
    | nil =>
      have hcount : r.count = 0 := UInt16.toNat_inj.mp h.count_eq
      simp [discardOldest, hcount, ih h hlarge]
    | cons c cs =>
      obtain ⟨s, hs, hplaced, hone⟩ := discardOldest_placed h
      simp [hs, ih hplaced (by rw [hone.capacity_eq]; exact hlarge)]

/-- A push that ends adds a record with the next number. -/
theorem Ascending.push {r r' : LogRing} {pushes : ℕ} {recs : List LogRecord}
    (h : r.Ascending pushes recs) {e : LogEntry} (hpush : r.call (.push e) = some r')
    (hlt : pushes + 2 < 2 ^ 32) : ∃ recs', r'.Ascending (pushes + 1) recs' := by
  have hroom : e.needed.toNat ≤ r.capacity.toNat := by
    by_contra hlarge
    have hnone : makeRoom (r.count.toNat + 1) r e.needed = none :=
      makeRoom_tooLarge h.placed (not_le.mp hlarge)
    simp [LogRing.call, logRingPush, hnone] at hpush
  obtain ⟨k, r'', -, hpushed, hplaced, -, hnext, -⟩ := logRingPush_placed h.placed e hroom
  obtain rfl : r'' = r' := by simpa [LogRing.call, hpushed] using hpush
  have hseq := h.nextSeq_eq
  refine ⟨recs.drop k ++ [⟨e, r.nextSeq⟩], ?_, ?_, ?_, ?_⟩
  · simpa [← List.map_drop, LogRecord.bytes] using hplaced
  · rw [List.map_append, List.pairwise_append]
    refine ⟨h.sorted.sublist ((List.drop_sublist _ _).map _), List.pairwise_singleton _ _, ?_⟩
    intro a ha b hb
    obtain ⟨x, hx, rfl⟩ := List.mem_map.mp ha
    have hle := h.le_pushes x (List.mem_of_mem_drop hx)
    obtain rfl : b = r.nextSeq.toNat := by simpa using hb
    omega
  · intro x hx
    rcases List.mem_append.mp hx with hx | hx
    · exact (h.le_pushes x (List.mem_of_mem_drop hx)).trans (Nat.le_succ _)
    · obtain rfl := List.mem_singleton.mp hx
      exact hseq.le
  · rw [hnext, UInt32.toNat_add, hseq, UInt32.toNat_one]
    omega

/-- A ring without a buffer takes no record. -/
theorem push_noBuffer {r : LogRing} (hcap : r.capacity = 0) (hcount : r.count = 0)
    (hused : r.used = 0) (e : LogEntry) : r.call (.push e) = none := by
  have hpos : (0 : UInt16) < e.needed := by
    have := e.needed_ge
    rw [UInt16.lt_iff_toNat_lt, UInt16.toNat_zero]
    omega
  simp [LogRing.call, logRingPush, makeRoom, hcap, hcount, hused, hpos, discardOldest]

end LogRing

/-- A ring that pushes and clears reach holds ascending records, or has no buffer at all. -/
theorem logRun_ascending {buf : Mem} {capacity : UInt16} {calls : List LogCall} {r : LogRing}
    (hrun : logRun buf capacity calls = some r) (hpushes : (logHistory calls).pushes < 2 ^ 32 - 1) :
    (∃ recs, r.Ascending (logHistory calls).pushes recs) ∨
      r.capacity = 0 ∧ r.count = 0 ∧ r.used = 0 := by
  induction calls using List.reverseRecOn generalizing r with
  | nil =>
    obtain rfl := Option.some.inj hrun
    by_cases hcap : capacity = 0
    · exact .inr ⟨hcap, rfl, rfl⟩
    · have hpos : 0 < capacity.toNat :=
        Nat.pos_of_ne_zero fun hz => hcap (UInt16.toNat_inj.mp hz)
      exact .inl ⟨[], LogRing.placed_init buf capacity hpos, .nil, by simp, rfl⟩
  | append_singleton calls c ih =>
    rw [logRun_concat, Option.bind_eq_some_iff] at hrun
    obtain ⟨s, hs, hcall⟩ := hrun
    rw [logHistory_concat] at hpushes ⊢
    have hmono := LogHistory.pushes_le_call (logHistory calls) c
    rcases ih hs (by omega) with ⟨recs, hasc⟩ | ⟨hcap, hcount, hused⟩
    · cases c with
      | push e =>
        have hsucc : ((logHistory calls).call (.push e)).pushes =
          (logHistory calls).pushes + 1 := rfl
        exact .inl (hasc.push hcall (by omega))
      | clear =>
        obtain rfl := Option.some.inj hcall
        have hpos : 0 < s.capacity.toNat := by
          have := hasc.placed.reads
          obtain ⟨lo, hi, -, hreads⟩ := this
          have := hreads.pos_lt
          omega
        exact .inl ⟨[], LogRing.placed_clear s hpos, .nil, by simp, hasc.nextSeq_eq⟩
    · cases c with
      | push e => rw [LogRing.push_noBuffer hcap hcount hused e] at hcall; cases hcall
      | clear =>
        obtain rfl := Option.some.inj hcall
        exact .inr ⟨hcap, rfl, rfl⟩

/-- **Seek equals filter.** For every ring that fewer than `2 ^ 32 - 1` pushes and any clears
    reach, and every cursor, an iteration after a seek shows the records that a plain
    iteration shows with a number behind the cursor, in the same order. -/
theorem seek_eq_filter (buf : Mem) (capacity : UInt16) (calls : List LogCall) (r : LogRing)
    (hrun : logRun buf capacity calls = some r) (hpushes : (logHistory calls).pushes < 2 ^ 32 - 1)
    (sinceSeq : UInt32) :
    ∃ views, r.contents = some views ∧
      r.contentsSince sinceSeq = some (views.filter fun v => sinceSeq < v.seq) := by
  rcases logRun_ascending hrun hpushes with ⟨recs, hasc⟩ | ⟨-, hcount, -⟩
  · have hcount : r.count.toNat = recs.length := by rw [hasc.placed.count_eq, List.length_map]
    obtain ⟨views, it, hshows, hseek, hiter, hrest⟩ :=
      LogRing.seek_iterate hasc.placed.before sinceSeq
    have hsorted := hasc.sorted
    rw [← LogRing.shows_numbers hshows] at hsorted
    refine ⟨views, hiter _ (by omega), ?_⟩
    rw [LogRing.contentsSince, hseek _ (by omega), ← LogRing.dropWhile_eq_filter sinceSeq hsorted]
    exact hrest _ (by omega)
  · refine ⟨[], ?_, ?_⟩
    · simp [LogRing.contents, LogRing.iterate, LogRing.logRingIterNext,
        LogRing.logRingIterBegin, hcount]
    · simp [LogRing.contentsSince, LogRing.logRingIterSeek, LogRing.iterate,
        LogRing.logRingIterNext, LogRing.logRingIterBegin, hcount]

/-- Three pushes into a ring that holds two records, read behind the second number. -/
theorem seek_eq_filter_evicted :
    ∃ r views,
      logRun (fun _ => 0) 40 [.push startEntry, .push startEntry, .push startEntry] = some r ∧
        r.contents = some views ∧ r.contentsSince 2 = some (views.filter fun v => 2 < v.seq) := by
  have hsome : (logRun (fun _ => 0) 40
      [.push startEntry, .push startEntry, .push startEntry]).isSome = true := by decide +kernel
  obtain ⟨r, hrun⟩ := Option.isSome_iff_exists.mp hsome
  obtain ⟨views, hcontents, hseek⟩ := seek_eq_filter _ _ _ r hrun (by decide) 2
  exact ⟨r, views, hrun, hcontents, hseek⟩

end Fountainer.Logging
