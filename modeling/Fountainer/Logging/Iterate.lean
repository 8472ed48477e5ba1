import Fountainer.Logging.Layout

/-!
# Iteration

An iteration walks the records from the tail on, over a wrap gap if there is one.
`Reads` says what still stands in front of it.
-/

namespace Fountainer.Logging

open Bytes

/-- An entry with the sequence number it was given. -/
structure LogRecord where
  entry : LogEntry
  seq : UInt32

namespace LogRecord

/-- The bytes of the record. -/
def bytes (x : LogRecord) : List UInt8 := x.entry.encode x.seq

theorem isCell_bytes (x : LogRecord) : IsCell x.bytes := x.entry.isCell_encode x.seq

end LogRecord

/-- The view `v` into the ring `r` shows what was pushed: at most four arguments, and
    the text cut to 47 characters, with a flag that says whether it was cut. -/
structure LogView.Shows (r : LogRing) (v : LogView) (x : LogRecord) : Prop where
  level : v.level = x.entry.level
  module : v.module = x.entry.module
  eventId : v.eventId = x.entry.eventId
  seq : v.seq = x.seq
  uptimeMs : v.uptimeMs = x.entry.uptimeMs
  argc : v.argc.toNat = if x.entry.args.isSome then min x.entry.argc.toNat 4 else 0
  args : ∀ i : Fin logRingMaxArgs,
    v.args i = if (i : ℕ) < v.argc.toNat then x.entry.arg i else 0
  text : r.textOf v = some (x.entry.chars.take 47)
  truncated : v.flags &&& logRingFlagTruncated ≠ 0 ↔ 47 < x.entry.chars.length

namespace LogEntry

theorem argCount_eq (e : LogEntry) :
    e.argCount.toNat = if e.args.isSome then min e.argc.toNat 4 else 0 := by
  simp only [argCount]
  cases hargs : e.args with
  | none => simp
  | some args =>
    simp only [Option.isNone_some, Bool.false_eq_true, if_false, Option.isSome_some, if_true]
    split_ifs with hmany
    · have := UInt8.lt_iff_toNat_lt.mp hmany
      simp at this ⊢
      omega
    · have := UInt8.le_iff_toNat_le.mp (UInt8.not_lt.mp hmany)
      simp at this
      omega

theorem keptText_eq (e : LogEntry) : e.keptText = e.chars.take 47 := by
  unfold keptText textLen
  by_cases hlong : e.tooLong = true
  · rw [if_pos hlong]
  · have hle : e.chars.length ≤ 47 := by simpa [tooLong] using hlong
    rw [if_neg hlong, List.take_of_length_le hle, List.take_of_length_le (le_refl _)]

theorem flags_truncated (e : LogEntry) :
    e.flags &&& logRingFlagTruncated ≠ 0 ↔ 47 < e.chars.length := by
  have key : ∀ n : Fin 5, (UInt8.ofNat n ||| logRingFlagTruncated) &&& logRingFlagTruncated ≠ 0 ∧
      UInt8.ofNat n &&& logRingFlagTruncated = 0 := by decide
  have hc : e.argCount = UInt8.ofNat e.argCount.toNat := by simp
  have hk := key ⟨e.argCount.toNat, Nat.lt_succ_of_le e.argCount_le⟩
  simp only [← hc] at hk
  simp only [flags, tooLong, decide_eq_true_eq]
  split_ifs with hlong
  · exact ⟨fun _ => hlong, fun _ => hk.1⟩
  · exact ⟨fun h => absurd hk.2 h, fun h => absurd h hlong⟩

end LogEntry

namespace LogRing

/-- A view of a stored record shows it. -/
theorem shows_view {r : LogRing} {x : LogRecord} {p : ℕ} (h : Holds r.buf p x.bytes)
    (hfit : p + x.bytes.length ≤ r.capacity.toNat) :
    (x.entry.view x.seq p).Shows r x where
  level := rfl
  module := rfl
  eventId := rfl
  seq := rfl
  uptimeMs := rfl
  argc := x.entry.argCount_eq
  args := fun _ => rfl
  text := by
    rw [← x.entry.keptText_eq]
    exact textOf_view h (by simpa [LogRecord.bytes] using hfit)
  truncated := x.entry.flags_truncated

/-- From `pos` on an iteration finds the records `lo`, and then, from the start of the
    buffer, the records `hi`. -/
structure Reads (r : LogRing) (pos : UInt16) (lo hi : List (List UInt8)) : Prop where
  pos_lt : pos.toNat < r.capacity.toNat
  lo_fits : pos.toNat + lo.flatten.length ≤ r.capacity.toNat
  gap : hi ≠ [] → pos.toNat + lo.flatten.length < r.capacity.toNat →
    r.buf (pos.toNat + lo.flatten.length) = 0
  hi_fits : hi.flatten.length ≤ r.capacity.toNat
  holds_lo : Holds r.buf pos.toNat lo.flatten
  holds_hi : Holds r.buf 0 hi.flatten

theorem Placed.reads {r : LogRing} {cells : List (List UInt8)} (h : r.Placed cells) :
    ∃ lo hi, cells = lo ++ hi ∧ r.Reads r.tail lo hi := by
  rcases h.shape with hs | ⟨lo, hi, hsplit, -, hw⟩
  · have hheq := hs.head_eq
    have hlt := hs.head_lt
    exact ⟨cells, [], by simp, by omega, by omega, by simp, by simp, hs.holds, holds_nil _ _⟩
  · have hheq := hw.head_eq
    have hle := hw.head_le
    have hlt := hw.tail_lt
    exact ⟨lo, hi, hsplit, hlt, hw.lo_fits, fun _ => hw.gap, by omega, hw.holds_lo, hw.holds_hi⟩

theorem nextPos_toNat {r : LogRing} {p : UInt16} {size : UInt8}
    (h : p.toNat + size.toNat ≤ r.capacity.toNat) :
    (r.nextPos p size).toNat =
      if p.toNat + size.toNat = r.capacity.toNat then 0 else p.toNat + size.toNat := by
  have hcap := r.capacity.toNat_lt
  have hsum : (p + size.toUInt16).toNat = p.toNat + size.toNat := by
    rw [toNat_u16_add (by rw [UInt8.toNat_toUInt16]; omega), UInt8.toNat_toUInt16]
  have hend : p + size.toUInt16 = r.capacity ↔ p.toNat + size.toNat = r.capacity.toNat := by
    rw [← UInt16.toNat_inj, hsum]
  simp only [nextPos, hend]
  split_ifs
  · rfl
  · exact hsum

/-- Behind the record `c` at `p` the iteration finds `lo` and then `hi`. -/
theorem reads_nextPos {r : LogRing} {p : UInt16} {size : UInt8} {c : List UInt8}
    {lo hi : List (List UInt8)} (hlo : ∀ d ∈ lo, IsCell d) (hcell : IsCell c)
    (hsize : size.toNat = c.length)
    (hfits : p.toNat + (c.length + lo.flatten.length) ≤ r.capacity.toNat)
    (hgap : hi ≠ [] → p.toNat + (c.length + lo.flatten.length) < r.capacity.toNat →
      r.buf (p.toNat + (c.length + lo.flatten.length)) = 0)
    (hhi : hi.flatten.length ≤ r.capacity.toNat)
    (hholds : Holds r.buf p.toNat (c ++ lo.flatten)) (hholds' : Holds r.buf 0 hi.flatten) :
    ∃ lo' hi', lo ++ hi = lo' ++ hi' ∧ r.Reads (r.nextPos p size) lo' hi' := by
  have hge := hcell.size_ge
  have hfits : p.toNat + size.toNat ≤ r.capacity.toNat := by omega
  have hnext := nextPos_toNat hfits
  rw [hsize] at hnext
  by_cases hend : p.toNat + c.length = r.capacity.toNat
  · -- The record ends the buffer, so nothing stands behind it.
    rw [if_pos hend] at hnext
    have hnil : lo = [] := by
      by_contra hne
      have := flatten_length_pos hlo hne
      omega
    subst hnil
    refine ⟨hi, [], by simp, by omega, by omega, by simp, by simp, ?_, holds_nil _ _⟩
    rw [hnext]
    exact hholds'
  · rw [if_neg hend] at hnext
    refine ⟨lo, hi, rfl, by omega, by omega, ?_, hhi, ?_, hholds'⟩
    · rw [hnext, Nat.add_assoc]
      exact hgap
    · rw [hnext]
      exact (holds_append.mp hholds).2

/-- **One step** finds the next record, wherever it stands. -/
theorem recordAt_reads {r : LogRing} {pos : UInt16} {lo hi cs : List (List UInt8)}
    {c : List UInt8} (h : r.Reads pos lo hi) (hcell : ∀ d ∈ c :: cs, IsCell d)
    (hsplit : c :: cs = lo ++ hi) :
    ∃ p size, r.recordAt pos = some (some (p, size)) ∧ Holds r.buf p.toNat c ∧
      p.toNat + c.length ≤ r.capacity.toNat ∧
      (∃ lo' hi', c :: cs = lo' ++ hi' ∧ r.Reads p lo' hi') ∧
      ∃ lo' hi', cs = lo' ++ hi' ∧ r.Reads (r.nextPos p size) lo' hi' := by
  have hc : IsCell c := hcell c (by simp)
  have hge := hc.size_ge
  have hle := hc.size_le
  have hlt := h.pos_lt
  have hcap : ¬ pos ≥ r.capacity := by
    rw [ge_iff_le, UInt16.le_iff_toNat_le]
    omega
  cases lo with
  | nil =>
    -- The iteration stands at the gap; the record is at the start of the buffer.
    obtain rfl : hi = c :: cs := hsplit.symm
    have hhi := h.hi_fits
    have hholds := h.holds_hi
    rw [List.flatten_cons] at hholds
    rw [List.flatten_cons, List.length_append] at hhi
    have hsize := size_of_holds hc hholds
    have hmarker : r.buf pos.toNat = 0 := by
      simpa using h.gap (by simp) (by simpa using hlt)
    have h0 : 0 < r.capacity.toNat := by omega
    refine ⟨0, r.buf 0, ?_, (holds_append.mp hholds).1, by simp; omega, ?_, ?_⟩
    · simp only [recordAt, hcap, if_false, load, hlt, if_true, hmarker, Option.bind_eq_bind,
        Option.bind_some, UInt16.toNat_zero, h0, hsize]
      rw [if_neg (by simp only [logRingRecordMin, logRingRecordMax, logRingHdrSize, logRingMaxArgs,
        logRingMaxText]; omega), if_neg (by omega)]
    · exact ⟨c :: cs, [], by simp, h0, by simpa using hhi, by simp, by simp, by simpa using hholds,
        holds_nil _ _⟩
    · have hcs : ∀ d ∈ cs, IsCell d := fun d hd => hcell d (by simp [hd])
      have := @reads_nextPos r 0 _ _ cs [] hcs hc hsize (by simpa using hhi) (by simp) (by simp)
        (by simpa using hholds) (holds_nil _ _)
      simpa using this
  | cons d lo =>
    obtain ⟨rfl, rfl⟩ : c = d ∧ cs = lo ++ hi := by simpa using hsplit
    have hfits := h.lo_fits
    have hgap := h.gap
    have hholds := h.holds_lo
    rw [List.flatten_cons] at hholds
    rw [List.flatten_cons, List.length_append] at hfits hgap
    have hsize := size_of_holds hc hholds
    have hmarker : r.buf pos.toNat ≠ 0 := by
      intro hz
      rw [hz] at hsize
      simp at hsize
      omega
    refine ⟨pos, r.buf pos.toNat, ?_,
      (holds_append.mp hholds).1, by omega, ⟨c :: lo, hi, rfl, h⟩, ?_⟩
    · simp only [recordAt, hcap, if_false, load, hlt, if_true, hmarker, Option.bind_eq_bind,
        Option.bind_some, hsize]
      rw [if_neg (by simp only [logRingRecordMin, logRingRecordMax, logRingHdrSize, logRingMaxArgs,
        logRingMaxText]; omega), if_neg (by omega)]
    · exact reads_nextPos (fun d hd => hcell d (by simp [hd])) hc hsize hfits hgap h.hi_fits hholds
        h.holds_hi

/-- The iteration stands before the records `recs`. -/
def Before (r : LogRing) (it : LogIter) (recs : List LogRecord) : Prop :=
  it.remaining.toNat = recs.length ∧
    ∃ lo hi, recs.map LogRecord.bytes = lo ++ hi ∧ r.Reads it.pos lo hi

theorem Placed.before {r : LogRing} {recs : List LogRecord}
    (h : r.Placed (recs.map LogRecord.bytes)) :
    r.Before r.logRingIterBegin recs := by
  obtain ⟨lo, hi, hsplit, hreads⟩ := h.reads
  refine ⟨?_, lo, hi, hsplit, hreads⟩
  rw [← List.length_map LogRecord.bytes, ← h.count_eq]
  rfl

theorem Before.remaining_eq_zero {r : LogRing} {it : LogIter} (h : r.Before it []) :
    it.remaining = 0 :=
  UInt16.toNat_inj.mp h.1

/-- The next record of an iteration: where it stands, and what is in front of it after. -/
theorem Before.next {r : LogRing} {it : LogIter} {x : LogRecord} {recs : List LogRecord}
    (h : r.Before it (x :: recs)) :
    it.remaining ≠ 0 ∧ ∃ p size, r.recordAt it.pos = some (some (p, size)) ∧
      Holds r.buf p.toNat x.bytes ∧ p.toNat + x.bytes.length ≤ r.capacity.toNat ∧
      r.Before { it with pos := p } (x :: recs) ∧
      r.Before { pos := r.nextPos p size, remaining := it.remaining - 1 } recs := by
  obtain ⟨hrem, lo, hi, hsplit, hreads⟩ := h
  rw [List.map_cons] at hsplit
  have hcell : ∀ d ∈ x.bytes :: recs.map LogRecord.bytes, IsCell d := by
    intro d hd
    rw [← List.map_cons] at hd
    obtain ⟨y, -, rfl⟩ := List.mem_map.mp hd
    exact y.isCell_bytes
  obtain ⟨p, size, hrec, hholds, hfit, hat, lo', hi', hsplit', hreads'⟩ :=
    recordAt_reads hreads hcell hsplit
  have hne : it.remaining ≠ 0 := by
    intro hz
    rw [hz] at hrem
    simp at hrem
  have hlen : (it.remaining - 1).toNat = recs.length := by
    rw [toNat_u16_sub (by rw [hrem]; simp), hrem]
    simp
  exact ⟨hne, p, size, hrec, hholds, hfit, ⟨hrem, hat⟩, hlen, lo', hi', hsplit', hreads'⟩

/-- **Iteration** shows the records in front of it, in order, and ends. -/
theorem iterate_before {r : LogRing} {recs : List LogRecord} {it : LogIter} {fuel : ℕ}
    (h : r.Before it recs) (hfuel : recs.length < fuel) :
    ∃ views, r.iterate fuel it = some views ∧ List.Forall₂ (LogView.Shows r) views recs := by
  induction recs generalizing it fuel with
  | nil =>
    obtain ⟨fuel, rfl⟩ : ∃ k, fuel = k + 1 := ⟨fuel - 1, by omega⟩
    exact ⟨[], by simp [iterate, logRingIterNext, h.remaining_eq_zero], .nil⟩
  | cons x recs ih =>
    obtain ⟨fuel, rfl⟩ : ∃ k, fuel = k + 1 := ⟨fuel - 1, by omega⟩
    obtain ⟨hne, p, size, hrec, hholds, hfit, -, hnext⟩ := h.next
    rw [List.length_cons] at hfuel
    obtain ⟨views, hviews, hall⟩ := ih hnext (by omega : recs.length < fuel)
    have hview : r.viewAt p.toNat = some (x.entry.view x.seq p.toNat) :=
      viewAt_eq hholds (by simpa [LogRecord.bytes] using hfit)
    refine ⟨x.entry.view x.seq p.toNat :: views, ?_, .cons (shows_view hholds hfit) hall⟩
    simp [iterate, logRingIterNext, hne, hrec, hview, hviews]

/-- A full iteration shows exactly the records of the ring. -/
theorem contents_placed {r : LogRing} {recs : List LogRecord}
    (h : r.Placed (recs.map LogRecord.bytes)) :
    ∃ views, r.contents = some views ∧ List.Forall₂ (LogView.Shows r) views recs := by
  have hcount : r.count.toNat = recs.length := by rw [h.count_eq, List.length_map]
  exact iterate_before h.before (by omega)

end LogRing

end Fountainer.Logging
