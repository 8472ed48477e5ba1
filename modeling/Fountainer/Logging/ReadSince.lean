import Fountainer.Logging.Fifo

/-!
# Reading from a cursor

`log_ring_iter_seek` and `logging_read_since`: from the first record behind a cursor on, the
records of the wanted levels are copied out.
-/

namespace Fountainer.Logging

open Bytes

/-- `LOG_LEVEL_TRACE`. -/
def logLevelTrace : UInt8 := 5

/-- `log_record_t`. -/
structure LogRecordT where
  seq : UInt32
  bootId : UInt32
  uptimeMs : UInt32
  eventId : UInt16
  moduleId : UInt8
  level : UInt8
  argc : UInt8
  args : Fin logRingMaxArgs → Int32
  text : List UInt8

/-- `log_stats_t`. -/
structure LogStats where
  bootId : UInt32
  firstSeqAvailable : UInt32
  nextSeq : UInt32
  dropped : UInt32
  deriving DecidableEq, Repr

namespace LogRing

/-- `log_ring_iter_seek`. -/
def logRingIterSeek (r : LogRing) : ℕ → LogIter → UInt32 → Option LogIter
  | 0, _, _ => none
  | fuel + 1, it, sinceSeq =>
    if it.remaining = 0 then some it
    else do
      match ← r.recordAt it.pos with
      | none => some { it with remaining := 0 }
      | some (pos, size) =>
        let seq ← r.loadU32 (pos.toNat + 6)
        let next := { pos := r.nextPos pos size, remaining := it.remaining - 1 }
        if seq > sinceSeq then some { it with pos := pos } else r.logRingIterSeek fuel next sinceSeq

/-- `stats_fill_locked`. -/
def statsFill (r : LogRing) (bootId : UInt32) : LogStats where
  bootId := bootId
  firstSeqAvailable := r.firstSeq
  nextSeq := r.nextSeq
  dropped := r.overwritten

/-- The copy of a view into a `log_record_t`; `strlcpy` keeps what fits into 48 bytes. -/
def copyOut (r : LogRing) (bootId : UInt32) (v : LogView) : Option LogRecordT := do
  let text ← r.textOf v
  some {
    seq := v.seq, bootId := bootId, uptimeMs := v.uptimeMs, eventId := v.eventId
    moduleId := v.module, level := v.level, argc := v.argc
    args := fun i => if (i : ℕ) < v.argc.toNat then v.args i else 0
    text := text.take logRingMaxText }

/-- The loop of `logging_read_since`, with room for `room` more records. -/
def readLoop (r : LogRing) (bootId : UInt32) (minLevel : UInt8) :
    ℕ → LogIter → ℕ → Option (List LogRecordT)
  | 0, _, _ => none
  | fuel + 1, it, room =>
    if room = 0 then some []
    else do
      match ← r.logRingIterNext it with
      | (none, _) => some []
      | (some v, it) =>
        if v.level > minLevel then r.readLoop bootId minLevel fuel it room
        else
          let rec ← r.copyOut bootId v
          let rest ← r.readLoop bootId minLevel fuel it (room - 1)
          some (rec :: rest)

/-- `logging_read_since`, with a buffer for `max` records. -/
def loggingReadSince (r : LogRing) (bootId sinceSeq : UInt32) (minLevel : UInt8) (max : ℕ) :
    Option (List LogRecordT × LogStats) :=
  if max = 0 then some ([], r.statsFill bootId)
  else do
    let minLevel := if minLevel = 0 then logLevelTrace else minLevel
    let it ← r.logRingIterSeek (r.count.toNat + 1) r.logRingIterBegin sinceSeq
    let records ← r.readLoop bootId minLevel (r.count.toNat + 1) it max
    some (records, r.statsFill bootId)

end LogRing

/-- The copy of a stored record. -/
def LogRecord.copied (bootId : UInt32) (x : LogRecord) : LogRecordT where
  seq := x.seq
  bootId := bootId
  uptimeMs := x.entry.uptimeMs
  eventId := x.entry.eventId
  moduleId := x.entry.module
  level := x.entry.level
  argc := x.entry.argCount
  args := fun i => if (i : ℕ) < x.entry.argCount.toNat then x.entry.arg i else 0
  text := x.entry.chars.take logRingMaxText

namespace LogRing

variable {r : LogRing} (bootId sinceSeq : UInt32) (minLevel : UInt8)

/-- The sequence number in the header of a stored record. -/
theorem loadSeq_eq {x : LogRecord} {p : ℕ} (h : Holds r.buf p x.bytes)
    (hfit : p + x.bytes.length ≤ r.capacity.toNat) : r.loadU32 (p + 6) = some x.seq := by
  have hge := x.isCell_bytes.size_ge
  simp only [LogRecord.bytes, LogEntry.encode, holds_append, List.length_append, List.length_cons,
    List.length_nil, length_leU16, Nat.reduceAdd] at h
  obtain ⟨⟨⟨⟨⟨-, hseq⟩, -⟩, -⟩, -⟩, -⟩ := h
  rw [loadU32, if_pos (by omega), rdU32_of_holds hseq]

theorem copyOut_view {x : LogRecord} {p : ℕ} (h : Holds r.buf p x.bytes)
    (hfit : p + x.entry.needed.toNat ≤ r.capacity.toNat) :
    r.copyOut bootId (x.entry.view x.seq p) = some (x.copied bootId) := by
  have htake : (x.entry.chars.take 47).take 47 = x.entry.chars.take 47 :=
    List.take_of_length_le (List.length_take_le ..)
  simp only [copyOut, textOf_view h hfit, x.entry.keptText_eq, Option.bind_eq_bind,
    Option.bind_some, logRingMaxText, htake]
  refine congrArg some ?_
  simp only [LogRecord.copied, LogEntry.view, logRingMaxText, LogRecordT.mk.injEq,
    true_and, and_true]
  funext i
  split <;> simp_all

/-- **Seek** leaves the records from the first one behind the cursor on. -/
theorem logRingIterSeek_before {fuel : ℕ} {it : LogIter} {recs : List LogRecord}
    (h : r.Before it recs) (hfuel : recs.length < fuel) :
    ∃ it', r.logRingIterSeek fuel it sinceSeq = some it' ∧
      r.Before it' (recs.dropWhile fun x => x.seq ≤ sinceSeq) := by
  induction recs generalizing it fuel with
  | nil =>
    obtain ⟨fuel, rfl⟩ := Nat.exists_eq_add_of_lt hfuel
    exact ⟨it, by simp [logRingIterSeek, h.remaining_eq_zero], h⟩
  | cons x recs ih =>
    obtain ⟨fuel, rfl⟩ : ∃ k, fuel = k + 1 := ⟨fuel - 1, by omega⟩
    obtain ⟨hne, p, size, hrec, hholds, hfit, hat, hnext⟩ := h.next
    have hseq := loadSeq_eq hholds hfit
    rw [List.length_cons] at hfuel
    by_cases hlt : x.seq > sinceSeq
    · refine ⟨{ it with pos := p }, by simp [logRingIterSeek, hne, hrec, hseq, hlt], ?_⟩
      rwa [List.dropWhile_cons_of_neg (by simpa using hlt)]
    · obtain ⟨it', hseek, hbefore⟩ := ih hnext (by omega : recs.length < fuel)
      refine ⟨it', by simp [logRingIterSeek, hne, hrec, hseq, hlt, hseek], ?_⟩
      rwa [List.dropWhile_cons_of_pos (by simpa using hlt)]

/-- **The loop** copies the records of the wanted levels, as many as there is room for. -/
theorem readLoop_before (room : ℕ) {fuel : ℕ} {it : LogIter} {recs : List LogRecord}
    (h : r.Before it recs) (hfuel : recs.length < fuel) :
    r.readLoop bootId minLevel fuel it room =
      some (((recs.filter fun x => x.entry.level ≤ minLevel).take room).map
        (LogRecord.copied bootId)) := by
  induction recs generalizing it fuel room with
  | nil =>
    obtain ⟨fuel, rfl⟩ := Nat.exists_eq_add_of_lt hfuel
    simp [readLoop, logRingIterNext, h.remaining_eq_zero]
  | cons x recs ih =>
    obtain ⟨fuel, rfl⟩ : ∃ k, fuel = k + 1 := ⟨fuel - 1, by omega⟩
    obtain ⟨hne, p, size, hrec, hholds, hfit, -, hnext⟩ := h.next
    have hfit' : p.toNat + x.entry.needed.toNat ≤ r.capacity.toNat := by
      simpa [LogRecord.bytes] using hfit
    have hview : r.viewAt p.toNat = some (x.entry.view x.seq p.toNat) := viewAt_eq hholds hfit'
    rw [List.length_cons] at hfuel
    cases room with
    | zero => simp [readLoop]
    | succ room =>
      by_cases hlevel : x.entry.level > minLevel
      · have hskip : (x.entry.view x.seq p.toNat).level > minLevel := hlevel
        have hrest := ih (room + 1) hnext (by omega : recs.length < fuel)
        simp [readLoop, logRingIterNext, hne, hrec, hview, hskip, hrest, UInt8.not_le.mpr hlevel]
      · have hkeep : ¬ (x.entry.view x.seq p.toNat).level > minLevel := hlevel
        have hcopy := copyOut_view bootId hholds hfit'
        have hrest := ih room hnext (by omega : recs.length < fuel)
        simp [readLoop, logRingIterNext, hne, hrec, hview, hkeep, hcopy, hrest,
          UInt8.not_lt.mp hlevel]

/-- Among ascending numbers the entries behind the cursor are those with a greater one. -/
theorem dropWhile_eq_filter {α : Type*} {number : α → UInt32} {entries : List α}
    (h : (entries.map fun x => (number x).toNat).Pairwise (· < ·)) :
    (entries.dropWhile fun x => number x ≤ sinceSeq) =
      entries.filter fun x => sinceSeq < number x := by
  induction entries with
  | nil => rfl
  | cons x entries ih =>
    rw [List.map_cons, List.pairwise_cons] at h
    by_cases hle : number x ≤ sinceSeq
    · rw [List.dropWhile_cons_of_pos (by simpa using hle), ih h.2,
        List.filter_cons_of_neg (by simpa using hle)]
    · have hlt := UInt32.not_le.mp hle
      rw [List.dropWhile_cons_of_neg (by simpa using hlt), Eq.comm, List.filter_eq_self]
      intro y hy
      rcases List.mem_cons.mp hy with rfl | hy
      · simpa using hlt
      · have hxy := h.1 (number y).toNat (List.mem_map_of_mem hy)
        have hlt : sinceSeq.toNat < (number x).toNat := hlt
        exact decide_eq_true (UInt32.lt_iff_toNat_lt.mpr (by omega))

/-- The level filter; 0 filters nothing that can be stored. -/
def wantedLevel (minLevel : UInt8) : UInt8 := if minLevel = 0 then logLevelTrace else minLevel

/-- **Reading** copies, in order, the records behind the cursor with a wanted level, as many
    as there is room for. -/
theorem loggingReadSince_eq (max : ℕ) {recs : List LogRecord}
    (h : r.Placed (recs.map LogRecord.bytes)) :
    r.loggingReadSince bootId sinceSeq minLevel max =
      some (((((recs.dropWhile fun x => x.seq ≤ sinceSeq).filter fun x =>
        x.entry.level ≤ wantedLevel minLevel).take max).map (LogRecord.copied bootId)),
        r.statsFill bootId) := by
  rw [loggingReadSince]
  split
  · next hmax => simp [hmax]
  have hcount : r.count.toNat = recs.length := by rw [h.count_eq, List.length_map]
  obtain ⟨it, hseek, hbefore⟩ := logRingIterSeek_before sinceSeq h.before
    (by omega : recs.length < r.count.toNat + 1)
  have hle : (recs.dropWhile fun x => x.seq ≤ sinceSeq).length ≤ recs.length :=
    (List.dropWhile_suffix _).length_le
  have hloop := readLoop_before bootId (wantedLevel minLevel) max
    hbefore (by omega : _ < r.count.toNat + 1)
  simp only [hseek, Option.bind_eq_bind, Option.bind_some]
  rw [show (if minLevel = 0 then logLevelTrace else minLevel) =
    wantedLevel minLevel from rfl, hloop]
  rfl

end LogRing

end Fountainer.Logging
