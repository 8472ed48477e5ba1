import Fountainer.Lib.Cursor
import Fountainer.Logging.ReadSince

/-!
# The log pull

`task_com_fill_log_batch` for the records of this boot: what a `log_read` with a cursor is
answered. The server polls with the last number it got.
-/

namespace Fountainer.Network

open Bytes
open Logging

/-- `LOG_BATCH_MAX`. -/
def logBatchMax : UInt16 := 128

/-- `LOG_BATCH_BYTE_BUDGET`. -/
def logBatchByteBudget : ℕ := 24000

/-- `LOG_BATCH_BYTE_BUDGET_POOR`. -/
def logBatchByteBudgetPoor : ℕ := 4000

/-- A record as the batch carries it: the keys `s`, `u`, `ev`, `mod`, `lvl`, and `a` and `t`
    where there is something. -/
structure LogWire where
  s : UInt32
  u : UInt32
  ev : UInt16
  mod : UInt8
  lvl : UInt8
  a : Option (List Int32)
  t : Option (List UInt8)
  deriving DecidableEq, Repr

/-- The body of `log_batch`. -/
structure LogBatch where
  bootId : UInt32
  firstSeqAvailable : UInt32
  nextSeq : UInt32
  droppedCount : UInt32
  overflow : Bool
  records : List LogWire
  deriving DecidableEq, Repr

/-- The object that is built of a record. -/
def recordObject (r : LogRecordT) : LogWire where
  s := r.seq
  u := r.uptimeMs
  ev := r.eventId
  mod := r.moduleId
  lvl := r.level
  a := if r.argc ≠ 0 then some ((List.ofFn r.args).take r.argc.toNat) else none
  t := if r.text ≠ [] then some r.text else none

/-- The estimate of a record's serialized size. -/
def serializedSize (r : LogRecordT) : ℕ := 64 + r.text.length + r.argc.toNat * 12

/-- The loop over the records, with `bytes` already estimated. -/
def fillRecords (budget : ℕ) : ℕ → List LogRecordT → List LogWire
  | _, [] => []
  | bytes, r :: rs =>
    let bytes := bytes + serializedSize r
    if bytes > budget then [] else recordObject r :: fillRecords budget bytes rs

/-- `task_com_fill_log_batch` without `prev_boot`. `alloc` is whether the buffer could be
    allocated, `poor` the answer of `link_quality_poor_get`. -/
def taskComFillLogBatch (ring : LogRing) (bootId : UInt32) (alloc poor : Bool) (sinceSeq : UInt32)
    (minLevel : UInt8) (maxRecords : UInt16) : Option LogBatch := do
  let maxRecords := if maxRecords > logBatchMax then logBatchMax else maxRecords
  let (records, stats) ←
    if alloc then ring.loggingReadSince bootId sinceSeq minLevel maxRecords.toNat
    else some ([], ring.statsFill bootId)
  some {
    bootId := stats.bootId
    firstSeqAvailable := stats.firstSeqAvailable
    nextSeq := stats.nextSeq
    droppedCount := stats.dropped
    overflow := decide (sinceSeq + 1 < stats.firstSeqAvailable)
    records :=
      fillRecords (if poor then logBatchByteBudgetPoor else logBatchByteBudget) 0 records }

/-- What the batch shows of a stored record: its fields, its arguments and its text. -/
def wireOf (x : LogRecord) : LogWire where
  s := x.seq
  u := x.entry.uptimeMs
  ev := x.entry.eventId
  mod := x.entry.module
  lvl := x.entry.level
  a :=
    if x.entry.argCount ≠ 0 then some ((List.range x.entry.argCount.toNat).map x.entry.arg)
    else none
  t := if x.entry.chars ≠ [] then some (x.entry.chars.take 47) else none

theorem recordObject_copied (bootId : UInt32) (x : LogRecord) :
    recordObject (x.copied bootId) = wireOf x := by
  have hle := x.entry.argCount_le
  have hargs : (List.ofFn (x.copied bootId).args).take x.entry.argCount.toNat =
      (List.range x.entry.argCount.toNat).map x.entry.arg := by
    refine List.ext_getElem (by simp; omega) fun i h h' => ?_
    have hi : i < x.entry.argCount.toNat := by simpa using h'
    simp only [List.getElem_take, List.getElem_ofFn, List.getElem_map, List.getElem_range,
      LogRecord.copied, if_pos hi]
  have htext : x.entry.chars.take 47 ≠ [] ↔ x.entry.chars ≠ [] := by simp
  simp only [recordObject, wireOf, LogWire.mk.injEq]
  refine ⟨rfl, rfl, rfl, rfl, rfl, ?_, if_congr htext rfl rfl⟩
  rw [show (x.copied bootId).argc = x.entry.argCount from rfl, hargs]

/-- The budget keeps a prefix. -/
theorem fillRecords_extends (budget bytes : ℕ) (rs : List LogRecordT) :
    fillRecords budget bytes rs <+: rs.map recordObject := by
  induction rs generalizing bytes with
  | nil => exact List.nil_prefix
  | cons r rs ih =>
    rw [fillRecords]
    split
    · exact List.nil_prefix
    · rw [List.map_cons, List.prefix_cons_inj]
      exact ih _

/-- The first record fits into either budget. -/
theorem fillRecords_ne_nil {bootId : UInt32} {poor : Bool} {x : LogRecord} {rs : List LogRecordT} :
    fillRecords (if poor then logBatchByteBudgetPoor else logBatchByteBudget) 0
      (x.copied bootId :: rs) ≠ [] := by
  have hargc : (x.copied bootId).argc.toNat ≤ 4 := x.entry.argCount_le
  have htext : (x.copied bootId).text.length ≤ 47 := List.length_take_le ..
  rw [fillRecords, if_neg]
  · simp
  · rw [serializedSize]
    cases poor <;> simp [logBatchByteBudgetPoor, logBatchByteBudget] <;> omega

-- ════════════════════════════════════════════════════════════════════════
-- One poll
-- ════════════════════════════════════════════════════════════════════════

/-- The records in the ring after the calls, oldest first. -/
def storedRecords (r : LogRing) (calls : List LogCall) : List LogRecord :=
  (logHistory calls).recent.rtake r.count.toNat

/-- The level is one that the request asks for; 0 asks for all. -/
def MatchesLevel (minLevel level : UInt8) : Prop := minLevel = 0 ∨ level ≤ minLevel

instance (minLevel level : UInt8) : Decidable (MatchesLevel minLevel level) :=
  inferInstanceAs (Decidable (_ ∨ _))

/-- The calls push records of the levels up to `LOG_LEVEL_TRACE`. -/
def LevelsOk (calls : List LogCall) : Prop := ∀ e, .push e ∈ calls → e.level ≤ logLevelTrace

/-- The stored records that a poll asks for. -/
def requested (r : LogRing) (calls : List LogCall) (sinceSeq : UInt32) (minLevel : UInt8) :
    List LogRecord :=
  (storedRecords r calls).filter fun x => sinceSeq < x.seq ∧ MatchesLevel minLevel x.entry.level

theorem mem_logIssued_push {calls : List LogCall} {x : LogRecord} (h : x ∈ logIssued calls) :
    .push x.entry ∈ calls := by
  rw [logIssued, List.mem_mapIdx] at h
  obtain ⟨i, hi, rfl⟩ := h
  have hmem := List.getElem_mem hi
  rw [List.mem_filterMap] at hmem
  obtain ⟨c, hc, hentry⟩ := hmem
  cases c with
  | push e =>
    obtain rfl : e = _ := Option.some.inj hentry
    exact hc
  | clear => cases hentry

variable {buf : Mem} {calls : List LogCall} {r : LogRing}

/-- What one poll of a run's ring returns. -/
theorem taskComFillLogBatch_spec {removed : ℕ} (hf : r.Follows (logHistory calls) removed)
    (hlevels : LevelsOk calls) (bootId : UInt32) (poor : Bool) (sinceSeq : UInt32)
    (minLevel : UInt8)
    (maxRecords : UInt16) :
    ∃ batch, taskComFillLogBatch r bootId true poor sinceSeq minLevel maxRecords = some batch ∧
      batch.records <+: (requested r calls sinceSeq minLevel).map wireOf ∧
      (1 ≤ maxRecords → requested r calls sinceSeq minLevel ≠ [] → batch.records ≠ []) ∧
      batch.firstSeqAvailable = r.firstSeq ∧ batch.overflow =
      decide (sinceSeq + 1 < r.firstSeq) := by
  obtain ⟨-, hplaced, hnumbers⟩ := hf.stored
  have hsorted : ((storedRecords r calls).map fun x => x.seq.toNat).Pairwise (· < ·) := by
    rw [storedRecords, hnumbers]
    exact List.pairwise_lt_range'
  have hfilter : ((storedRecords r calls).dropWhile fun x => x.seq ≤ sinceSeq).filter
      (fun x => x.entry.level ≤ LogRing.wantedLevel minLevel) =
      requested r calls sinceSeq minLevel := by
    rw [LogRing.dropWhile_eq_filter sinceSeq hsorted, List.filter_filter, requested]
    refine List.filter_congr fun x hx => ?_
    -- Without a filter the wanted level is `LOG_LEVEL_TRACE`, which no record exceeds.
    have hstored : x ∈ (logHistory calls).recent := List.mem_of_mem_drop hx
    have hlevel := hlevels _ (mem_logIssued_push ((recent_suffix_issued calls).subset hstored))
    have hiff : x.entry.level ≤ LogRing.wantedLevel minLevel ↔
      MatchesLevel minLevel x.entry.level := by
      rw [LogRing.wantedLevel, MatchesLevel]
      split
      · next hzero => simp [hzero, hlevel]
      · next hzero => simp [hzero]
    simp [hiff, Bool.and_comm]
  have hread := LogRing.loggingReadSince_eq bootId sinceSeq minLevel
    (if maxRecords > logBatchMax then logBatchMax else maxRecords).toNat hplaced
  rw [← storedRecords, hfilter] at hread
  simp only [taskComFillLogBatch, if_true, hread, Option.bind_eq_bind, Option.bind_some]
  refine ⟨_, rfl, ?_, ?_, rfl, rfl⟩
  · refine (fillRecords_extends _ _ _).trans ?_
    rw [List.map_map]
    have hmap : recordObject ∘ LogRecord.copied bootId = wireOf :=
      funext (recordObject_copied bootId)
    rw [hmap]
    exact (List.take_prefix _ _).map _
  · intro hmax hne
    obtain ⟨x, rest, hrest⟩ := List.exists_cons_of_ne_nil hne
    obtain ⟨n, hn⟩ : ∃ n,
        (if maxRecords > logBatchMax then logBatchMax else maxRecords).toNat = n + 1 := by
      have h1 : 1 ≤ maxRecords.toNat := hmax
      split
      · exact ⟨127, rfl⟩
      · exact ⟨maxRecords.toNat - 1, by omega⟩
    rw [hn, hrest, List.take_succ_cons, List.map_cons]
    exact fillRecords_ne_nil

-- ════════════════════════════════════════════════════════════════════════
-- Polling
-- ════════════════════════════════════════════════════════════════════════

/-- `LOG_RING_BYTES`. -/
def logRingBytes : UInt16 := 32768

/-- A server that polls the runtime ring: the calls so far, its cursor, and what it got. -/
structure LogPull where
  calls : List LogCall
  since : UInt32
  sent : List LogWire

/-- The log is written or cleared, or the server polls. -/
inductive PullOp where
  | call (c : LogCall)
  | poll (poor : Bool) (maxRecords : UInt16)

/-- One step; a poll moves the cursor to the last number it returned. -/
def pullStep (buf : Mem) (bootId : UInt32) (minLevel : UInt8) (s : LogPull) : PullOp → LogPull
  | .call c => { s with calls := s.calls ++ [c] }
  | .poll poor maxRecords =>
    match (logRun buf logRingBytes s.calls).bind
        (taskComFillLogBatch · bootId true poor s.since minLevel maxRecords) with
    | none => s
    | some batch =>
      { s with
        since := (batch.records.getLast?.map LogWire.s).getD s.since
        sent := s.sent ++ batch.records }

/-- The number of the oldest record in the ring after the calls. -/
def firstSeqAfter (buf : Mem) (calls : List LogCall) : ℕ :=
  ((logRun buf logRingBytes calls).map fun r => r.firstSeq.toNat).getD 0

/-- The log and the server as a reader with a cursor. -/
def LogPull.reader (buf : Mem) (s : LogPull) : Cursor.Reader LogWire where
  issued := (logIssued s.calls).map wireOf
  first := firstSeqAfter buf s.calls
  since := s.since.toNat
  sent := s.sent

/-- What the server wants of the records. -/
def Wanted (minLevel : UInt8) (w : LogWire) : Prop := MatchesLevel minLevel w.lvl

instance (minLevel : UInt8) : DecidablePred (Wanted minLevel) :=
  fun w => inferInstanceAs (Decidable (MatchesLevel minLevel w.lvl))

/-- The stored records are the issued ones from `first_seq` on. -/
theorem storedRecords_eq_filter {removed : ℕ} (hf : r.Follows (logHistory calls) removed)
    (hpushes : (logHistory calls).pushes < 4294967295) :
    storedRecords r calls = (logIssued calls).filter fun x => r.firstSeq.toNat ≤ x.seq.toNat := by
  obtain ⟨hle, -, hnumbers⟩ := hf.stored
  have hfirst := hf.firstSeq_eq
  have hrecent := hf.recent_le
  obtain ⟨old, hold⟩ : storedRecords r calls <:+ logIssued calls :=
    (List.drop_suffix _ _).trans (recent_suffix_issued calls)
  have hcount : (storedRecords r calls).length = r.count.toNat := by
    rw [storedRecords, ← List.length_map fun x : LogRecord => x.seq.toNat, hnumbers,
      List.length_range']
  have hlength : old.length + r.count.toNat = (logHistory calls).pushes := by
    rw [← length_logIssued, ← hold, List.length_append, hcount]
  have hissued := logIssued_numbers calls (by omega)
  rw [← hold, List.map_append, ← hlength, ← List.range'_append_1] at hissued
  have holdnumbers : old.map (fun x => x.seq.toNat) = List.range' 1 old.length :=
    List.append_inj_left hissued (by simp)
  have hnone : old.filter (fun x => r.firstSeq.toNat ≤ x.seq.toNat) = [] := by
    refine List.filter_eq_nil_iff.mpr fun x hx => ?_
    have hmem : x.seq.toNat ∈ List.range' 1 old.length := holdnumbers ▸ List.mem_map_of_mem hx
    rw [List.mem_range'_1] at hmem
    simp
    omega
  have hall : (storedRecords r calls).filter (fun x => r.firstSeq.toNat ≤ x.seq.toNat) =
      storedRecords r calls := by
    refine List.filter_eq_self.mpr fun x hx => ?_
    have hmem : x.seq.toNat ∈ List.range' r.firstSeq.toNat r.count.toNat :=
      hnumbers ▸ List.mem_map_of_mem hx
    rw [List.mem_range'_1] at hmem
    simpa using hmem.1
  rw [← hold, List.filter_append, hnone, hall, List.nil_append]

/-- What is pending for the reader is what the poll asks for. -/
theorem pending_eq {removed : ℕ} {s : LogPull} (hrun : logRun buf logRingBytes s.calls = some r)
    (hf : r.Follows (logHistory s.calls) removed)
    (hpushes : (logHistory s.calls).pushes < 4294967295)
    (minLevel : UInt8) :
    (s.reader buf).pending (fun w => w.s.toNat) (Wanted minLevel) =
      (requested r s.calls s.since minLevel).map wireOf := by
  have hfirst : firstSeqAfter buf s.calls = r.firstSeq.toNat := by rw [firstSeqAfter, hrun]; rfl
  rw [requested, storedRecords_eq_filter hf hpushes, List.filter_filter, Cursor.Reader.pending,
    LogPull.reader, List.filter_map]
  refine congrArg _ (List.filter_congr fun x _ => ?_)
  simp only [Function.comp_apply, wireOf, Wanted, hfirst, UInt32.lt_iff_toNat_lt]
  by_cases h : r.firstSeq.toNat ≤ x.seq.toNat <;> simp [h]

theorem seq_le_pushes {x : LogRecord} (h : (logHistory calls).pushes < 4294967296)
    (hx : x ∈ logIssued calls) : x.seq.toNat ≤ (logHistory calls).pushes := by
  have hmem : x.seq.toNat ∈ (logIssued calls).map fun x => x.seq.toNat := List.mem_map_of_mem hx
  rw [logIssued_numbers calls h, List.mem_range'_1] at hmem
  omega

/-- A run of the log and the server, with fewer than `2 ^ 32 - 1` pushes in the end. -/
structure PullOk (s : LogPull) : Prop where
  pushes : (logHistory s.calls).pushes < 4294967295
  levels : LevelsOk s.calls
  since : s.since.toNat ≤ (logHistory s.calls).pushes

/-- Each step of the run is one of the log or of the reader. -/
theorem pullStep_step {s : LogPull} (hs : PullOk s) (op : PullOp) (bootId : UInt32)
    (minLevel : UInt8)
    (hnext : (logHistory (pullStep buf bootId minLevel s op).calls).pushes < 4294967295)
    (hlevels : LevelsOk (pullStep buf bootId minLevel s op).calls) :
    PullOk (pullStep buf bootId minLevel s op) ∧
      Cursor.Step (fun w => w.s.toNat) (Wanted minLevel) (s.reader buf)
        ((pullStep buf bootId minLevel s op).reader buf) := by
  obtain ⟨r, hrun, hf⟩ := logRun_follows buf logRingBytes (by decide) s.calls hs.pushes
  have hfirst : firstSeqAfter buf s.calls = r.firstSeq.toNat := by rw [firstSeqAfter, hrun]; rfl
  cases op with
  | call c =>
    obtain ⟨r', hrun', hf'⟩ := logRun_follows buf logRingBytes (by decide) (s.calls ++ [c]) hnext
    have hfirst' : firstSeqAfter buf (s.calls ++ [c]) = r'.firstSeq.toNat := by
      rw [firstSeqAfter, hrun']
      rfl
    have hcall : r.call c = some r' := by rwa [logRun_concat, hrun] at hrun'
    rw [logHistory_concat] at hf'
    have hle := LogHistory.pushes_le_call (logHistory s.calls) c
    rw [← logHistory_concat] at hle
    refine ⟨⟨hnext, hlevels, hs.since.trans hle⟩, ?_⟩
    have hsorted :
        (((logIssued (s.calls ++ [c])).map wireOf).map fun w => w.s.toNat).Pairwise (· < ·) := by
      rw [List.map_map]
      have hnumbers := logIssued_numbers (s.calls ++ [c]) (hnext.trans (by omega))
      exact hnumbers ▸ List.pairwise_lt_range'
    have hstep (new : List LogRecord) (hnew : logIssued (s.calls ++ [c]) = logIssued s.calls ++ new)
        (hlt : ∀ x ∈ new, s.since.toNat < x.seq.toNat) :
        Cursor.Step (fun w => w.s.toNat) (Wanted minLevel) (s.reader buf)
          ((pullStep buf bootId minLevel s (.call c)).reader buf) := by
      refine .log (new.map wireOf) ?_ hsorted ?_ ?_ rfl rfl
      · exact (congrArg (List.map wireOf) hnew).trans List.map_append
      · intro w hw
        obtain ⟨x, hx, rfl⟩ := List.mem_map.mp hw
        exact hlt x hx
      · change firstSeqAfter buf s.calls ≤ firstSeqAfter buf (s.calls ++ [c])
        rw [hfirst, hfirst']
        exact hf.firstSeq_le hcall hf'
    cases c with
    | push e =>
      refine hstep _ (logIssued_push s.calls e) fun x hx => ?_
      have hpushes : (logHistory (s.calls ++ [.push e])).pushes =
        (logHistory s.calls).pushes + 1 := by
        rw [logHistory_concat]
        rfl
      have hseq : x.seq.toNat = (logHistory s.calls).pushes + 1 := by
        rw [List.mem_singleton.mp hx]
        exact Nat.mod_eq_of_lt (by have := hs.pushes; omega)
      have := hs.since
      omega
    | clear => exact hstep [] (by rw [logIssued_clear, List.append_nil]) (by simp)
  | poll poor maxRecords =>
    obtain ⟨batch, hbatch, hpre, -⟩ :=
      taskComFillLogBatch_spec hf hs.levels bootId poor s.since minLevel maxRecords
    have heq : pullStep buf bootId minLevel s (.poll poor maxRecords) =
        { s with
          since := (batch.records.getLast?.map LogWire.s).getD s.since
          sent := s.sent ++ batch.records } := by
      simp [pullStep, hrun, hbatch]
    rw [heq]
    have hpending : batch.records <+: (s.reader buf).pending (fun w => w.s.toNat)
      (Wanted minLevel) := by
      rwa [pending_eq hrun hf hs.pushes]
    refine ⟨⟨hs.pushes, hs.levels, ?_⟩, .poll batch.records hpending rfl rfl ?_ rfl⟩
    · change ((batch.records.getLast?.map LogWire.s).getD s.since).toNat ≤ _
      cases hlast : batch.records.getLast? with
      | none => exact hs.since
      | some w =>
        have hmem := (Cursor.mem_pending.mp (hpending.subset (List.mem_of_getLast? hlast))).1
        obtain ⟨x, hx, rfl⟩ := List.mem_map.mp hmem
        exact seq_le_pushes (hs.pushes.trans (by omega)) hx
    · change ((batch.records.getLast?.map LogWire.s).getD s.since).toNat = _
      cases batch.records.getLast? <;> rfl

theorem calls_prefix_run (buf : Mem) (bootId : UInt32) (minLevel : UInt8) (s : LogPull)
    (ops : List PullOp) :
    s.calls <+: (Machine.run (pullStep buf bootId minLevel) s ops).calls := by
  induction ops generalizing s with
  | nil => exact List.prefix_refl _
  | cons op ops ih =>
    refine List.IsPrefix.trans ?_ (ih _)
    cases op with
    | call c => exact List.prefix_append _ _
    | poll poor maxRecords =>
      rw [pullStep]
      split <;> exact List.prefix_refl _

/-- The account of a run: what was sent, and where every wanted record is. -/
theorem pull_accounted {s : LogPull} {ops : List PullOp} {bootId : UInt32} {minLevel : UInt8}
    (hs : s.since.toNat ≤ (logHistory s.calls).pushes) (hnone : s.sent = [])
    (hpushes :
      (logHistory (Machine.run (pullStep buf bootId minLevel) s ops).calls).pushes < 4294967295)
    (hlevels : LevelsOk (Machine.run (pullStep buf bootId minLevel) s ops).calls) :
    Cursor.Sent (fun w => w.s.toNat) (Wanted minLevel) s.since.toNat
        ((Machine.run (pullStep buf bootId minLevel) s ops).reader buf) ∧
      ∀ w ∈ (logIssued (Machine.run (pullStep buf bootId minLevel) s ops).calls).map wireOf,
        Wanted minLevel w → s.since.toNat < w.s.toNat →
        Cursor.Placed (fun w => w.s.toNat)
          (fun i => (Machine.run (pullStep buf bootId minLevel) s (ops.take i)).reader buf)
          ops.length w := by
  -- Every prefix of the run stays below the bounds that its end meets.
  have hbounds (i : ℕ) :
      (logHistory (Machine.run (pullStep buf bootId minLevel) s (ops.take i)).calls).pushes <
      4294967295 ∧
        LevelsOk (Machine.run (pullStep buf bootId minLevel) s (ops.take i)).calls := by
    have hpre := calls_prefix_run buf bootId minLevel
      (Machine.run (pullStep buf bootId minLevel) s (ops.take i)) (ops.drop i)
    rw [← Machine.run_append, List.take_append_drop] at hpre
    exact ⟨(logHistory_pushes_mono hpre).trans_lt hpushes, fun e he => hlevels e (hpre.subset he)⟩
  have hok (i : ℕ) : PullOk (Machine.run (pullStep buf bootId minLevel) s (ops.take i)) := by
    induction i with
    | zero => exact ⟨(hbounds 0).1, (hbounds 0).2, hs⟩
    | succ i ih =>
      cases hop : ops[i]? with
      | none => rwa [List.take_add_one, hop, Option.toList_none, List.append_nil]
      | some op =>
        have hnext := hbounds (i + 1)
        rw [Machine.run_take_succ _ hop] at hnext ⊢
        exact (pullStep_step ih op bootId minLevel hnext.1 hnext.2).1
  have haccount := Cursor.accounted (fun w : LogWire => w.s.toNat) (Wanted minLevel)
    (f := fun i => (Machine.run (pullStep buf bootId minLevel) s (ops.take i)).reader buf)
    (n := ops.length) (fun i hi => ?_) ?_ hnone
  · rw [List.take_length] at haccount
    exact haccount
  · have hop : ops[i]? = some ops[i] := List.getElem?_eq_getElem hi
    have hnext := hbounds (i + 1)
    rw [Machine.run_take_succ _ hop] at hnext ⊢
    exact (pullStep_step (hok i) _ bootId minLevel hnext.1 hnext.2).2
  · have hnumbers := logIssued_numbers s.calls ((hok 0).pushes.trans (by omega))
    change (((logIssued s.calls).map wireOf).map fun w => w.s.toNat).Pairwise (· < ·)
    rw [List.map_map]
    exact hnumbers ▸ List.pairwise_lt_range'

/-- The cursor has fallen out of the ring when a number behind it is no longer there. -/
theorem overflow_iff {removed : ℕ} {sinceSeq : UInt32} (hf : r.Follows (logHistory calls) removed)
    (hpushes : (logHistory calls).pushes < 4294967295)
    (hsince : sinceSeq.toNat ≤ (logHistory calls).pushes) :
    sinceSeq + 1 < r.firstSeq ↔ ∃ x ∈ logIssued calls, sinceSeq < x.seq ∧ x.seq < r.firstSeq := by
  have hsucc : (sinceSeq + 1).toNat = sinceSeq.toNat + 1 := Nat.mod_eq_of_lt (by simp; omega)
  have hfirst := hf.firstSeq_eq
  constructor
  · intro hlt
    have hlt : (sinceSeq + 1).toNat < r.firstSeq.toNat := hlt
    have hmem : (sinceSeq + 1).toNat ∈ (logIssued calls).map fun x => x.seq.toNat := by
      rw [logIssued_numbers calls (by omega), List.mem_range'_1]
      omega
    obtain ⟨x, hx, hseq⟩ := List.mem_map.mp hmem
    refine ⟨x, hx, UInt32.lt_iff_toNat_lt.mpr ?_, UInt32.lt_iff_toNat_lt.mpr ?_⟩
    · rw [hseq]
      omega
    · rwa [hseq]
  · rintro ⟨x, hx, hgt, hlt⟩
    have hgt : sinceSeq.toNat < x.seq.toNat := hgt
    have hlt : x.seq.toNat < r.firstSeq.toNat := hlt
    exact UInt32.lt_iff_toNat_lt.mpr (by omega)

/-- **The log pull.** As long as fewer than `2 ^ 32 - 1` records have been pushed: a poll
    returns a prefix of the stored records that it asks for, at least one if there is one,
    with their fields, and reports an overflow exactly when an issued number between its
    cursor and the ring is gone. And along any run of pushes, clears and polls the server gets
    the wanted records once and in order; one that it has not got either still waits in the
    ring, or was evicted or cleared while the cursor stood before it. -/
theorem log_pull (buf : Mem) (bootId : UInt32) (minLevel : UInt8) :
    (∀ calls, (logHistory calls).pushes < 2 ^ 32 - 1 → LevelsOk calls →
      ∃ r, logRun buf logRingBytes calls = some r ∧
        ∀ (sinceSeq : UInt32) (poor : Bool) (maxRecords : UInt16),
          sinceSeq.toNat ≤ (logHistory calls).pushes → 1 ≤ maxRecords →
          ∃ batch, taskComFillLogBatch r bootId true poor sinceSeq minLevel
          maxRecords = some batch ∧
            batch.records <+: (requested r calls sinceSeq minLevel).map wireOf ∧
            (requested r calls sinceSeq minLevel ≠ [] → batch.records ≠ []) ∧
            (batch.overflow = true ↔
              ∃ x ∈ logIssued calls, sinceSeq < x.seq ∧ x.seq < batch.firstSeqAvailable)) ∧
    ∀ (s s' : LogPull) (ops : List PullOp), s' = Machine.run (pullStep buf bootId minLevel) s ops →
      s.since.toNat ≤ (logHistory s.calls).pushes → s.sent = [] →
      (logHistory s'.calls).pushes < 2 ^ 32 - 1 → LevelsOk s'.calls →
      (s'.sent.map fun w => w.s.toNat).Pairwise (· < ·) ∧
      (∀ w ∈ s'.sent, ∃ x ∈ logIssued s'.calls,
        w = wireOf x ∧ MatchesLevel minLevel x.entry.level ∧ s.since < x.seq) ∧
      ∀ x ∈ logIssued s'.calls, MatchesLevel minLevel x.entry.level → s.since < x.seq →
        wireOf x ∈ s'.sent ∨
        (s'.since < x.seq ∧ firstSeqAfter buf s'.calls ≤ x.seq.toNat) ∨
        ∃ i ≤ ops.length, ∃ t, t = Machine.run (pullStep buf bootId minLevel) s (ops.take i) ∧
          t.since < x.seq ∧ x.seq.toNat < firstSeqAfter buf t.calls := by
  refine ⟨fun calls hpushes hlevels => ?_, ?_⟩
  · obtain ⟨r, hrun, hf⟩ := logRun_follows buf logRingBytes (by decide) calls hpushes
    refine ⟨r, hrun, fun sinceSeq poor maxRecords hsince hmax => ?_⟩
    obtain ⟨batch, hbatch, hpre, hne, hfirst, hover⟩ :=
      taskComFillLogBatch_spec hf hlevels bootId poor sinceSeq minLevel maxRecords
    refine ⟨batch, hbatch, hpre, hne hmax, ?_⟩
    rw [hover, hfirst, decide_eq_true_eq]
    exact overflow_iff hf hpushes hsince
  · rintro s s' ops rfl hsince hnone hpushes hlevels
    obtain ⟨hsent, hplaced⟩ := pull_accounted hsince hnone hpushes hlevels
    refine ⟨hsent.sent_sorted, fun w hw => ?_, fun x hx hwant hlt => ?_⟩
    · obtain ⟨hissued, hwant, hlt, -⟩ := hsent.sent_mem w hw
      obtain ⟨x, hx, rfl⟩ := List.mem_map.mp hissued
      exact ⟨x, hx, rfl, hwant, hlt⟩
    · rcases hplaced (wireOf x) (List.mem_map_of_mem hx) hwant hlt with h | h | ⟨i, hi, hlost⟩
      · simp only [List.take_length] at h
        exact .inl h
      · simp only [List.take_length] at h
        exact .inr (.inl h)
      · exact .inr (.inr ⟨i, hi, _, rfl, hlost⟩)

/-- Two records, the cursor behind the first: the poll returns the second. -/
theorem log_pull_second :
    ∃ r, logRun (fun _ => 0) logRingBytes [.push startEntry, .push startEntry] = some r ∧
      ∃ batch, taskComFillLogBatch r 1 true false 1 0 64 = some batch ∧
        batch.records <+: (requested r [.push startEntry, .push startEntry] 1 0).map wireOf := by
  obtain ⟨r, hrun, hpolls⟩ := (log_pull (fun _ => 0) 1 0).1 [.push startEntry, .push startEntry]
    (by decide) (by simp [LevelsOk, startEntry, logLevelTrace])
  obtain ⟨batch, hbatch, hpre, -⟩ := hpolls 1 false 64 (by decide) (by decide)
  exact ⟨r, hrun, batch, hbatch, hpre⟩

/-- Up to the wrap of the numbers, the first number after a push is not 0. -/
theorem firstSeq_pos_of_push {r r' : LogRing} {pushes removed k : ℕ} {emptied : Prop}
    [Decidable emptied] (hnext : r.nextSeq.toNat = pushes + 1)
    (hfirst : r.firstSeq.toNat = pushes + 1 - r.count.toNat)
    (htotal : pushes = r.count.toNat + r.overwritten.toNat + removed) (hk : k ≤ r.count.toNat)
    (hpushes : pushes < 4294967295)
    (h : r'.firstSeq = if emptied then r.nextSeq else r.firstSeq + UInt32.ofNat k) :
    0 < r'.firstSeq := by
  refine UInt32.lt_iff_toNat_lt.mpr ?_
  rw [h, UInt32.toNat_zero]
  split_ifs
  · omega
  · rw [LogRing.toNat_add_ofNat (by omega)]
    omega

/-- `2 ^ 32 - 1` pushes: the last number is that of the cursor, and the sum of the overflow
    test wraps to 0. -/
theorem log_pull_wraps :
    ∃ r, logRun (fun _ => 0) logRingBytes (List.replicate 4294967295 (.push startEntry)) = some r ∧
      ∃ batch, taskComFillLogBatch r 1 true false 4294967295 0 64 = some batch ∧
        batch.overflow = true ∧
        ¬ ∃ x ∈ logIssued (List.replicate 4294967295 (.push startEntry)),
          4294967295 < x.seq ∧ x.seq < batch.firstSeqAvailable := by
  have hsplit : List.replicate 4294967295 (LogCall.push startEntry) =
      List.replicate 4294967294 (.push startEntry) ++ [.push startEntry] := List.replicate_succ'
  have hpushes := pushes_replicate 4294967294 startEntry
  rw [hsplit]
  generalize List.replicate 4294967294 (LogCall.push startEntry) = calls at hpushes ⊢
  obtain ⟨r, hrun, hf⟩ := logRun_follows (fun _ => 0) logRingBytes (by decide) calls (by omega)
  obtain ⟨old, hold, hplaced⟩ := hf.kept
  obtain ⟨k, r', hk, hpush, hplaced', -, -, -, hfirst, -⟩ :=
    LogRing.logRingPush_placed hplaced startEntry (startEntry.needed_le.trans hf.capacity_ge)
  have hne : (0 : UInt32) < r'.firstSeq := by
    rw [← hplaced.count_eq] at hk
    exact firstSeq_pos_of_push hf.nextSeq_eq hf.firstSeq_eq hf.total hk (by omega) hfirst
  have hrun' : logRun (fun _ => 0) logRingBytes (calls ++ [.push startEntry]) = some r' := by
    rw [logRun_concat, hrun]
    simp [LogRing.call, hpush]
  rw [← List.map_drop, show [startEntry.encode r.nextSeq] =
    [(⟨startEntry, r.nextSeq⟩ : LogRecord)].map LogRecord.bytes from rfl,
    ← List.map_append] at hplaced'
  have hread := LogRing.loggingReadSince_eq 1 4294967295 0 64 hplaced'
  refine ⟨r', hrun', ?_⟩
  simp only [taskComFillLogBatch, if_true,
    show (if (64 : UInt16) > logBatchMax then logBatchMax else 64).toNat = 64 from rfl, hread,
    Option.bind_eq_bind, Option.bind_some]
  refine ⟨_, rfl, decide_eq_true hne, ?_⟩
  rintro ⟨x, -, hlt, -⟩
  have hlt : 4294967295 < x.seq.toNat := hlt
  have := x.seq.toNat_lt
  omega

end Fountainer.Network
