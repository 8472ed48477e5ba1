import Fountainer.Logging.Iterate
import Mathlib.Data.List.DropRight

/-!
# The log ring is a drop-oldest queue

Over a whole run the ring holds the newest of the records pushed since the last
clear. `LogHistory` is the history that the calls alone determine; `Follows` relates
a ring to it, and every call keeps the relation.
-/

namespace Fountainer.Logging

open Bytes

/-- What the calls amount to: how many pushes, and the records pushed since the last
    clear, numbered over all pushes from 1. -/
structure LogHistory where
  pushes : ℕ
  recent : List LogRecord

/-- The history after one more call. -/
def LogHistory.call (h : LogHistory) : LogCall → LogHistory
  | .push e => ⟨h.pushes + 1, h.recent ++ [⟨e, UInt32.ofNat (h.pushes + 1)⟩]⟩
  | .clear => ⟨h.pushes, []⟩

/-- The history of the calls. -/
def logHistory (calls : List LogCall) : LogHistory :=
  Machine.run LogHistory.call ⟨0, []⟩ calls

/-- The entry that a call pushes. -/
def LogCall.entry? : LogCall → Option LogEntry
  | .push e => some e
  | .clear => none

/-- All records pushed so far, with their numbers. -/
def logIssued (calls : List LogCall) : List LogRecord :=
  (calls.filterMap LogCall.entry?).mapIdx fun i e => ⟨e, UInt32.ofNat (i + 1)⟩

/-- One call on a ring that may have failed. -/
def logStep (s : Option LogRing) (c : LogCall) : Option LogRing := s.bind (LogRing.call · c)

/-- The number of records that a clear removes. -/
def clearNote (s : Option LogRing) (c : LogCall) (_ : Option LogRing) : Option ℕ :=
  match c with
  | .clear => s.map (fun r => r.count.toNat)
  | .push _ => none

/-- The number of records that the clears of a run remove. -/
def removedByClear (buf : Mem) (capacity : UInt16) (calls : List LogCall) : ℕ :=
  (Machine.collect logStep clearNote (some (LogRing.logRingInit buf capacity)) calls).sum

@[simp] theorem logHistory_concat (calls : List LogCall) (c : LogCall) :
    logHistory (calls ++ [c]) = (logHistory calls).call c :=
  Machine.run_concat _ _ _ _

@[simp] theorem logRun_concat (buf : Mem) (capacity : UInt16) (calls : List LogCall)
    (c : LogCall) :
    logRun buf capacity (calls ++ [c]) = (logRun buf capacity calls).bind (LogRing.call · c) :=
  Machine.run_concat _ _ _ _

theorem removedByClear_concat (buf : Mem) (capacity : UInt16) (calls : List LogCall)
    (c : LogCall) {r : LogRing} (h : logRun buf capacity calls = some r) :
    removedByClear buf capacity (calls ++ [c]) = removedByClear buf capacity calls +
      (match c with | .clear => r.count.toNat | .push _ => 0) := by
  have hrun : Machine.run logStep (some (LogRing.logRingInit buf capacity)) calls = some r := h
  unfold removedByClear
  rw [Machine.collect_concat, hrun, List.sum_append]
  cases c <;> simp [clearNote]

theorem length_logIssued (calls : List LogCall) :
    (logIssued calls).length = (logHistory calls).pushes := by
  rw [logIssued, List.length_mapIdx]
  induction calls using List.reverseRecOn with
  | nil => rfl
  | append_singleton calls c ih =>
    rw [logHistory_concat, List.filterMap_append, List.length_append, ih]
    cases c <;> rfl

theorem pushes_replicate (n : ℕ) (e : LogEntry) :
    (logHistory (List.replicate n (.push e))).pushes = n := by
  have hentries : (List.replicate n (LogCall.push e)).filterMap LogCall.entry? =
    List.replicate n e :=
    List.filterMap_replicate_of_some rfl
  rw [← length_logIssued, logIssued, List.length_mapIdx, hentries, List.length_replicate]

theorem logIssued_push (calls : List LogCall) (e : LogEntry) :
    logIssued (calls ++ [.push e]) =
      logIssued calls ++ [⟨e, UInt32.ofNat ((logHistory calls).pushes + 1)⟩] := by
  rw [← length_logIssued, logIssued, List.filterMap_append, List.mapIdx_append, logIssued,
    List.length_mapIdx]
  simp [LogCall.entry?]

theorem logIssued_clear (calls : List LogCall) :
    logIssued (calls ++ [.clear]) = logIssued calls := by
  rw [logIssued, List.filterMap_append, logIssued]
  exact congrArg _ (List.append_nil _)

/-- The records since the last clear are the last ones pushed. -/
theorem recent_suffix_issued (calls : List LogCall) :
    (logHistory calls).recent <:+ logIssued calls := by
  induction calls using List.reverseRecOn with
  | nil => exact List.nil_suffix
  | append_singleton calls c ih =>
    rw [logHistory_concat]
    cases c with
    | push e =>
      rw [logIssued_push]
      obtain ⟨old, hold⟩ := ih
      exact ⟨old, by rw [← hold, List.append_assoc]; rfl⟩
    | clear => exact List.nil_suffix

/-- The records are numbered from 1, as long as the numbers do not wrap. -/
theorem logIssued_numbers (calls : List LogCall) (h : (logHistory calls).pushes < 4294967296) :
    (logIssued calls).map (fun x => x.seq.toNat) = List.range' 1 (logHistory calls).pushes := by
  refine List.ext_getElem (by simp [length_logIssued]) fun i hi hi' => ?_
  have hlt : i + 1 < 2 ^ 32 := by
    rw [List.length_range'] at hi'
    omega
  simpa [logIssued, Nat.add_comm] using hlt

theorem LogHistory.pushes_le_call (h : LogHistory) (c : LogCall) :
    h.pushes ≤ (h.call c).pushes := by
  cases c with
  | push e => exact Nat.le_succ _
  | clear => exact le_refl _

theorem logHistory_pushes_mono {calls calls' : List LogCall} (h : calls <+: calls') :
    (logHistory calls).pushes ≤ (logHistory calls').pushes := by
  obtain ⟨new, rfl⟩ := h
  rw [← length_logIssued, ← length_logIssued]
  simp [logIssued]

theorem logHistory_pushes_le (calls : List LogCall) : (logHistory calls).pushes ≤ calls.length := by
  induction calls using List.reverseRecOn with
  | nil => exact le_refl _
  | append_singleton calls c ih =>
    rw [logHistory_concat, List.length_append]
    cases c with
    | push e =>
      change (logHistory calls).pushes + 1 ≤ calls.length + 1
      omega
    | clear =>
      change (logHistory calls).pushes ≤ calls.length + 1
      omega

/-- The ring keeps the newest records of the history, and its counters agree with it;
    `removed` records were removed by clears. -/
structure LogRing.Follows (r : LogRing) (h : LogHistory) (removed : ℕ) : Prop where
  capacity_ge : 78 ≤ r.capacity.toNat
  kept : ∃ old, old ≤ h.recent.length ∧ r.Placed ((h.recent.drop old).map LogRecord.bytes)
  numbered : h.recent.map (fun x => x.seq.toNat) =
    List.range' (h.pushes + 1 - h.recent.length) h.recent.length
  recent_le : h.recent.length ≤ h.pushes
  nextSeq_eq : r.nextSeq.toNat = h.pushes + 1
  firstSeq_eq : r.firstSeq.toNat = h.pushes + 1 - r.count.toNat
  total : h.pushes = r.count.toNat + r.overwritten.toNat + removed

namespace LogRing

theorem follows_init (buf : Mem) (capacity : UInt16) (hcap : 78 ≤ capacity.toNat) :
    (logRingInit buf capacity).Follows ⟨0, []⟩ 0 where
  capacity_ge := hcap
  kept := ⟨0, le_refl _, placed_init buf capacity (by omega)⟩
  numbered := rfl
  recent_le := le_refl _
  nextSeq_eq := rfl
  firstSeq_eq := rfl
  total := rfl

theorem Follows.clear {r : LogRing} {h : LogHistory} {removed : ℕ} (hf : r.Follows h removed) :
    r.logRingClear.Follows (h.call .clear) (removed + r.count.toNat) where
  capacity_ge := hf.capacity_ge
  kept := ⟨0, le_refl _, placed_clear r (by have := hf.capacity_ge; omega)⟩
  numbered := rfl
  recent_le := Nat.zero_le _
  nextSeq_eq := hf.nextSeq_eq
  firstSeq_eq := hf.nextSeq_eq
  total := by
    have := hf.total
    change h.pushes = 0 + r.overwritten.toNat + (removed + r.count.toNat)
    omega

theorem toNat_add_ofNat {a : UInt32} {k : ℕ} (h : a.toNat + k < 4294967296) :
    (a + UInt32.ofNat k).toNat = a.toNat + k := by
  rw [UInt32.toNat_add, UInt32.toNat_ofNat', Nat.mod_eq_of_lt (by omega : k < 2 ^ 32)]
  exact Nat.mod_eq_of_lt h

/-- **A push** follows the history as long as the sequence numbers do not wrap. -/
theorem Follows.push {r : LogRing} {h : LogHistory} {removed : ℕ} (hf : r.Follows h removed)
    (e : LogEntry) (hlt : h.pushes + 2 < 4294967296) :
    ∃ r', r.call (.push e) = some r' ∧ r'.Follows (h.call (.push e)) removed := by
  obtain ⟨old, hold, hplaced⟩ := hf.kept
  obtain ⟨k, r', hk, hpush, hplaced', hcap, hnext, hover, hfirst, -⟩ :=
    logRingPush_placed hplaced e (e.needed_le.trans hf.capacity_ge)
  have hcount : r.count.toNat = h.recent.length - old := by
    rw [hplaced.count_eq, List.length_map, List.length_drop]
  rw [List.length_map, List.length_drop] at hk hfirst
  have hseq : r.nextSeq = UInt32.ofNat (h.pushes + 1) := by
    apply UInt32.toNat_inj.mp
    rw [hf.nextSeq_eq, UInt32.toNat_ofNat', Nat.mod_eq_of_lt (by omega)]
  have hrecent : (h.call (.push e)).recent = h.recent ++ [⟨e, r.nextSeq⟩] := by
    rw [hseq]
    rfl
  have hpushes : (h.call (.push e)).pushes = h.pushes + 1 := rfl
  have hcells : ((h.recent.drop old).map LogRecord.bytes).drop k ++ [e.encode r.nextSeq] =
      ((h.recent ++ [(⟨e, r.nextSeq⟩ : LogRecord)]).drop (old + k)).map LogRecord.bytes := by
    rw [← List.map_drop, List.drop_drop, List.drop_append_of_le_length (by omega), List.map_append]
    rfl
  rw [hcells] at hplaced'
  have hcount' : r'.count.toNat = h.recent.length - (old + k) + 1 := by
    rw [hplaced'.count_eq, List.length_map, List.length_drop, List.length_append,
      List.length_singleton]
    omega
  have hrl := hf.recent_le
  have htot := hf.total
  have hfs := hf.firstSeq_eq
  refine ⟨r', by simp [LogRing.call, hpush], ?_⟩
  constructor
  · rw [hcap]
    exact hf.capacity_ge
  · rw [hrecent]
    exact ⟨old + k, by rw [List.length_append, List.length_singleton]; omega, hplaced'⟩
  · rw [hrecent, hpushes, List.map_append, hf.numbered, List.length_append, List.length_singleton,
      List.range'_concat]
    have hlast : r.nextSeq.toNat = h.pushes + 1 := hf.nextSeq_eq
    simp only [List.map_cons, List.map_nil, hlast, Nat.add_sub_add_right, Nat.one_mul]
    rw [show h.pushes + 1 - h.recent.length + h.recent.length = h.pushes + 1 by omega]
  · rw [hrecent, hpushes, List.length_append, List.length_singleton]
    omega
  · rw [hnext, hpushes]
    exact toNat_add_ofNat (k := 1) (by rw [hf.nextSeq_eq]; omega) |>.trans (by rw [hf.nextSeq_eq])
  · rw [hfirst, hpushes, hcount']
    split_ifs with hall
    · rw [hf.nextSeq_eq]
      omega
    · rw [toNat_add_ofNat (by omega), hfs]
      omega
  · rw [hpushes, hcount', hover, toNat_add_ofNat (by omega)]
    omega

end LogRing

/-- A call does not move the first number back. -/
theorem LogRing.Follows.firstSeq_le {r r' : LogRing} {h : LogHistory} {removed removed' : ℕ}
    {c : LogCall} (hf : r.Follows h removed) (hcall : r.call c = some r')
    (hf' : r'.Follows (h.call c) removed') : r.firstSeq.toNat ≤ r'.firstSeq.toNat := by
  have hfirst := hf.firstSeq_eq
  have hfirst' := hf'.firstSeq_eq
  cases c with
  | push e =>
    obtain ⟨old, hold, hplaced⟩ := hf.kept
    obtain ⟨k, r'', hk, hpush, hplaced', -⟩ :=
      logRingPush_placed hplaced e (e.needed_le.trans hf.capacity_ge)
    obtain rfl : r'' = r' := by simpa [LogRing.call, hpush] using hcall
    have hcount := hplaced.count_eq
    have hcount' := hplaced'.count_eq
    rw [List.length_append, List.length_drop, List.length_singleton] at hcount'
    have hpushes : (h.call (.push e)).pushes = h.pushes + 1 := rfl
    omega
  | clear =>
    obtain rfl : r.logRingClear = r' := Option.some.inj hcall
    have hpushes : (h.call .clear).pushes = h.pushes := rfl
    have hzero : r.logRingClear.count.toNat = 0 := rfl
    omega

/-- Every run succeeds, and its ring follows the history of the calls. -/
theorem logRun_follows (buf : Mem) (capacity : UInt16) (hcap : 78 ≤ capacity.toNat)
    (calls : List LogCall) (hpushes : (logHistory calls).pushes < 4294967295) :
    ∃ r, logRun buf capacity calls = some r ∧
      r.Follows (logHistory calls) (removedByClear buf capacity calls) := by
  induction calls using List.reverseRecOn with
  | nil => exact ⟨_, rfl, LogRing.follows_init buf capacity hcap⟩
  | append_singleton calls c ih =>
    have hle : (logHistory calls).pushes ≤ (logHistory (calls ++ [c])).pushes := by
      rw [logHistory_concat]
      exact LogHistory.pushes_le_call _ c
    obtain ⟨r, hrun, hf⟩ := ih (by omega)
    rw [logRun_concat, logHistory_concat, removedByClear_concat buf capacity calls c hrun, hrun,
      Option.bind_some]
    cases c with
    | push e =>
      rw [logHistory_concat] at hpushes
      have hpush : ((logHistory calls).call (.push e)).pushes = (logHistory calls).pushes + 1 := rfl
      exact hf.push e (by omega)
    | clear => exact ⟨_, rfl, hf.clear⟩

/-- The records in the ring are the newest `count` of the history, with the numbers from
    `first_seq` on. -/
theorem LogRing.Follows.stored {r : LogRing} {h : LogHistory} {removed : ℕ}
    (hf : r.Follows h removed) :
    r.count.toNat ≤ h.recent.length ∧ r.Placed
    ((h.recent.rtake r.count.toNat).map LogRecord.bytes) ∧
      (h.recent.rtake r.count.toNat).map (fun x => x.seq.toNat) =
        List.range' r.firstSeq.toNat r.count.toNat := by
  obtain ⟨old, hold, hplaced⟩ := hf.kept
  have hcount : r.count.toNat = h.recent.length - old := by
    rw [hplaced.count_eq, List.length_map, List.length_drop]
  have hrtake : h.recent.rtake r.count.toNat = h.recent.drop old := by
    rw [List.rtake, hcount]
    congr 1
    omega
  have hrl := hf.recent_le
  have hfirst := hf.firstSeq_eq
  refine ⟨by omega, by rw [hrtake]; exact hplaced, ?_⟩
  rw [hrtake, List.map_drop, hf.numbered, List.drop_range']
  congr 1
  · omega
  · omega

/-- **The log ring is a drop-oldest queue.** For every capacity from 78 bytes on and
    every run of fewer than `2^32 - 1` calls, the ring exists (no access leaves the
    buffer and every push ends). A full iteration shows exactly the `count` newest
    records pushed since the last clear, oldest first, with consecutive numbers from
    `first_seq` to `next_seq - 1`. Every push is in the ring, was overwritten, or was
    removed by a clear; and whatever is pushed next, a record is evicted for it only
    while it does not fit in one piece into the bytes that are accounted as free. -/
theorem logRing_drop_oldest (buf : Mem) (capacity : UInt16) (hcap : 78 ≤ capacity)
    (calls : List LogCall) (hlen : calls.length < 2 ^ 32 - 1) :
    ∃ r, logRun buf capacity calls = some r ∧
      r.count.toNat ≤ (logHistory calls).recent.length ∧
      (∃ views, r.contents = some views ∧
        List.Forall₂ (LogView.Shows r) views ((logHistory calls).recent.rtake r.count.toNat)) ∧
      ((logHistory calls).recent.rtake r.count.toNat).map (fun x => x.seq.toNat) =
        List.range' r.firstSeq.toNat r.count.toNat ∧
      r.nextSeq.toNat = r.firstSeq.toNat + r.count.toNat ∧
      (logHistory calls).pushes =
        r.count.toNat + r.overwritten.toNat + removedByClear buf capacity calls ∧
      ∀ e, ∃ k r', r.logRingPush e = some (r.nextSeq, r') ∧ k ≤ r.count.toNat ∧
        r'.overwritten = r.overwritten + UInt32.ofNat k ∧
        ∀ j < k, ∃ q, LogRing.discards j r = some q ∧ ¬ q.FitsContiguously e.needed.toNat := by
  obtain ⟨r, hrun, hf⟩ := logRun_follows buf capacity (UInt16.le_iff_toNat_le.mp hcap) calls
    ((logHistory_pushes_le calls).trans_lt hlen)
  obtain ⟨hle, hplaced, hnumbers⟩ := hf.stored
  have hrl := hf.recent_le
  have hfirst := hf.firstSeq_eq
  have hnext := hf.nextSeq_eq
  refine ⟨r, hrun, hle, LogRing.contents_placed hplaced, hnumbers, by omega, hf.total, fun e => ?_⟩
  obtain ⟨k, r', hk, hpush, -, -, -, hover, -, hall⟩ :=
    LogRing.logRingPush_placed hplaced e (e.needed_le.trans hf.capacity_ge)
  rw [← hplaced.count_eq] at hk
  exact ⟨k, r', hpush, hk, hover, hall⟩

/-- A start message with one argument and no text. -/
def startEntry : LogEntry where
  level := 3
  module := 1
  eventId := 7
  uptimeMs := 1500
  args := some (fun _ => 42)
  argc := 1
  text := none

/-- The smallest ring after a push, a clear and another push: three calls, two pushes,
    each of them accounted for. -/
theorem logRing_drop_oldest_smallest :
    ∃ r, logRun (fun _ => 0) 78 [.push startEntry, .clear, .push startEntry] = some r ∧
      2 = r.count.toNat + r.overwritten.toNat +
        removedByClear (fun _ => 0) 78 [.push startEntry, .clear, .push startEntry] := by
  obtain ⟨r, hrun, -, -, -, -, htotal, -⟩ := logRing_drop_oldest (fun _ => 0) 78 (by decide)
    [.push startEntry, .clear, .push startEntry] (by decide)
  exact ⟨r, hrun, htotal⟩

end Fountainer.Logging
