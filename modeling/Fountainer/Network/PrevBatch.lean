import Fountainer.Logging.FlashReplay
import Fountainer.Network.LogBatch

/-!
# The log pull for the previous boot

`task_com_fill_log_batch` with `prev_boot`. The records of the previous boot are read from their
start at every poll, so what is behind the first batch of its level is out of reach.
-/

namespace Fountainer.Network

open Logging

/-- The body of `log_batch` for a previous boot. -/
structure LogPrevBatch where
  bootId : UInt32
  available : Bool
  records : List LogWire
  deriving DecidableEq, Repr

/-- A request, with what the answer depends on besides: whether the buffer could be allocated and
    whether the link is poor. -/
structure LogReadPrev where
  alloc : Bool
  poor : Bool
  sinceSeq : UInt32
  minLevel : UInt8
  maxRecords : UInt16
  deriving DecidableEq, Repr

/-- `task_com_fill_log_batch` with `prev_boot`. -/
def taskComFillLogBatchPrev (crc : List UInt8 → UInt32) (s : FlashStore) (q : LogReadPrev) :
    LogPrevBatch :=
  let maxRecords := if q.maxRecords > logBatchMax then logBatchMax else q.maxRecords
  let records :=
    if s.prevAvailable && q.alloc then s.readPreviousBoot crc q.minLevel maxRecords.toNat else []
  { bootId := if s.prevAvailable then s.prevBootId else 0
    available := s.prevAvailable
    records :=
      fillRecords (if q.poor then logBatchByteBudgetPoor else logBatchByteBudget) 0 records }

/-- A budget with room for records of the largest size keeps these, whatever comes behind them. -/
theorem fillRecords_first {budget bytes : ℕ} {rs : List LogRecordT} (more : List LogRecordT)
    (hrs : ∀ r ∈ rs, r.WellFormed) (hbudget : bytes + 159 * rs.length ≤ budget) :
    rs.map recordObject <+: fillRecords budget bytes (rs ++ more) := by
  induction rs generalizing bytes with
  | nil => exact List.nil_prefix
  | cons r rs ih =>
    obtain ⟨hargc, hshort, -⟩ := hrs r List.mem_cons_self
    have hsize : serializedSize r ≤ 159 := by
      simp only [logRingMaxArgs, logRingMaxText] at hargc hshort
      rw [serializedSize]
      omega
    rw [List.length_cons] at hbudget
    rw [List.cons_append, fillRecords, if_neg (by omega), List.map_cons, List.prefix_cons_inj]
    exact ih (fun y hy => hrs y (List.mem_cons_of_mem _ hy)) (by omega)

/-- An entry of a filtered list, with as many before it there as pass the filter before it. -/
theorem filter_getElem_split {α : Type*} {p : α → Bool} {l : List α} {i : ℕ} {x : α}
    (h : (l.filter p)[i]? = some x) :
    ∃ before after, l = before ++ x :: after ∧ (before.filter p).length = i ∧ p x = true := by
  obtain ⟨hi, hx⟩ := List.getElem?_eq_some_iff.mp h
  have hsplit : l.filter p = (l.filter p).take i ++ x :: (l.filter p).drop (i + 1) := by
    rw [← hx, List.getElem_cons_drop, List.take_append_drop]
  obtain ⟨l₁, l₂, rfl, hl₁, hl₂⟩ := List.filter_eq_append_iff.mp hsplit
  obtain ⟨m₁, m₂, rfl, hm₁, hpx, -⟩ := List.filter_eq_cons_iff.mp hl₂
  refine ⟨l₁ ++ m₁, m₂, by rw [List.append_assoc], ?_, hpx⟩
  have hnone : m₁.filter p = [] := List.filter_eq_nil_iff.mpr hm₁
  rw [List.filter_append, hl₁, hnone, List.append_nil, List.length_take]
  omega

/-- An entry that passes the filter is among the first `n` when fewer than `n` before it do. -/
theorem mem_take_filter {α : Type*} {p : α → Bool} {before after : List α} {x : α} {n : ℕ}
    (hx : p x = true) (hcount : (before.filter p).length < n) :
    x ∈ ((before ++ x :: after).filter p).take n := by
  rw [List.filter_append, List.filter_cons_of_pos hx, List.take_append]
  refine List.mem_append_right _ ?_
  obtain ⟨k, hk⟩ : ∃ k, n - (before.filter p).length = k + 1 :=
    ⟨n - (before.filter p).length - 1, by omega⟩
  rw [hk, List.take_succ_cons]
  exact List.mem_cons_self

section

variable {crc : List UInt8 → UInt32}
  {hcrc : crc (List.replicate logRecordSize 0xFF) ≠ 0xFFFFFFFF} {b : BootLog} {s : FlashStore}
  {earlier later : List LogRecordT} {x : LogRecordT}

/-- The first batch of the level of a record has it, if it stands among the first of that level. -/
theorem firstBatch_has (hkept : b.Kept hcrc s.mem) (havail : s.prevAvailable = true)
    (hpart : s.partition = true) (hslot : b.slot = (!s.own))
    (hsplit : b.persisted = earlier ++ x :: later)
    (hcount : (earlier.filter fun y => y.level ≤ x.level).length < logBatchMax.toNat) :
    recordObject x ∈
      (taskComFillLogBatchPrev crc s ⟨true, false, 0, x.level, logBatchMax⟩).records := by
  obtain ⟨-, hlevel, -⟩ := hkept.genuine x (hkept.sublist.subset (by rw [hsplit]; simp))
  have hwanted : LogRing.wantedLevel x.level = x.level := if_neg hlevel
  -- The batch starts with what was written before any write failed.
  obtain ⟨more, hread⟩ := (hkept.readPreviousBoot havail hpart hslot x.level logBatchMax.toNat).1
  rw [hwanted] at hread
  have hrecords : (taskComFillLogBatchPrev crc s ⟨true, false, 0, x.level, logBatchMax⟩).records =
      fillRecords logBatchByteBudget 0
        ((b.persisted.filter fun y => y.level ≤ x.level).take logBatchMax.toNat ++ more) := by
    simp only [taskComFillLogBatchPrev, havail, Bool.and_true, if_true, gt_iff_lt, ite_self,
      Bool.false_eq_true, if_false]
    rw [hread]
  rw [hrecords]
  refine (fillRecords_first more (fun r hr => ?_) ?_).subset (List.mem_map_of_mem ?_)
  · have hmem := (List.mem_filter.mp (List.take_subset _ _ hr)).1
    exact (hkept.genuine r (hkept.sublist.subset hmem)).2.2
  · rw [List.length_take]
    have hmax : logBatchMax.toNat = 128 := rfl
    simp only [logBatchByteBudget]
    omega
  · rw [hsplit]
    exact mem_take_filter (by simp) hcount

theorem maxRecords_le (q : LogReadPrev) :
    (if q.maxRecords > logBatchMax then logBatchMax else q.maxRecords).toNat ≤
      logBatchMax.toNat := by
  split
  · exact le_rfl
  · next h => exact UInt16.le_iff_toNat_le.mp (UInt16.not_lt.mp h)

/-- Without a failed write every batch has records that stand among the first of their level. -/
theorem batch_among_first (hkept : b.Kept hcrc s.mem) (havail : s.prevAvailable = true)
    (hpart : s.partition = true) (hslot : b.slot = (!s.own)) (hintact : b.intact = true)
    {q : LogReadPrev} {w : LogWire} (hw : w ∈ (taskComFillLogBatchPrev crc s q).records) :
    ∃ earlier x later, b.persisted = earlier ++ x :: later ∧ w = recordObject x ∧
      (earlier.filter fun y => y.level ≤ x.level).length < logBatchMax.toNat := by
  have hread (minLevel : UInt8) (max : ℕ) : s.readPreviousBoot crc minLevel max =
      (b.persisted.filter fun x => x.level ≤ LogRing.wantedLevel minLevel).take max :=
    (hkept.readPreviousBoot havail hpart hslot minLevel max).2 hintact
  have hmax := maxRecords_le q
  have hmem := (fillRecords_extends _ _ _).subset hw
  by_cases hq : (s.prevAvailable && q.alloc) = true
  swap
  · rw [if_neg hq] at hmem
    cases hmem
  rw [if_pos hq, hread] at hmem
  obtain ⟨x, hx, rfl⟩ := List.mem_map.mp hmem
  obtain ⟨i, hi, hxi⟩ := List.mem_iff_getElem.mp hx
  rw [List.length_take] at hi
  have hget : (b.persisted.filter fun x =>
      x.level ≤ LogRing.wantedLevel q.minLevel)[i]? = some x := by
    rw [← hxi, List.getElem_take, List.getElem?_eq_getElem]
  obtain ⟨earlier, later, hsplit, hcount, hlevel⟩ := filter_getElem_split hget
  refine ⟨earlier, x, later, hsplit, rfl, ?_⟩
  -- The level of the request lets through what the level of the record does.
  have hle : (earlier.filter fun y => y.level ≤ x.level).length ≤
      (earlier.filter fun y => y.level ≤ LogRing.wantedLevel q.minLevel).length := by
    rw [← List.countP_eq_length_filter, ← List.countP_eq_length_filter]
    refine List.countP_mono_left fun y _ hy => ?_
    simp only [decide_eq_true_eq] at hy hlevel ⊢
    exact UInt8.le_trans hy hlevel
  omega

end

/-- **What the server can get of a previous boot**: it can ask for every record of that boot that
    was written before any write failed and that has fewer than `LOG_BATCH_MAX` records of its level
    or a more severe one before it. If no write failed, there is no other record in any answer,
    however often it asks; the cursor of the request has no effect. -/
theorem prev_batch_reach {crc : List UInt8 → UInt32}
    (hcrc : crc (List.replicate logRecordSize 0xFF) ≠ 0xFFFFFFFF) (before rest : List StoreOp)
    (bootId : UInt32) (level : UInt8) (hrest : ∀ op ∈ rest, op.flashOp? = none)
    (hdistinct : (bootIds ((before ++ .boot bootId level (.completed true) :: rest).filterMap
      StoreOp.flashOp?)).Nodup)
    (hfew : (bootIds ((before ++ .boot bootId level (.completed true) :: rest).filterMap
      StoreOp.flashOp?)).length < 2 ^ 32)
    {b : BootLog} (hb : (storeRun crc before).last = some b) :
    let s := (storeRun crc (before ++ .boot bootId level (.completed true) :: rest)).store
    (∀ earlier x later, b.persisted = earlier ++ x :: later →
      (earlier.filter fun y => y.level ≤ x.level).length < logBatchMax.toNat →
      ∃ q, recordObject x ∈ (taskComFillLogBatchPrev crc s q).records) ∧
    (b.intact = true → ∀ q, ∀ w ∈ (taskComFillLogBatchPrev crc s q).records,
      ∃ earlier x later, b.persisted = earlier ++ x :: later ∧ w = recordObject x ∧
        (earlier.filter fun y => y.level ≤ x.level).length < logBatchMax.toNat) := by
  intro s
  obtain ⟨havailable, hpart, -, hslot, hkept⟩ :=
    previous_kept hcrc before rest bootId level hrest hdistinct hfew hb
  constructor
  · intro earlier x later hsplit hcount
    exact ⟨_, firstBatch_has hkept havailable hpart hslot hsplit hcount⟩
  · intro hintact q w hw
    exact batch_among_first hkept havailable hpart hslot hintact hw

/-- Record `i` of a boot that writes 128 records of level `INFO`, one of level `WARN` and another
    one of level `INFO`. -/
def mixedRecord (i : ℕ) : LogRecordT :=
  flashRecord 7 (UInt32.ofNat i) { startEntry with level := if i = 128 then 2 else 3 }

/-- That boot. -/
def mixedBoot : List StoreOp :=
  .boot 7 3 (.completed true) :: (List.range 130).flatMap fun i =>
    [.emit (UInt32.ofNat i) { startEntry with level := if i = 128 then 2 else 3 }, .task .ok]

theorem mixedBoot_last : (storeRun crc32 mixedBoot).last =
    some ⟨7, false, (List.range 130).map mixedRecord, (List.range 130).map mixedRecord,
      true, 0⟩ := by
  set_option maxRecDepth 100000 in rfl

/-- The warning is within reach behind 128 records of a lower level; the last record is not. -/
theorem prev_batch_reach_mixed :
    (∃ q, recordObject (mixedRecord 128) ∈ (taskComFillLogBatchPrev crc32
      (storeRun crc32 (mixedBoot ++ [.boot 8 2 (.completed true)])).store q).records) ∧
    ∀ q, recordObject (mixedRecord 129) ∉ (taskComFillLogBatchPrev crc32
      (storeRun crc32 (mixedBoot ++ [.boot 8 2 (.completed true)])).store q).records := by
  have hids :
    bootIds ((mixedBoot ++ [StoreOp.boot 8 2 (.completed true)]).filterMap StoreOp.flashOp?) =
      [7, 8] := by
    decide +kernel
  obtain ⟨hin, hout⟩ := prev_batch_reach crc32_erased mixedBoot [] 8 2 (by simp)
    (by rw [hids]; decide) (by rw [hids]; decide) mixedBoot_last
  constructor
  · exact hin ((List.range 128).map mixedRecord) (mixedRecord 128) [mixedRecord 129] rfl
      (by decide +kernel)
  · intro q hw
    obtain ⟨earlier, x, later, hsplit, hx, hcount⟩ := hout rfl q _ hw
    have hlen : earlier.length < 130 := by
      have := congrArg List.length hsplit
      simp only [List.length_map, List.length_range, List.length_append, List.length_cons] at this
      omega
    -- The number of the record says where it stands.
    have hget : x = mixedRecord earlier.length := by
      have := congrArg (·[earlier.length]?) hsplit
      simp [hlen] at this
      exact this.symm
    have hseq : UInt32.ofNat 129 = UInt32.ofNat earlier.length := by
      rw [hget] at hx
      exact congrArg LogWire.s hx
    have hat : earlier.length = 129 := by
      have := congrArg UInt32.toNat hseq
      rw [UInt32.toNat_ofNat', UInt32.toNat_ofNat'] at this
      omega
    have hearlier : earlier = (List.range 129).map mixedRecord := by
      have := congrArg (List.take 129) hsplit
      rw [← hat, List.take_left] at this
      rw [← this, hat]
      rfl
    rw [hearlier, hget, hat] at hcount
    exact absurd hcount (by decide +kernel)

end Fountainer.Network
