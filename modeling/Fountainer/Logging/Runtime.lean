import Fountainer.Logging.ReadSince

/-!
# The runtime log

`logging_core.c`: the ring behind its store gate, and the `logging` facade of `debug.c` in front
of it. The acknowledgement of the previous boot's records, `logging_ack_previous_boot`, is here
too.
-/

namespace Fountainer.Logging

open Bytes

/-- `LOG_LEVEL_ERROR`. -/
def logLevelError : UInt8 := 1

/-- `LOG_LEVEL_WARN`. -/
def logLevelWarn : UInt8 := 2

/-- `LOG_LEVEL_INFO`. -/
def logLevelInfo : UInt8 := 3

/-- `LOG_LEVEL_DEBUG`. -/
def logLevelDebug : UInt8 := 4

/-- `debug_level_t`, as far as `logging` is called with it. -/
inductive DebugLevel where
  | verbose
  | medium
  | low
  deriving DecidableEq, Repr

def DebugLevel.value : DebugLevel → UInt8
  | .verbose => 1
  | .medium => 2
  | .low => 3

/-- `aeMap`. -/
def DebugLevel.logLevel : DebugLevel → UInt8
  | .verbose => logLevelTrace
  | .medium => logLevelDebug
  | .low => logLevelInfo

/-- The ring of `logging_core.c`, the flags of its gate, and the threshold of `logging`. The ring
    is laid out as `log_ring.c` keeps it, so that no push can fail. -/
@[ext] structure RuntimeLog where
  ring : LogRing
  enabled : Bool
  runtimeLevel : UInt8
  threshold : UInt8
  placed : ∃ cells, ring.Placed cells
  room : 78 ≤ ring.capacity.toNat

namespace RuntimeLog

/-- `logging_is_enabled_fast`. -/
def isEnabledFast (l : RuntimeLog) (level : UInt8) : Bool :=
  l.enabled && level != 0 && decide (level ≤ l.runtimeLevel)

theorem exists_push (l : RuntimeLog) (e : LogEntry) :
    ∃ r, l.ring.logRingPush e = some (l.ring.nextSeq, r) ∧ (∃ cells, r.Placed cells) ∧
      78 ≤ r.capacity.toNat ∧ r.nextSeq = l.ring.nextSeq + 1 := by
  obtain ⟨cells, hcells⟩ := l.placed
  obtain ⟨k, r, -, hpush, hplaced, hcap, hnext, -⟩ :=
    LogRing.logRingPush_placed hcells e (e.needed_le.trans l.room)
  exact ⟨r, hpush, ⟨_, hplaced⟩, hcap ▸ l.room, hnext⟩

theorem isSome_push (l : RuntimeLog) (e : LogEntry) : (l.ring.logRingPush e).isSome := by
  obtain ⟨r, hr, -⟩ := l.exists_push e
  rw [hr]
  rfl

/-- The push of `logging_emit`. -/
def push (l : RuntimeLog) (e : LogEntry) : RuntimeLog where
  ring := ((l.ring.logRingPush e).get (l.isSome_push e)).2
  enabled := l.enabled
  runtimeLevel := l.runtimeLevel
  threshold := l.threshold
  placed := by
    obtain ⟨r, hr, hplaced, -⟩ := l.exists_push e
    simpa only [hr, Option.get_some] using hplaced
  room := by
    obtain ⟨r, hr, -, hroom, -⟩ := l.exists_push e
    simpa only [hr, Option.get_some] using hroom

@[simp] theorem push_nextSeq (l : RuntimeLog) (e : LogEntry) :
    (l.push e).ring.nextSeq = l.ring.nextSeq + 1 := by
  obtain ⟨r, hr, -, -, hnext⟩ := l.exists_push e
  simp only [push, hr, Option.get_some, hnext]

/-- `logging_emit` without arguments. -/
def emit (l : RuntimeLog) (uptimeMs : UInt32) (level module : UInt8) (eventId : UInt16)
    (text : CString) : RuntimeLog :=
  if l.isEnabledFast level then
    l.push { level, module, eventId, uptimeMs, args := none, argc := 0, text := some text }
  else l

/-- `logging`: a line of text in the log, when its level passes the threshold. -/
def logging (l : RuntimeLog) (uptimeMs : UInt32) (level : DebugLevel) (tag msg : CString) :
    RuntimeLog :=
  if level.value < l.threshold then l
  else l.emit uptimeMs level.logLevel 7 1 (tag.take 14 ++ ⟨[58, 32], by simp⟩ ++ msg.take 31)

/-- `logging` at `DBG_LVL_LOW` stores a record. -/
def storesLow (l : RuntimeLog) : Bool :=
  decide (l.threshold ≤ DebugLevel.low.value) && l.isEnabledFast logLevelInfo

/-- `logging_clear_runtime`. -/
def clear (l : RuntimeLog) : RuntimeLog where
  ring := l.ring.logRingClear
  enabled := l.enabled
  runtimeLevel := l.runtimeLevel
  threshold := l.threshold
  placed := ⟨[], LogRing.placed_clear _ (Nat.lt_of_lt_of_le (by decide) l.room)⟩
  room := l.room

/-- `logging_init_early`, over the buffer that the ring is given. -/
def loggingInitEarly (buf : Mem) : RuntimeLog where
  ring := LogRing.logRingInit buf 32768
  enabled := true
  runtimeLevel := logLevelInfo
  threshold := DebugLevel.verbose.value
  placed := ⟨[], LogRing.placed_init buf 32768 (by decide)⟩
  room := show 78 ≤ (32768 : UInt16).toNat by decide

/-- `k` records have been pushed. -/
structure Appended (l l' : RuntimeLog) (k : ℕ) : Prop where
  nextSeq : l'.ring.nextSeq = l.ring.nextSeq + UInt32.ofNat k
  enabled : l'.enabled = l.enabled
  runtimeLevel : l'.runtimeLevel = l.runtimeLevel
  threshold : l'.threshold = l.threshold
  same : k = 0 → l' = l

theorem Appended.refl (l : RuntimeLog) : Appended l l 0 :=
  ⟨by simp, rfl, rfl, rfl, fun _ => rfl⟩

theorem Appended.trans {l l' l'' : RuntimeLog} {k k' : ℕ} (h : Appended l l' k)
    (h' : Appended l' l'' k') : Appended l l'' (k + k') where
  nextSeq := by rw [h'.nextSeq, h.nextSeq, UInt32.ofNat_add, UInt32.add_assoc]
  enabled := h'.enabled.trans h.enabled
  runtimeLevel := h'.runtimeLevel.trans h.runtimeLevel
  threshold := h'.threshold.trans h.threshold
  same hk := (h'.same (by omega)).trans (h.same (by omega))

/-- The gate of a log to which records were pushed is the same. -/
theorem Appended.isEnabledFast {l l' : RuntimeLog} {k : ℕ} (h : Appended l l' k) (level : UInt8) :
    l'.isEnabledFast level = l.isEnabledFast level := by
  rw [RuntimeLog.isEnabledFast, RuntimeLog.isEnabledFast, h.enabled, h.runtimeLevel]

theorem Appended.storesLow {l l' : RuntimeLog} {k : ℕ} (h : Appended l l' k) :
    l'.storesLow = l.storesLow := by
  rw [RuntimeLog.storesLow, RuntimeLog.storesLow, h.threshold, h.isEnabledFast]

theorem appended_emit (l : RuntimeLog) (ms : UInt32) (level module : UInt8) (eventId : UInt16)
    (text : CString) :
    Appended l (l.emit ms level module eventId text) (if l.isEnabledFast level then 1 else 0) := by
  rw [emit]
  split_ifs
  · exact ⟨l.push_nextSeq _, rfl, rfl, rfl, fun h => by omega⟩
  · exact .refl l

theorem appended_logging (l : RuntimeLog) (ms : UInt32) (tag msg : CString) :
    Appended l (l.logging ms .low tag msg) (if l.storesLow then 1 else 0) := by
  by_cases hlevel : DebugLevel.low.value < l.threshold
  · have hclosed : l.storesLow = false := by simp [storesLow, UInt8.not_le.mpr hlevel]
    rw [logging, if_pos hlevel, hclosed]
    exact .refl l
  · have hopen : l.storesLow = l.isEnabledFast logLevelInfo := by
      simp [storesLow, UInt8.not_lt.mp hlevel]
    rw [logging, if_neg hlevel, hopen]
    exact l.appended_emit _ _ _ _ _

/-- Pushed records show in the next number. -/
theorem Appended.nextSeq_ne {l l' : RuntimeLog} {k : ℕ} (h : Appended l l' k) (hk : 0 < k)
    (hlt : k < 4294967296) : l'.ring.nextSeq ≠ l.ring.nextSeq := by
  intro heq
  have hnext := h.nextSeq
  rw [heq] at hnext
  have hmod : (UInt32.ofNat k).toNat = k := by simp; omega
  have hlt' := l.ring.nextSeq.toNat_lt
  have hsum := congrArg UInt32.toNat hnext
  rw [UInt32.toNat_add, hmod] at hsum
  omega

/-- An enabled level lets the more severe ones through. -/
theorem isEnabledFast_mono (l : RuntimeLog) {a b : UInt8} (ha : a ≠ 0) (hle : a ≤ b)
    (h : l.isEnabledFast b = true) : l.isEnabledFast a = true := by
  simp only [isEnabledFast, Bool.and_eq_true, bne_iff_ne, ne_eq, decide_eq_true_eq] at h ⊢
  exact ⟨⟨h.1.1, ha⟩, UInt8.le_trans hle h.2⟩

end RuntimeLog

/-- What `logging_flash.c` knows of the records of the previous boot: `s_bPrevAvailable`,
    `s_ulPrevBootId`, whether there is a partition, the acknowledgement flag in the header of
    their slot, where it can be read, and whether the flash can be written. -/
structure PrevBoot where
  available : Bool
  bootId : UInt32
  partition : Bool
  acked : Option UInt32
  writable : Bool
  deriving DecidableEq

/-- `logging_ack_previous_boot`. -/
def loggingAckPreviousBoot (p : PrevBoot) (bootId : UInt32) : Bool × PrevBoot :=
  if !p.available || !p.partition then (false, p)
  else if bootId ≠ 0 ∧ bootId ≠ p.bootId then (false, p)
  else
    match p.acked with
    | none => (false, p)
    | some _ =>
      if !p.writable then (false, p)
      else (true, { p with acked := some 0, available := false })

/-- There is a log of the previous boot, and its slot can be marked. -/
def PrevBoot.Acknowledgeable (p : PrevBoot) : Prop :=
  p.available = true ∧ p.partition = true ∧ p.acked ≠ none ∧ p.writable = true

instance (p : PrevBoot) : Decidable p.Acknowledgeable := inferInstanceAs (Decidable (_ ∧ _))

theorem loggingAckPreviousBoot_eq_self_iff (p : PrevBoot) :
    (loggingAckPreviousBoot p 0).2 = p ↔ ¬ p.Acknowledgeable := by
  obtain ⟨available, bootId, partition, acked, writable⟩ := p
  cases available <;> cases partition <;> cases acked <;> cases writable <;>
    simp [loggingAckPreviousBoot, PrevBoot.Acknowledgeable]

end Fountainer.Logging
