import Fountainer.Lib.NorLog
import Fountainer.Logging.ReadSince

/-!
# The entries of the flash log

`logging_emit` makes a `log_record_t` of each record for the flash tier, and `logf_task` appends
it with a checksum as a `logf_entry_t`. An image is such a record as it lies in memory; reading it
gives the record back.
-/

namespace Fountainer.Logging

open Bytes

/-- `sizeof(log_record_t)`. -/
def logRecordSize : ℕ := 84

/-- `sizeof(logf_entry_t)`. -/
def logfEntrySize : ℕ := 88

/-- `LOG_MAX_TEXT`. -/
def logMaxText : ℕ := 48

/-- The bytes of a `log_record_t`. -/
@[ext] structure LogImage where
  bytes : List UInt8
  length_bytes : bytes.length = logRecordSize
  deriving DecidableEq

/-- The text of a record in its array, with zeros behind it. -/
def textArray (text : List UInt8) : List UInt8 :=
  text.take logRingMaxText ++ List.replicate (logMaxText - (text.take logRingMaxText).length) 0

@[simp] theorem length_textArray (text : List UInt8) : (textArray text).length = logMaxText := by
  have hle : (text.take logRingMaxText).length ≤ logRingMaxText := List.length_take_le ..
  have hmax : logRingMaxText ≤ logMaxText := by decide
  rw [textArray, List.length_append, List.length_replicate]
  omega

/-- The record in memory: the fields in their order, three bytes of padding behind `ucArgc`. -/
def LogRecordT.image (x : LogRecordT) : LogImage where
  bytes := leU32 x.seq ++ leU32 x.bootId ++ leU32 x.uptimeMs ++ leU16 x.eventId ++
    [x.moduleId, x.level, x.argc, 0, 0, 0] ++
    (leU32 (x.args 0).toUInt32 ++ leU32 (x.args 1).toUInt32 ++ leU32 (x.args 2).toUInt32 ++
      leU32 (x.args 3).toUInt32) ++ textArray x.text
  length_bytes := by
    simp only [List.length_append, length_leU32, length_leU16, length_textArray, List.length_cons,
      List.length_nil]
    rfl

/-- The record at `off`. -/
def recordAtMem (m : Mem) (off : ℕ) : LogRecordT where
  seq := rdU32 m off
  bootId := rdU32 m (off + 4)
  uptimeMs := rdU32 m (off + 8)
  eventId := rdU16 m (off + 12)
  moduleId := m (off + 14)
  level := m (off + 15)
  argc := m (off + 16)
  args := fun i => (rdU32 m (off + 20 + 4 * i)).toInt32
  text := (read m (off + 36) logMaxText).takeWhile (· ≠ 0)

/-- The record of an image. -/
def LogImage.record (x : LogImage) : LogRecordT := recordAtMem (x.bytes.getD · 0) 0

/-- The record that `logging_emit` has for the flash tier. -/
def flashRecord (bootId seq : UInt32) (e : LogEntry) : LogRecordT where
  seq := seq
  bootId := bootId
  uptimeMs := e.uptimeMs
  eventId := e.eventId
  moduleId := e.module
  level := e.level
  argc := if e.argc > 4 then 4 else e.argc
  args := fun i => if (i : ℕ) < (if e.argc > 4 then 4 else e.argc).toNat then e.arg i else 0
  text := e.chars.take logRingMaxText

/-- `esp_rom_crc32_le` on one byte. -/
def crcByte (c : UInt32) (b : UInt8) : UInt32 :=
  (List.range 8).foldl (fun c _ => if c &&& 1 = 1 then (c >>> 1) ^^^ 0xEDB88320 else c >>> 1)
    (c ^^^ b.toUInt32)

/-- `esp_rom_crc32_le` from 0. -/
def crc32 (bs : List UInt8) : UInt32 := ~~~ bs.foldl crcByte 0xFFFFFFFF

theorem crc32_erased : crc32 (List.replicate logRecordSize 0xFF) ≠ 0xFFFFFFFF := by
  have hthird (c c' : UInt32) (h : (List.replicate 28 0xFF).foldl crcByte c = c')
    (bs : List UInt8) :
      (List.replicate 28 0xFF ++ bs).foldl crcByte c = bs.foldl crcByte c' := by
    rw [List.foldl_append, h]
  have hsplit : List.replicate logRecordSize (0xFF : UInt8) =
      List.replicate 28 0xFF ++ (List.replicate 28 0xFF ++ List.replicate 28 0xFF) := by decide
  rw [crc32, hsplit, hthird _ 2132597986 (by decide +kernel),
    hthird _ 658789380 (by decide +kernel)]
  decide +kernel

-- ════════════════════════════════════════════════════════════════════════
-- Images
-- ════════════════════════════════════════════════════════════════════════

/-- The text fits and has no terminator inside, and there are as many arguments as can be. -/
structure LogRecordT.WellFormed (x : LogRecordT) : Prop where
  argc_le : x.argc.toNat ≤ logRingMaxArgs
  short : x.text.length ≤ logRingMaxText
  nonzero : ∀ b ∈ x.text, b ≠ 0

theorem flashRecord_wellFormed (bootId seq : UInt32) (e : LogEntry) :
    (flashRecord bootId seq e).WellFormed := by
  have hargc : (if e.argc > 4 then 4 else e.argc).toNat ≤ logRingMaxArgs := by
    split
    · exact le_rfl
    · next h => exact UInt8.le_iff_toNat_le.mp (UInt8.not_lt.mp h)
  refine ⟨hargc, List.length_take_le .., fun b hb => ?_⟩
  have hmem : b ∈ e.chars := List.mem_of_mem_take hb
  unfold LogEntry.chars at hmem
  cases htext : e.text with
  | none => simp [htext] at hmem
  | some text =>
    rw [htext] at hmem
    exact text.nonzero b hmem

theorem takeWhile_textArray {text : List UInt8} (hshort : text.length ≤ logRingMaxText)
    (hnonzero : ∀ b ∈ text, b ≠ 0) : (textArray text).takeWhile (· ≠ 0) = text := by
  obtain ⟨k, hk⟩ : ∃ k, logMaxText - text.length = k + 1 :=
    ⟨47 - text.length, by simp only [logMaxText, logRingMaxText] at *; omega⟩
  rw [textArray, List.take_of_length_le hshort, hk, List.replicate_succ,
    List.takeWhile_append_of_pos (by simpa using hnonzero)]
  simp

/-- **Round trip**: a record is read back from where its image stands. -/
theorem recordAtMem_image {x : LogRecordT} (hx : x.WellFormed) {m : Mem} {off : ℕ}
    (h : Holds m off x.image.bytes) : recordAtMem m off = x := by
  simp only [LogRecordT.image, holds_append, List.length_append, List.length_cons, List.length_nil,
    length_leU16, length_leU32, holds_cons, Nat.reduceAdd, Nat.add_assoc] at h
  obtain ⟨⟨⟨⟨⟨⟨hseq, hboot⟩, hms⟩, hevent⟩, hmod, hlevel, hargc, -⟩, ⟨⟨ha0, ha1⟩, ha2⟩, ha3⟩,
    htext⟩ := h
  have hargs : (fun i : Fin logRingMaxArgs => (rdU32 m (off + 20 + 4 * i)).toInt32) = x.args := by
    funext i
    match i with
    | 0 => exact (congrArg _ (rdU32_of_holds ha0)).trans (Int32.toInt32_toUInt32 _)
    | 1 => exact (congrArg _ (rdU32_of_holds ha1)).trans (Int32.toInt32_toUInt32 _)
    | 2 => exact (congrArg _ (rdU32_of_holds ha2)).trans (Int32.toInt32_toUInt32 _)
    | 3 => exact (congrArg _ (rdU32_of_holds ha3)).trans (Int32.toInt32_toUInt32 _)
  have hread : read m (off + 36) logMaxText = textArray x.text := by
    rw [← length_textArray x.text]
    exact read_eq_of_holds htext
  rw [recordAtMem, hargs, hread, takeWhile_textArray hx.short hx.nonzero, rdU32_of_holds hseq,
    rdU32_of_holds hboot, rdU32_of_holds hms, rdU16_of_holds hevent, hmod, hlevel, hargc]

theorem record_image {x : LogRecordT} (hx : x.WellFormed) : x.image.record = x := by
  refine recordAtMem_image hx fun i hi => ?_
  rw [Nat.zero_add]
  exact List.getD_eq_getElem _ _ hi

end Fountainer.Logging
