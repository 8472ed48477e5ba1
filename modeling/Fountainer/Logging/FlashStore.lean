import Fountainer.Lib.BoundedQueue
import Fountainer.Logging.Flash
import Fountainer.Logging.FlashFormat

/-!
# The flash log in its partition

`logging_flash.c` over the bytes of the `logstore` partition: the records that pass the level of the
flash wait in a queue, `logf_task` appends them to the slot of the boot, and the next boot reads
them from the other slot. A write can fail with part of it in the flash, and the power can fail
there.
-/

namespace Fountainer.Logging

open Bytes NorLog
open BoundedQueue (Queue)

/-- `LOGF_SLOT_SIZE`. -/
def logfSlotSize : ℕ := 0x10000

/-- `LOGF_DATA_OFF`. -/
def logfDataOff : ℕ := 64

/-- `LOGF_QUEUE_LEN`. -/
def logfQueueLen : ℕ := 32

/-- `LOG_EVT_BOOT`. -/
def logEvtBoot : UInt16 := 100

/-- `LOG_EVT_WD_BOOT_DIAG`. -/
def logEvtWdBootDiag : UInt16 := 704

/-- The number of entries that fit into a slot. -/
def logfSlotEntries : ℕ := (logfSlotSize - logfDataOff) / logfEntrySize

/-- Where a slot starts. -/
def slotOff (slot : Bool) : ℕ := cond slot logfSlotSize 0

/-- The header of a slot, as `hdr_read` has it. -/
def hdrRead (m : Mem) (slot : Bool) : LogfHdr where
  magic := rdU32 m (slotOff slot)
  bootId := rdU32 m (slotOff slot + 4)
  generation := rdU32 m (slotOff slot + 8)
  acked := rdU32 m (slotOff slot + 12)

/-- The bytes of a header. -/
def LogfHdr.bytes (h : LogfHdr) : List UInt8 :=
  leU32 h.magic ++ leU32 h.bootId ++ leU32 h.generation ++ leU32 h.acked

/-- The partition, the statics of `logging_flash.c`, and those of `logging_core.c` that it depends
    on: the id of the boot and the gate of `logging_emit`. -/
structure FlashStore where
  mem : Mem
  bootId : UInt32
  enabled : Bool
  runtimeLevel : UInt8
  own : Bool
  prevAvailable : Bool
  prevBootId : UInt32
  partition : Bool
  running : Bool
  queue : Queue LogRecordT logfQueueLen
  writeOff : ℕ
  flashLevel : UInt8
  dropped : UInt32

/-- What becomes of a write of an entry: it succeeds, or the flash has these bytes of it. -/
inductive WriteOutcome where
  | ok
  | failed (programmed : List UInt8)
  deriving DecidableEq, Repr

namespace FlashStore

variable (crc : List UInt8 → UInt32) (s : FlashStore)

/-- The bytes of a `logf_entry_t`; `crc` is `esp_rom_crc32_le` from 0. -/
def logfEntry (x : LogImage) : List UInt8 := x.bytes ++ leU32 (crc x.bytes)

/-- The record of the entry at `off`, if its checksum is right. -/
def entryAt (m : Mem) (off : ℕ) : Option LogImage :=
  if rdU32 m (off + logRecordSize) = crc (read m off logRecordSize) then
    some ⟨read m off logRecordSize, length_read ..⟩
  else none

/-- A level clamped to `LOG_LEVEL_TRACE`. -/
def clampLevel (level : UInt8) : UInt8 := if level > logLevelTrace then logLevelTrace else level

/-- `logging_flash_init`, in a boot whose RAM is fresh; `level` is the level set before the first
    record comes. -/
def init (bootId : UInt32) (level : UInt8) (outcome : InitOutcome) : FlashStore :=
  let hdrs := hdrRead s.mem
  let own := slotChoice hdrs
  let prev := hdrs (!own)
  let gen := nextGeneration hdrs
  let erased := erase s.mem (slotOff own) logfSlotSize
  let s : FlashStore :=
    { mem := erased
      bootId := bootId
      enabled := true
      runtimeLevel := logLevelInfo
      own := own
      prevAvailable := decide (prev.Valid ∧ prev.acked ≠ 0 ∧ prev.bootId ≠ bootId)
      prevBootId := if prev.Valid then prev.bootId else 0
      partition := false
      running := false
      queue := .empty
      writeOff := 0
      flashLevel := clampLevel level
      dropped := 0 }
  match outcome with
  | .powerLoss => s
  | .completed queue =>
    let header : LogfHdr := ⟨logfMagic, bootId, gen, 0xFFFFFFFF⟩
    { s with
      mem := program erased (slotOff own) header.bytes
      partition := queue
      running := true
      writeOff := logfDataOff }

/-- `logging_is_enabled_fast`. -/
def isEnabledFast (level : UInt8) : Bool :=
  s.enabled && level != 0 && decide (level ≤ s.runtimeLevel)

/-- `bWant` of `logging_flash_submit`. -/
def wants (x : LogRecordT) : Bool :=
  decide (x.level ≤ s.flashLevel) || x.eventId == logEvtBoot || x.eventId == logEvtWdBootDiag

/-- `logging_flash_submit`. -/
def submit (x : LogRecordT) : FlashStore :=
  if s.partition && s.wants x then
    match s.queue.send x with
    | some queue => { s with queue := queue }
    | none => { s with dropped := s.dropped + 1 }
  else s

/-- A turn of `logf_task`, started with the queue. -/
def logfTask (outcome : WriteOutcome) : FlashStore :=
  match s.queue.receive with
  | none => s
  | some (x, queue) =>
    if s.writeOff + logfEntrySize > logfSlotSize then
      { s with queue := queue, dropped := s.dropped + 1 }
    else
      match outcome with
      | .ok =>
        { s with
          queue := queue
          mem := program s.mem (slotOff s.own + s.writeOff) (logfEntry crc x.image)
          writeOff := s.writeOff + logfEntrySize }
      | .failed programmed =>
        { s with
          queue := queue
          mem := program s.mem (slotOff s.own + s.writeOff) (programmed.take logfEntrySize)
          dropped := s.dropped + 1 }

/-- The tier as an acknowledgement sees it. -/
def prevBoot : PrevBoot where
  available := s.prevAvailable
  bootId := s.prevBootId
  partition := s.partition
  acked := some (hdrRead s.mem (!s.own)).acked
  writable := true

/-- `logging_ack_previous_boot`, with its write to the slot. -/
def ack (bootId : UInt32) : FlashStore :=
  if (loggingAckPreviousBoot s.prevBoot bootId).1 then
    { s with
      mem := program s.mem (slotOff !s.own)
        { hdrRead s.mem (!s.own) with acked := 0 : LogfHdr }.bytes
      prevAvailable := false }
  else s

/-- `logging_set_flash_level`, `logging_set_runtime_level` and `logging_set_enabled`. -/
def setLevels (flashLevel runtimeLevel : UInt8) (enabled : Bool) : FlashStore :=
  { s with
    flashLevel := clampLevel flashLevel
    runtimeLevel := clampLevel runtimeLevel
    enabled := enabled }

/-- The loop of `logging_read_previous_boot`, over `entries` more entries from `off` on, with room
    for `room` more records. -/
def readPrevLoop (m : Mem) (minLevel : UInt8) : ℕ → ℕ → ℕ → List LogRecordT
  | 0, _, _ => []
  | entries + 1, off, room =>
    if room = 0 then []
    else
      match entryAt crc m off with
      | none => []
      | some x =>
        if x.record.level > minLevel then readPrevLoop m minLevel entries (off + logfEntrySize) room
        else x.record :: readPrevLoop m minLevel entries (off + logfEntrySize) (room - 1)

/-- `logging_read_previous_boot`, with a buffer for `max` records. -/
def readPreviousBoot (minLevel : UInt8) (max : ℕ) : List LogRecordT :=
  if s.prevAvailable && s.partition then
    readPrevLoop crc s.mem (if minLevel = 0 then logLevelTrace else minLevel) logfSlotEntries
      (slotOff (!s.own) + logfDataOff) max
  else []

/-- The slots by their headers. -/
def tier : FlashTier where
  slots := hdrRead s.mem
  own := s.own
  prevAvailable := s.prevAvailable
  prevBootId := s.prevBootId
  partition := s.partition
  running := s.running

end FlashStore

/-- Boots, calls of `logging_emit` with the number that the ring gives, turns of `logf_task`,
    acknowledgements and changes of the levels. -/
inductive StoreOp where
  | boot (bootId : UInt32) (level : UInt8) (outcome : InitOutcome)
  | emit (seq : UInt32) (e : LogEntry)
  | task (outcome : WriteOutcome)
  | ack (bootId : UInt32)
  | setLevels (flashLevel runtimeLevel : UInt8) (enabled : Bool)

/-- What the flash has of a boot: its slot, the records that it wanted to keep, those that are
    written, whether every write has succeeded, and the number written behind a failed write. -/
structure BootLog where
  bootId : UInt32
  slot : Bool
  wanted : List LogRecordT
  persisted : List LogRecordT
  intact : Bool
  buried : ℕ

/-- The store along the boots; for the statements, `last` has the log of the last boot whose
    `logging_flash_init` returned, and `previous` that of the one before the present boot. -/
structure StoreRun where
  store : FlashStore
  last : Option BootLog
  previous : Option BootLog

/-- The log with a record that `logging_flash_submit` wants. -/
def BootLog.submitted (b : BootLog) (s : FlashStore) (x : LogRecordT) : BootLog :=
  if s.partition && s.wants x then { b with wanted := b.wanted ++ [x] } else b

/-- The log after a turn of `logf_task`. -/
def BootLog.handled (b : BootLog) (s : FlashStore) (outcome : WriteOutcome) : BootLog :=
  match s.queue.receive with
  | none => b
  | some (x, _) =>
    if s.writeOff + logfEntrySize > logfSlotSize then b
    else
      match outcome with
      | .ok =>
        if b.intact then { b with persisted := b.persisted ++ [x] }
        else { b with buried := b.buried + 1 }
      | .failed _ => { b with intact := false }

/-- The erased partition, before the first boot. -/
def emptyStore : StoreRun where
  store :=
    { mem := fun _ => 0xFF
      bootId := 0
      enabled := true
      runtimeLevel := logLevelInfo
      own := false
      prevAvailable := false
      prevBootId := 0
      partition := false
      running := false
      queue := .empty
      writeOff := 0
      flashLevel := logLevelWarn
      dropped := 0 }
  last := none
  previous := none

/-- One step. -/
def storeStep (crc : List UInt8 → UInt32) (r : StoreRun) : StoreOp → StoreRun
  | .boot bootId level outcome =>
    let store := r.store.init bootId level outcome
    { store := store
      last := match outcome with
        | .powerLoss => r.last
        | .completed _ => some
          { bootId := bootId, slot := store.own, wanted := [], persisted := [], intact := true
            buried := 0 }
      previous := r.last }
  | .emit seq e =>
    if r.store.isEnabledFast e.level then
      let x := flashRecord r.store.bootId seq e
      { r with store := r.store.submit x, last := r.last.map (·.submitted r.store x) }
    else r
  | .task outcome =>
    { r with
      store := r.store.logfTask crc outcome
      last := r.last.map (·.handled r.store outcome) }
  | .ack bootId => { r with store := r.store.ack bootId }
  | .setLevels flashLevel runtimeLevel enabled =>
    { r with store := r.store.setLevels flashLevel runtimeLevel enabled }

def storeRun (crc : List UInt8 → UInt32) (ops : List StoreOp) : StoreRun :=
  Machine.run (storeStep crc) emptyStore ops

end Fountainer.Logging
