import Fountainer.Lib.Bytes
import Fountainer.Lib.Runs

/-!
# The log ring

The functions of `log_ring.c`: a byte ring with records of variable length. Every
access to the buffer is checked against its capacity, and the eviction loop of
`log_ring_push` has fuel; `none` is an access outside the buffer or a loop that
does not end, so a result `some` excludes both.
-/

namespace Fountainer.Logging

open Bytes

/-- `LOG_RING_HDR_SIZE`. -/
abbrev logRingHdrSize : ℕ := 14

/-- `LOG_RING_MAX_TEXT`. -/
abbrev logRingMaxText : ℕ := 47

/-- `LOG_RING_MAX_ARGS`. -/
abbrev logRingMaxArgs : ℕ := 4

/-- `LOG_RING_RECORD_MIN`. -/
abbrev logRingRecordMin : ℕ := logRingHdrSize + 1

/-- `LOG_RING_RECORD_MAX`. -/
abbrev logRingRecordMax : ℕ := logRingHdrSize + 4 * logRingMaxArgs + logRingMaxText + 1

/-- `LOG_RING_FLAG_ARGC_MASK`. -/
abbrev logRingFlagArgcMask : UInt8 := 0x07

/-- `LOG_RING_FLAG_TRUNCATED`. -/
abbrev logRingFlagTruncated : UInt8 := 0x08

/-- `log_ring_t`. -/
structure LogRing where
  buf : Mem
  capacity : UInt16
  head : UInt16
  tail : UInt16
  used : UInt16
  count : UInt16
  nextSeq : UInt32
  firstSeq : UInt32
  overwritten : UInt32

/-- The arguments of `log_ring_push`. The pointers `args` and `text` may be null;
    `args` otherwise points to an array of at least `argc` entries. -/
structure LogEntry where
  level : UInt8
  module : UInt8
  eventId : UInt16
  uptimeMs : UInt32
  args : Option (ℕ → Int32)
  argc : UInt8
  text : Option CString

namespace LogRing

def load (r : LogRing) (i : ℕ) : Option UInt8 :=
  if i < r.capacity.toNat then some (r.buf i) else none

def store (r : LogRing) (i : ℕ) (b : UInt8) : Option LogRing :=
  if i < r.capacity.toNat then some { r with buf := Function.update r.buf i b } else none

/-- Byte after byte, as `wr_u16`, `wr_u32` and `memcpy` store. -/
def storeBytes (r : LogRing) (off : ℕ) : List UInt8 → Option LogRing
  | [] => some r
  | b :: bs => do
    let r ← r.store off b
    r.storeBytes (off + 1) bs

/-- `rd_u16`, inside the buffer. -/
def loadU16 (r : LogRing) (off : ℕ) : Option UInt16 :=
  if off + 2 ≤ r.capacity.toNat then some (rdU16 r.buf off) else none

/-- `rd_u32`, inside the buffer. -/
def loadU32 (r : LogRing) (off : ℕ) : Option UInt32 :=
  if off + 4 ≤ r.capacity.toNat then some (rdU32 r.buf off) else none

/-- A record offset is a wrap gap exactly when the marker 0 is stored there. -/
def atWrapGap (r : LogRing) (pos : UInt16) : Option Bool :=
  (r.load pos.toNat).map (· == 0)

/-- Discards the oldest record, and releases a wrap gap before it. -/
def discardOldest (r : LogRing) : Option LogRing :=
  if r.count = 0 then some r
  else do
    let gap ← r.atWrapGap r.tail
    let r := if gap then { r with used := r.used - (r.capacity - r.tail), tail := 0 } else r
    let size ← r.load r.tail.toNat
    let tail := r.tail + size.toUInt16
    let r := { r with
      used := r.used - size.toUInt16
      tail := if tail = r.capacity then 0 else tail
      count := r.count - 1
      firstSeq := r.firstSeq + 1
      overwritten := r.overwritten + 1 }
    -- An empty ring has normal positions.
    some (if r.count = 0 then { r with head := 0, tail := 0, used := 0 } else r)

def logRingInit (buf : Mem) (capacityBytes : UInt16) : LogRing where
  buf := buf
  capacity := capacityBytes
  head := 0
  tail := 0
  used := 0
  count := 0
  nextSeq := 1
  firstSeq := 1
  overwritten := 0

/-- The sequence numbers keep counting, so that the gap is visible. -/
def logRingClear (r : LogRing) : LogRing :=
  { r with head := 0, tail := 0, used := 0, count := 0, firstSeq := r.nextSeq }

/-- The ring is as a clear leaves it. -/
def IsClear (r : LogRing) : Prop :=
  r.head = 0 ∧ r.tail = 0 ∧ r.used = 0 ∧ r.count = 0 ∧ r.firstSeq = r.nextSeq

theorem logRingClear_eq_self_iff (r : LogRing) : r.logRingClear = r ↔ r.IsClear := by
  cases r
  simp [logRingClear, IsClear, eq_comm]

/-- The loop of `log_ring_push` that makes room: first enough free bytes, then
    enough of them in one piece at the head. -/
def makeRoom : ℕ → LogRing → UInt16 → Option LogRing
  | 0, _, _ => none
  | fuel + 1, r, needed =>
    let freeBytes := r.capacity - r.used
    if freeBytes < needed then do
      let r ← r.discardOldest
      makeRoom fuel r needed
    else
      let r := if r.count = 0 then { r with head := 0, tail := 0 } else r
      if r.count = 0 ∨ r.head ≥ r.tail then
        let endSpace := r.capacity - r.head
        if endSpace ≥ needed then some r
        else if freeBytes - endSpace < needed then do
          let r ← r.discardOldest
          makeRoom fuel r needed
        else do
          let r ← r.store r.head.toNat 0
          some { r with used := r.used + endSpace, head := 0 }
      else some r

end LogRing

namespace LogEntry

/-- `argc`, clamped; 0 without an array. -/
def argCount (e : LogEntry) : UInt8 :=
  let argc := if e.argc > 4 then 4 else e.argc
  if e.args.isNone then 0 else argc

/-- The array entry `args[i]`. -/
def arg (e : LogEntry) (i : ℕ) : Int32 := e.args.elim 0 (fun args => args i)

/-- The characters of the text; none without a text. -/
def chars (e : LogEntry) : List UInt8 := e.text.elim [] CString.bytes

/-- The text is longer than a record can hold. -/
def tooLong (e : LogEntry) : Bool := decide (e.chars.length > logRingMaxText)

def textLen (e : LogEntry) : ℕ := if e.tooLong then logRingMaxText else e.chars.length

def flags (e : LogEntry) : UInt8 :=
  if e.tooLong then e.argCount ||| logRingFlagTruncated else e.argCount

/-- The size of the record. -/
def needed (e : LogEntry) : UInt16 :=
  UInt16.ofNat (logRingHdrSize + 4 * e.argCount.toNat + e.textLen + 1)

end LogEntry

namespace LogRing

/-- Serialises the record at the head, field by field. -/
def writeRecord (r : LogRing) (e : LogEntry) (seq : UInt32) : Option LogRing := do
  let p := r.head.toNat
  let r ← r.storeBytes p [e.needed.toUInt8, e.level, e.module, e.flags]
  let r ← r.storeBytes (p + 4) (leU16 e.eventId)
  let r ← r.storeBytes (p + 6) (leU32 seq)
  let r ← r.storeBytes (p + 10) (leU32 e.uptimeMs)
  let r ← (List.range e.argCount.toNat).foldlM
    (fun r i => r.storeBytes (p + logRingHdrSize + 4 * i) (leU32 (e.arg i).toUInt32)) r
  let r ← r.storeBytes (p + logRingHdrSize + 4 * e.argCount.toNat) (e.chars.take e.textLen)
  r.store (p + e.needed.toNat - 1) 0

/-- The sequence number of the new record, and the ring with it. -/
def logRingPush (r : LogRing) (e : LogEntry) : Option (UInt32 × LogRing) := do
  let r ← makeRoom (r.count.toNat + 1) r e.needed
  let seq := r.nextSeq
  let r ← writeRecord { r with nextSeq := r.nextSeq + 1 } e seq
  let head := r.head + e.needed
  let r := { r with
    head := if head = r.capacity then 0 else head
    used := r.used + e.needed
    count := r.count + 1 }
  some (seq, if r.count = 1 then { r with firstSeq := seq } else r)

-- ════════════════════════════════════════════════════════════════════════
-- Iteration
-- ════════════════════════════════════════════════════════════════════════

end LogRing

/-- `log_ring_iter_t`, without the pointer to its ring. -/
structure LogIter where
  pos : UInt16
  remaining : UInt16

/-- `log_ring_view_t`; the text is an offset into the buffer. -/
structure LogView where
  level : UInt8
  module : UInt8
  flags : UInt8
  argc : UInt8
  eventId : UInt16
  seq : UInt32
  uptimeMs : UInt32
  args : Fin logRingMaxArgs → Int32
  text : ℕ

namespace LogRing

def logRingIterBegin (r : LogRing) : LogIter where
  pos := r.tail
  remaining := r.count

/-- The offset and size of the record at `pos`, behind a wrap gap if there is one;
    `some none` for a corrupt size field. -/
def recordAt (r : LogRing) (pos : UInt16) : Option (Option (UInt16 × UInt8)) :=
  if pos ≥ r.capacity then some none
  else do
    let marker ← r.load pos.toNat
    let pos := if marker = 0 then 0 else pos
    let size ← r.load pos.toNat
    if size.toNat < logRingRecordMin ∨ size.toNat > logRingRecordMax then some none
    else if pos.toNat + size.toNat > r.capacity.toNat then some none
    else some (some (pos, size))

/-- The position after a record. -/
def nextPos (r : LogRing) (pos : UInt16) (size : UInt8) : UInt16 :=
  let pos := pos + size.toUInt16
  if pos = r.capacity then 0 else pos

/-- Decodes the record at `p`. -/
def viewAt (r : LogRing) (p : ℕ) : Option LogView := do
  let level ← r.load (p + 1)
  let module ← r.load (p + 2)
  let flags ← r.load (p + 3)
  let argc := flags &&& logRingFlagArgcMask
  let argc := if argc > 4 then 4 else argc
  let eventId ← r.loadU16 (p + 4)
  let seq ← r.loadU32 (p + 6)
  let uptimeMs ← r.loadU32 (p + 10)
  -- The array is cleared, then its first `argc` entries are read.
  let args ← (List.range argc.toNat).foldlM
    (fun (args : ℕ → Int32) i => do
      let v ← r.loadU32 (p + logRingHdrSize + 4 * i)
      if i < logRingMaxArgs then some (Function.update args i v.toInt32) else none)
    (fun _ => 0)
  some {
    level, module, flags, argc, eventId, seq, uptimeMs
    args := fun i => args i
    text := p + logRingHdrSize + 4 * argc.toNat }

def logRingIterNext (r : LogRing) (it : LogIter) : Option (Option LogView × LogIter) :=
  if it.remaining = 0 then some (none, it)
  else do
    match ← r.recordAt it.pos with
    | none => some (none, { it with remaining := 0 })
    | some (pos, size) =>
      let view ← r.viewAt pos.toNat
      some (some view, { pos := r.nextPos pos size, remaining := it.remaining - 1 })

/-- `log_ring_iter_next` until it returns false. -/
def iterate (r : LogRing) : ℕ → LogIter → Option (List LogView)
  | 0, _ => none
  | fuel + 1, it => do
    match ← r.logRingIterNext it with
    | (none, _) => some []
    | (some view, it) =>
      let views ← r.iterate fuel it
      some (view :: views)

/-- A full iteration; it takes at most one step more than there are records. -/
def contents (r : LogRing) : Option (List LogView) :=
  r.iterate (r.count.toNat + 1) r.logRingIterBegin

/-- The C string at `off`: the bytes up to the terminator. -/
def cstring (r : LogRing) : ℕ → ℕ → Option (List UInt8)
  | 0, _ => none
  | fuel + 1, off => do
    let b ← r.load off
    if b = 0 then some []
    else do
      let bs ← r.cstring fuel (off + 1)
      some (b :: bs)

/-- The text that a view points to. -/
def textOf (r : LogRing) (v : LogView) : Option (List UInt8) :=
  r.cstring r.capacity.toNat v.text

end LogRing

/-- A call that changes the ring. -/
inductive LogCall where
  | push (e : LogEntry)
  | clear

/-- The ring after a call. -/
def LogRing.call (r : LogRing) : LogCall → Option LogRing
  | .push e => (r.logRingPush e).map Prod.snd
  | .clear => some r.logRingClear

/-- The ring after `log_ring_init` and the calls, in order. -/
def logRun (buf : Mem) (capacity : UInt16) (calls : List LogCall) : Option LogRing :=
  Machine.run (fun s c => s.bind (LogRing.call · c)) (some (LogRing.logRingInit buf capacity)) calls

end Fountainer.Logging
