import Fountainer.Logging.FlashStore

/-!
# The slots of the partition

The store does to the headers what the tier says, so that what holds of the slots along the boots
holds of the partition; and the entries of a slot are the cells of a log in NOR flash.
-/

namespace Fountainer.Logging

open Bytes NorLog
open BoundedQueue (Queue)

-- ════════════════════════════════════════════════════════════════════════
-- Headers
-- ════════════════════════════════════════════════════════════════════════

@[simp] theorem length_hdrBytes (h : LogfHdr) : h.bytes.length = 16 := by simp [LogfHdr.bytes]

theorem hdrRead_of_holds {m : Mem} {slot : Bool} {h : LogfHdr}
    (hm : Holds m (slotOff slot) h.bytes) :
    hdrRead m slot = h := by
  simp only [LogfHdr.bytes, holds_append, List.length_append, length_leU32, Nat.reduceAdd] at hm
  obtain ⟨⟨⟨hmagic, hid⟩, hgen⟩, hacked⟩ := hm
  rw [hdrRead, rdU32_of_holds hmagic, rdU32_of_holds hid, rdU32_of_holds hgen,
    rdU32_of_holds hacked]

/-- The bytes of a header are those that it was read from. -/
theorem holds_hdrRead (m : Mem) (slot : Bool) : Holds m (slotOff slot) (hdrRead m slot).bytes := by
  have hbytes : (hdrRead m slot).bytes = read m (slotOff slot) 16 := by
    simp only [LogfHdr.bytes, hdrRead, leU32_rdU32, Nat.add_assoc, Nat.reduceAdd]
    rfl
  rw [hbytes]
  exact holds_read m (slotOff slot) 16

theorem hdrRead_congr {m m' : Mem} {slot : Bool} (h : Agree m m' (slotOff slot) 16) :
    hdrRead m' slot = hdrRead m slot :=
  hdrRead_of_holds (h.holds (holds_hdrRead m slot) (by rw [length_hdrBytes]))

theorem hdrRead_erased {m : Mem} {slot : Bool} (h : Erased m (slotOff slot) 16) :
    hdrRead m slot = erasedHdr := by
  have hbytes : erasedHdr.bytes = List.replicate 16 0xFF := by decide
  exact hdrRead_of_holds (hbytes ▸ h.holds)

/-- The mark of an acknowledgement, in the flash. -/
theorem hdrRead_acked (m : Mem) (slot : Bool) :
    hdrRead (program m (slotOff slot) { hdrRead m slot with acked := 0 : LogfHdr }.bytes) slot =
      { hdrRead m slot with acked := 0 } := by
  refine hdrRead_of_holds (Clears.holds ?_)
  have hold := holds_hdrRead m slot
  rw [LogfHdr.bytes, holds_append] at hold
  have hzeros : leU32 0 = List.replicate 4 0 := by decide
  refine (clears_of_holds hold.1).append ?_
  rw [hzeros]
  exact clears_zeros m _ 4

/-- The slots do not overlap. -/
theorem slotOff_disjoint {i j : Bool} (h : i ≠ j) : slotOff i + logfSlotSize ≤ slotOff j ∨
    slotOff j + logfSlotSize ≤ slotOff i := by
  cases i <;> cases j <;> simp_all [slotOff]

/-- The region of `n` bytes from `off` on lies in the slot. -/
def InSlot (slot : Bool) (off n : ℕ) : Prop :=
  slotOff slot ≤ off ∧ off + n ≤ slotOff slot + logfSlotSize

theorem inSlot_hdr (slot : Bool) : InSlot slot (slotOff slot) 16 :=
  ⟨le_rfl, Nat.add_le_add_left (by decide) _⟩

/-- The entries of a slot. -/
theorem inSlot_data (slot : Bool) :
    InSlot slot (slotOff slot + logfDataOff) (logfSlotEntries * logfEntrySize) :=
  ⟨Nat.le_add_right _ _, by rw [Nat.add_assoc]; exact Nat.add_le_add_left (by decide) _⟩

variable {m : Mem} {i j : Bool} {off off' n : ℕ} {bs : List UInt8}

/-- The erase of a slot leaves the other one. -/
theorem InSlot.agree_erase (h : InSlot i off n) (hne : i ≠ j) :
    Agree m (erase m (slotOff j) logfSlotSize) off n := by
  obtain ⟨hle, hend⟩ := h
  refine NorLog.agree_erase m ?_
  have := slotOff_disjoint hne
  omega

/-- A write into a slot leaves the other one. -/
theorem InSlot.agree_program (h : InSlot i off n) (hbs : InSlot j off' bs.length) (hne : i ≠ j) :
    Agree m (program m off' bs) off n := by
  obtain ⟨hle, hend⟩ := h
  obtain ⟨hle', hend'⟩ := hbs
  refine NorLog.agree_program m bs ?_
  have := slotOff_disjoint hne
  omega

theorem InSlot.erased (h : InSlot i off n) : Erased (erase m (slotOff i) logfSlotSize) off n :=
  (erased_erase m _ _).sub h.1 h.2

/-- The write of a header leaves the entries of every slot. -/
theorem agree_hdr_data (m : Mem) (i j : Bool) (h : LogfHdr) :
    Agree m (program m (slotOff j) h.bytes) (slotOff i + logfDataOff)
      (logfSlotEntries * logfEntrySize) := by
  by_cases hne : i = j
  · subst hne
    refine NorLog.agree_program m _ (.inr ?_)
    rw [length_hdrBytes]
    exact Nat.add_le_add_left (by decide) _
  · exact (inSlot_data i).agree_program (by rw [length_hdrBytes]; exact inSlot_hdr j) hne

-- ════════════════════════════════════════════════════════════════════════
-- The store refines the tier
-- ════════════════════════════════════════════════════════════════════════

namespace FlashStore

variable (s : FlashStore)

theorem hdrRead_init (bootId : UInt32) (level : UInt8) (outcome : InitOutcome) :
    hdrRead (s.init bootId level outcome).mem =
      (loggingFlashInit s.tier bootId outcome).slots := by
  funext slot
  have herased : hdrRead (erase s.mem (slotOff (slotChoice (hdrRead s.mem))) logfSlotSize) =
      Function.update (hdrRead s.mem) (slotChoice (hdrRead s.mem)) erasedHdr := by
    funext slot
    by_cases hslot : slot = slotChoice (hdrRead s.mem)
    · subst hslot
      rw [Function.update_self]
      exact hdrRead_erased (inSlot_hdr _).erased
    · rw [Function.update_of_ne hslot]
      exact hdrRead_congr ((inSlot_hdr slot).agree_erase hslot)
  cases outcome with
  | powerLoss => exact congrFun herased slot
  | completed queue =>
    by_cases hslot : slot = slotChoice (hdrRead s.mem)
    · subst hslot
      have hfresh : Erased (erase s.mem (slotOff (slotChoice (hdrRead s.mem))) logfSlotSize)
          (slotOff (slotChoice (hdrRead s.mem))) 16 := (inSlot_hdr _).erased
      refine (hdrRead_of_holds (Erased.holds_program ?_)).trans
        (init_slots_completed s.tier bootId queue).symm
      rw [length_hdrBytes]
      exact hfresh
    · refine (hdrRead_congr ((inSlot_hdr slot).agree_program
        (by rw [length_hdrBytes]; exact inSlot_hdr _) hslot)).trans ?_
      refine (congrFun herased slot).trans ?_
      simp only [loggingFlashInit, tier, Function.update_of_ne hslot]

/-- `logging_flash_init` on the bytes does to the headers what it does to the tier. -/
theorem tier_init (bootId : UInt32) (level : UInt8) (outcome : InitOutcome) :
    (s.init bootId level outcome).tier = loggingFlashInit s.tier bootId outcome := by
  have hslots := s.hdrRead_init bootId level outcome
  cases outcome <;> simp only [tier, hslots] <;> rfl

theorem tier_ack (bootId : UInt32) : (s.ack bootId).tier = s.tier.ack bootId := by
  rw [ack, FlashTier.ack, show s.tier.prevBoot = s.prevBoot from rfl]
  by_cases hack : (loggingAckPreviousBoot s.prevBoot bootId).1 = true
  swap
  · rw [if_neg hack, if_neg hack]
  rw [if_pos hack, if_pos hack]
  have hslots : hdrRead (program s.mem (slotOff !s.own)
      { hdrRead s.mem (!s.own) with acked := 0 : LogfHdr }.bytes) =
      Function.update (hdrRead s.mem) (!s.own) ((hdrRead s.mem !s.own).program
        { hdrRead s.mem (!s.own) with acked := 0 }) := by
    funext slot
    by_cases hslot : slot = !s.own
    · subst hslot
      rw [Function.update_self, program_acked]
      exact hdrRead_acked s.mem _
    · rw [Function.update_of_ne hslot]
      exact hdrRead_congr ((inSlot_hdr slot).agree_program
        (by rw [length_hdrBytes]; exact inSlot_hdr _) hslot)
  simp only [tier, hslots]

theorem tier_submit (x : LogRecordT) : (s.submit x).tier = s.tier := by
  unfold submit
  split
  · split <;> rfl
  · rfl

end FlashStore

-- ════════════════════════════════════════════════════════════════════════
-- The entries as a log
-- ════════════════════════════════════════════════════════════════════════

section Entries

variable {crc : List UInt8 → UInt32}
  (hcrc : crc (List.replicate logRecordSize 0xFF) ≠ 0xFFFFFFFF)

/-- The entries of a slot as cells. The checksum of erased bytes is not an erased word. -/
def logfCells : Cells LogImage where
  size := logfEntrySize
  encode := FlashStore.logfEntry crc
  decode := FlashStore.entryAt crc
  length_encode x := by
    rw [FlashStore.logfEntry, List.length_append, length_leU32, x.length_bytes]
    rfl
  decode_encode m off x h := by
    rw [FlashStore.logfEntry, holds_append, x.length_bytes] at h
    have hread : read m off logRecordSize = x.bytes := by
      rw [← x.length_bytes]
      exact read_eq_of_holds h.1
    rw [FlashStore.entryAt, if_pos (by rw [rdU32_of_holds h.2, hread])]
    exact congrArg some (LogImage.ext hread)
  decode_erased m off h := by
    have hread :=
      (h.sub le_rfl (Nat.add_le_add_left (by decide) _) : Erased m off logRecordSize).read_eq
    have hcheck : Erased m (off + logRecordSize) 4 := h.sub (Nat.le_add_right _ _) le_rfl
    have hword : rdU32 m (off + logRecordSize) = 0xFFFFFFFF := rdU32_of_holds hcheck.holds
    rw [FlashStore.entryAt, if_neg (by rw [hword, hread]; exact hcrc.symm)]

/-- The loop copies the records of the stored entries with a wanted level, as many as there is room
    for. -/
theorem readPrevLoop_eq (m : Mem) (minLevel : UInt8) (entries off room : ℕ) :
    FlashStore.readPrevLoop crc m minLevel entries off room =
      ((((scan (logfCells hcrc) m off entries).map LogImage.record).filter
        fun x => x.level ≤ minLevel).take room) := by
  induction entries generalizing off room with
  | zero => simp [FlashStore.readPrevLoop, scan]
  | succ entries ih =>
    rw [FlashStore.readPrevLoop, scan]
    by_cases hroom : room = 0
    · rw [if_pos hroom, hroom, List.take_zero]
    rw [if_neg hroom, show (logfCells hcrc).decode m off = FlashStore.entryAt crc m off from rfl]
    cases hentry : FlashStore.entryAt crc m off with
    | none => simp
    | some x =>
      obtain ⟨room, rfl⟩ := Nat.exists_eq_succ_of_ne_zero hroom
      by_cases hlevel : x.record.level > minLevel
      · simp only [hlevel, if_true, ih, List.map_cons]
        rw [List.filter_cons_of_neg (by simpa using hlevel)]
        rfl
      · simp only [hlevel, if_false, ih, List.map_cons]
        rw [List.filter_cons_of_pos (by simpa using hlevel), List.take_succ_cons]
        rfl

end Entries

end Fountainer.Logging
