import Fountainer.Logging.FlashSlots

/-!
# What the next boot reads

Along the boots the slot of the last one has the records that were written in it before any write
failed. The next boot reads these back, and every record that was to be kept is written, waiting or
counted as dropped.
-/

namespace Fountainer.Logging

open Bytes NorLog
open BoundedQueue (Queue)

section Runs

variable {crc : List UInt8 → UInt32}
  (hcrc : crc (List.replicate logRecordSize 0xFF) ≠ 0xFFFFFFFF)

/-- The slot of a boot has the records written before any write failed, and nothing behind them if
    none has; they are among the records of this boot that were to be kept. -/
structure BootLog.Kept (b : BootLog) (m : Mem) : Prop where
  stored : Stored (logfCells hcrc) m (slotOff b.slot + logfDataOff) logfSlotEntries
    (b.persisted.map LogRecordT.image)
  log : b.intact = true → Log (logfCells hcrc) m (slotOff b.slot + logfDataOff) logfSlotEntries
    (b.persisted.map LogRecordT.image)
  genuine : ∀ x ∈ b.wanted, x.bootId = b.bootId ∧ x.level ≠ 0 ∧ x.WellFormed
  sublist : b.persisted.Sublist b.wanted

/-- What the statics of the boot have of its log: where the next entry goes, what waits, and a count
    of what is lost. -/
structure BootLog.Active (b : BootLog) (s : FlashStore) : Prop where
  own : s.own = b.slot
  bootId : s.bootId = b.bootId
  writeOff : s.writeOff = logfDataOff + (b.persisted.length + b.buried) * logfEntrySize
  clean : b.intact = true → b.buried = 0
  waiting : (b.persisted ++ s.queue.items).Sublist b.wanted
  lost : ∃ lost, s.dropped = UInt32.ofNat lost ∧
    b.wanted.length = b.persisted.length + b.buried + s.queue.items.length + lost

variable {hcrc} {b : BootLog} {m m' : Mem} {s : FlashStore}

theorem BootLog.Kept.congr (h : b.Kept hcrc m)
    (hsame : Agree m m' (slotOff b.slot + logfDataOff) (logfSlotEntries * logfEntrySize)) :
    b.Kept hcrc m' :=
  ⟨h.stored.congr hsame, fun hintact => (h.log hintact).congr hsame, h.genuine, h.sublist⟩

/-- The records come back from their images. -/
theorem BootLog.Kept.records (h : b.Kept hcrc m) :
    (b.persisted.map LogRecordT.image).map LogImage.record = b.persisted := by
  have hid : ∀ x ∈ b.persisted, (LogImage.record ∘ LogRecordT.image) x = x :=
    fun x hx => record_image (h.genuine x (h.sublist.subset hx)).2.2
  rw [List.map_map, List.map_congr_left hid, List.map_id']

/-- A reader of the slot finds the records, and no others if every write has succeeded. -/
theorem BootLog.Kept.read (h : b.Kept hcrc m) (minLevel : UInt8) (max : ℕ) :
    ((b.persisted.filter fun x => x.level ≤ minLevel).take max <+:
      FlashStore.readPrevLoop crc m minLevel logfSlotEntries (slotOff b.slot + logfDataOff) max) ∧
    (b.intact = true →
      FlashStore.readPrevLoop crc m minLevel logfSlotEntries (slotOff b.slot + logfDataOff) max =
        (b.persisted.filter fun x => x.level ≤ minLevel).take max) := by
  rw [readPrevLoop_eq hcrc]
  refine ⟨?_, fun hintact => ?_⟩
  · have hscan := h.stored.isPrefix.map LogImage.record
    rw [h.records] at hscan
    exact (hscan.filter _).take max
  · rw [(h.log hintact).scan_eq, h.records]

-- ════════════════════════════════════════════════════════════════════════
-- One step
-- ════════════════════════════════════════════════════════════════════════

theorem BootLog.Active.submit (h : b.Active s) (hk : b.Kept hcrc s.mem) {x : LogRecordT}
    (hx : x.bootId = s.bootId ∧ x.level ≠ 0 ∧ x.WellFormed) :
    (b.submitted s x).Active (s.submit x) ∧ (b.submitted s x).Kept hcrc (s.submit x).mem := by
  unfold BootLog.submitted FlashStore.submit
  by_cases hwant : (s.partition && s.wants x) = true
  swap
  · rw [if_neg hwant, if_neg hwant]
    exact ⟨h, hk⟩
  rw [if_pos hwant, if_pos hwant]
  have hgenuine : ∀ y ∈ b.wanted ++ [x], y.bootId = b.bootId ∧ y.level ≠ 0 ∧ y.WellFormed := by
    intro y hy
    rcases List.mem_append.mp hy with hy | hy
    · exact hk.genuine y hy
    · rw [List.mem_singleton.mp hy, ← h.bootId]
      exact hx
  have hwanted : b.wanted.Sublist (b.wanted ++ [x]) := List.sublist_append_left _ _
  obtain ⟨lost, hdropped, hlost⟩ := h.lost
  cases hsend : s.queue.send x with
  | none =>
    refine ⟨⟨h.own, h.bootId, h.writeOff, h.clean, h.waiting.trans hwanted, lost + 1, ?_, ?_⟩,
      hk.stored, hk.log, hgenuine, hk.sublist.trans hwanted⟩
    · rw [UInt32.ofNat_add, ← hdropped]
      rfl
    · rw [List.length_append, List.length_singleton, hlost]
      rfl
  | some queue =>
    have hitems := BoundedQueue.Queue.send_items hsend
    refine ⟨⟨h.own, h.bootId, h.writeOff, h.clean, ?_, lost, hdropped, ?_⟩,
      hk.stored, hk.log, hgenuine, hk.sublist.trans hwanted⟩
    · rw [hitems, ← List.append_assoc]
      exact h.waiting.append (List.Sublist.refl _)
    · rw [hitems, List.length_append, List.length_append, List.length_singleton, hlost]
      exact Nat.add_right_comm _ _ _

/-- Where the next entry goes, when there is room for it. -/
theorem BootLog.Active.next (h : b.Active s) (hroom : ¬ s.writeOff + logfEntrySize > logfSlotSize) :
    b.persisted.length + b.buried < logfSlotEntries ∧
      slotOff s.own + s.writeOff =
        slotOff b.slot + logfDataOff + (b.persisted.length + b.buried) * logfEntrySize := by
  have hoff := h.writeOff
  have hsizes : logfSlotSize = 65536 ∧ logfDataOff = 64 ∧ logfEntrySize = 88 ∧
      logfSlotEntries = 744 := by decide
  obtain ⟨h1, h2, h3, h4⟩ := hsizes
  rw [h1, h3] at hroom
  rw [h2, h3] at hoff
  refine ⟨by omega, ?_⟩
  rw [h.own, h.writeOff, Nat.add_assoc]

theorem BootLog.Active.task (h : b.Active s) (hk : b.Kept hcrc s.mem) (outcome : WriteOutcome) :
    (b.handled s outcome).Active (s.logfTask crc outcome) ∧
      (b.handled s outcome).Kept hcrc (s.logfTask crc outcome).mem := by
  unfold BootLog.handled FlashStore.logfTask
  cases hreceive : s.queue.receive with
  | none => exact ⟨h, hk⟩
  | some head =>
    obtain ⟨x, queue⟩ := head
    have hitems := BoundedQueue.Queue.receive_items hreceive
    obtain ⟨lost, hdropped, hlost⟩ := h.lost
    have hwaiting := h.waiting
    rw [hitems] at hwaiting hlost
    rw [List.length_cons] at hlost
    have hskip : (b.persisted ++ queue.items).Sublist b.wanted :=
      ((List.Sublist.refl _).append (List.sublist_cons_self x _)).trans hwaiting
    have hmore : b.wanted.length = b.persisted.length + b.buried + queue.items.length +
      (lost + 1) := by
      omega
    have hcount : s.dropped + 1 = UInt32.ofNat (lost + 1) := by
      rw [UInt32.ofNat_add, ← hdropped]
      rfl
    by_cases hfull : s.writeOff + logfEntrySize > logfSlotSize
    · simp only [hfull, if_true]
      exact ⟨⟨h.own, h.bootId, h.writeOff, h.clean, hskip, lost + 1, hcount, hmore⟩, hk⟩
    simp only [hfull, if_false]
    obtain ⟨hlt, haddr⟩ := h.next hfull
    have hbehind : slotOff b.slot + logfDataOff +
        (b.persisted.map LogRecordT.image).length * (logfCells hcrc).size ≤
        slotOff s.own + s.writeOff := by
      rw [haddr, List.length_map]
      exact Nat.add_le_add_left (Nat.mul_le_mul_right _ (Nat.le_add_right _ _)) _
    cases outcome with
    | failed programmed =>
      exact ⟨⟨h.own, h.bootId, h.writeOff, fun hno => absurd hno Bool.false_ne_true,
        hskip, lost + 1,
        hcount, hmore⟩, hk.stored.program hbehind, fun hno => absurd hno Bool.false_ne_true,
        hk.genuine, hk.sublist⟩
    | ok =>
      by_cases hintact : b.intact = true
      · -- The entry goes into the first erased cell.
        simp only [hintact, if_true]
        have hburied := h.clean hintact
        rw [hburied, Nat.add_zero] at hlt haddr
        have happend := (hk.log hintact).append (by rwa [List.length_map]) x.image
        have hsub : (b.persisted ++ [x]).Sublist b.wanted := by
          refine List.Sublist.trans ?_ hwaiting
          exact (List.Sublist.refl _).append (List.singleton_sublist.mpr List.mem_cons_self)
        have hlog : Log (logfCells hcrc) (program s.mem (slotOff s.own + s.writeOff)
            (FlashStore.logfEntry crc x.image)) (slotOff b.slot + logfDataOff) logfSlotEntries
            ((b.persisted ++ [x]).map LogRecordT.image) := by
          rw [haddr, List.map_append, ← List.length_map (f := LogRecordT.image)]
          exact happend
        refine ⟨⟨h.own, h.bootId, ?_, fun _ => hburied, ?_, lost, hdropped, ?_⟩,
          hlog.toStored, fun _ => hlog, hk.genuine, hsub⟩
        · rw [List.length_append, List.length_singleton, h.writeOff, hburied,
            Nat.add_zero, Nat.add_zero,
            Nat.succ_mul, Nat.add_assoc]
        · rw [List.append_assoc]
          exact hwaiting
        · rw [List.length_append, List.length_singleton]
          show b.wanted.length = b.persisted.length + 1 + b.buried + queue.items.length + lost
          omega
      · -- What is written behind a failed write is not reached.
        simp only [hintact, if_false, Bool.false_eq_true]
        refine ⟨⟨h.own, h.bootId, ?_, fun hno => absurd hno Bool.false_ne_true, hskip,
          lost, hdropped,
            ?_⟩,
          hk.stored.program hbehind, fun hno => absurd hno Bool.false_ne_true,
          hk.genuine, hk.sublist⟩
        · rw [h.writeOff, ← Nat.add_assoc b.persisted.length, Nat.succ_mul, Nat.add_assoc]
        · show b.wanted.length = b.persisted.length + (b.buried + 1) + queue.items.length + lost
          omega

-- ════════════════════════════════════════════════════════════════════════
-- Along the boots
-- ════════════════════════════════════════════════════════════════════════

/-- The operation as the tier has it. -/
def StoreOp.flashOp? : StoreOp → Option FlashOp
  | .boot bootId _ outcome => some (.boot bootId outcome)
  | .ack bootId => some (.ack bootId)
  | _ => none

/-- The invariant of the store, over the run `f` of the tier: the headers are those of the tier, and
    the slots of the last boot and of the one before the present boot have their logs. -/
structure StoreRun.Inv (hcrc : crc (List.replicate logRecordSize 0xFF) ≠ 0xFFFFFFFF) (r : StoreRun)
    (f : FlashRun) : Prop where
  tier : r.store.tier = f.tier
  last : f.last = r.last.map fun b => (b.slot, b.bootId)
  runs : r.store.partition = true → r.store.running = true
  idle : r.store.partition = false → r.store.queue.items = []
  kept : ∀ b, r.last = some b → b.Kept hcrc r.store.mem
  active : ∀ b, r.last = some b → r.store.running = true → b.Active r.store
  before : ∀ b, r.previous = some b →
    b.slot = (!r.store.own) ∧ r.store.prevBootId = b.bootId ∧ b.Kept hcrc r.store.mem

theorem emptyStore_inv : emptyStore.Inv hcrc emptyFlash := by
  refine ⟨?_, rfl, (nomatch ·), fun _ => rfl, fun _ => (nomatch ·), fun _ => (nomatch ·),
    fun _ => (nomatch ·)⟩
  have hhdr : hdrRead (fun _ => 0xFF) = fun _ => erasedHdr :=
    funext fun slot => hdrRead_erased fun _ _ _ => rfl
  simp only [FlashStore.tier, emptyStore, emptyFlash, hhdr]

theorem FlashStore.init_agree (s : FlashStore) (bootId : UInt32) (level : UInt8)
    (outcome : InitOutcome) {i : Bool} (hne : i ≠ slotChoice (hdrRead s.mem)) :
    Agree s.mem (s.init bootId level outcome).mem (slotOff i + logfDataOff)
      (logfSlotEntries * logfEntrySize) := by
  have herase : Agree s.mem (erase s.mem (slotOff (slotChoice (hdrRead s.mem))) logfSlotSize)
      (slotOff i + logfDataOff) (logfSlotEntries * logfEntrySize) := (inSlot_data i).agree_erase hne
  cases outcome with
  | powerLoss => exact herase
  | completed queue => exact herase.trans (agree_hdr_data _ i _ _)

variable (hcrc) in
theorem FlashStore.init_fresh (s : FlashStore) (bootId : UInt32) (level : UInt8) (queue : Bool) :
    Log (logfCells hcrc) (s.init bootId level (.completed queue)).mem
      (slotOff (slotChoice (hdrRead s.mem)) + logfDataOff) logfSlotEntries [] :=
  log_of_erased ((inSlot_data _).erased.congr (agree_hdr_data _ _ _ _))

theorem FlashStore.submit_mem (s : FlashStore) (x : LogRecordT) : (s.submit x).mem = s.mem := by
  unfold FlashStore.submit
  split
  · split <;> rfl
  · rfl

variable (crc) in
/-- A turn of `logf_task` writes into the slot of the boot, from the next entry on, if at all. -/
theorem FlashStore.logfTask_mem (s : FlashStore) (outcome : WriteOutcome) :
    (s.logfTask crc outcome).mem = s.mem ∨ ∃ bs : List UInt8,
      (s.logfTask crc outcome).mem = program s.mem (slotOff s.own + s.writeOff) bs ∧
        InSlot s.own (slotOff s.own + s.writeOff) bs.length := by
  unfold FlashStore.logfTask
  cases s.queue.receive with
  | none => exact .inl rfl
  | some head =>
    by_cases hfull : s.writeOff + logfEntrySize > logfSlotSize
    · simp only [hfull, if_true, true_or]
    simp only [hfull, if_false]
    have hslot (bs : List UInt8) (hlen : bs.length ≤ logfEntrySize) :
        InSlot s.own (slotOff s.own + s.writeOff) bs.length := ⟨Nat.le_add_right _ _, by omega⟩
    have hentry (x : LogImage) : (logfEntry crc x).length ≤ logfEntrySize := by
      rw [logfEntry, List.length_append, length_leU32, x.length_bytes]
      exact le_rfl
    cases outcome with
    | ok => exact .inr ⟨_, rfl, hslot _ (hentry _)⟩
    | failed programmed => exact .inr ⟨_, rfl, hslot _ (List.length_take_le ..)⟩

/-- The other slot stays as it is. -/
theorem FlashStore.task_agree (s : FlashStore) (outcome : WriteOutcome) {i : Bool} (hne : i ≠ s.own)
    {off n : ℕ} (h : InSlot i off n) : Agree s.mem (s.logfTask crc outcome).mem off n := by
  rcases s.logfTask_mem crc outcome with hmem | ⟨bs, hmem, hin⟩
  · exact hmem ▸ .refl _ _ _
  · exact hmem ▸ h.agree_program hin hne

theorem FlashStore.tier_task (s : FlashStore) (outcome : WriteOutcome)
    (hoff : logfDataOff ≤ s.writeOff) : (s.logfTask crc outcome).tier = s.tier := by
  have hslots : hdrRead (s.logfTask crc outcome).mem = hdrRead s.mem := by
    funext slot
    refine hdrRead_congr ?_
    by_cases hslot : slot = s.own
    · subst hslot
      rcases s.logfTask_mem crc outcome with hmem | ⟨bs, hmem, -⟩
      · exact hmem ▸ .refl _ _ _
      · have hhdr : 16 ≤ s.writeOff := Nat.le_trans (by decide) hoff
        exact hmem ▸ agree_program s.mem bs (.inl (by omega))
    · exact s.task_agree outcome hslot (inSlot_hdr slot)
  unfold FlashStore.logfTask at hslots ⊢
  cases hreceive : s.queue.receive with
  | none => rfl
  | some head =>
    rw [hreceive] at hslots
    by_cases hfull : s.writeOff + logfEntrySize > logfSlotSize
    · simp only [hfull, if_true]
      rfl
    · simp only [hfull, if_false] at hslots ⊢
      cases outcome <;> simp only [tier, hslots]

/-- An acknowledgement leaves the entries. -/
theorem FlashStore.ack_agree (s : FlashStore) (bootId : UInt32) (i : Bool) :
    Agree s.mem (s.ack bootId).mem (slotOff i + logfDataOff) (logfSlotEntries * logfEntrySize) := by
  unfold FlashStore.ack
  split
  · exact agree_hdr_data _ _ _ _
  · exact .refl _ _ _

variable {r : StoreRun} {f : FlashRun} {n : ℕ}

/-- A boot takes the slot that is not the last one's. -/
theorem StoreRun.Inv.slotChoice_eq (h : r.Inv hcrc f) (hf : f.Inv n) {b : BootLog}
    (hb : r.last = some b) :
    slotChoice (hdrRead r.store.mem) = (!b.slot) ∧ (hdrRead r.store.mem b.slot).Valid ∧
      (hdrRead r.store.mem b.slot).bootId = b.bootId := by
  have hlast : f.last = some (b.slot, b.bootId) := h.last.trans (by rw [hb]; rfl)
  obtain ⟨hnew, hid, -, -⟩ := hf.newest _ _ hlast
  have hslots : hdrRead r.store.mem = f.tier.slots := congrArg FlashTier.slots h.tier
  rw [hslots]
  exact ⟨hnew.slotChoice, hnew.valid, hid⟩

theorem StoreRun.Inv.boot (h : r.Inv hcrc f) (hf : f.Inv n) (bootId : UInt32) (level : UInt8)
    (outcome : InitOutcome) :
    (storeStep crc r (.boot bootId level outcome)).Inv hcrc
    (flashStep f (.boot bootId outcome)) := by
  have htier : (r.store.init bootId level outcome).tier = loggingFlashInit f.tier bootId outcome :=
    (r.store.tier_init bootId level outcome).trans (by rw [h.tier])
  have hother (b : BootLog) (hb : r.last = some b) :
      b.slot = (!(r.store.init bootId level outcome).own) ∧
        (r.store.init bootId level outcome).prevBootId = b.bootId ∧
        b.Kept hcrc (r.store.init bootId level outcome).mem := by
    obtain ⟨hown, hvalid, hid⟩ := h.slotChoice_eq hf hb
    have hown' : (r.store.init bootId level outcome).own = !b.slot := by
      rw [← hown]
      cases outcome <;> rfl
    have hne : b.slot ≠ slotChoice (hdrRead r.store.mem) := by
      rw [hown]
      cases b.slot <;> decide
    refine ⟨by rw [hown', Bool.not_not], ?_, (h.kept b hb).congr (r.store.init_agree _ _ _ hne)⟩
    have hprev : (r.store.init bootId level outcome).prevBootId =
        if (hdrRead r.store.mem !slotChoice (hdrRead r.store.mem)).Valid then
          (hdrRead r.store.mem !slotChoice (hdrRead r.store.mem)).bootId else 0 := by
      cases outcome <;> rfl
    rw [hprev, hown, Bool.not_not, if_pos hvalid, hid]
  cases outcome with
  | powerLoss =>
    exact ⟨htier, h.last, (nomatch ·), fun _ => rfl, fun b hb => (hother b hb).2.2,
      fun _ _ => (nomatch ·), hother⟩
  | completed queue =>
    refine ⟨htier, ?_, fun _ => rfl, fun _ => rfl, fun b hb => ?_, fun b hb _ => ?_, hother⟩
    · exact congrArg (fun own => some (own, bootId)) (congrArg FlashTier.own htier).symm
    · obtain rfl := Option.some.inj hb
      have hlog := r.store.init_fresh hcrc bootId level queue
      exact ⟨hlog.toStored, fun _ => hlog, fun _ => (nomatch ·), List.Sublist.refl _⟩
    · obtain rfl := Option.some.inj hb
      exact ⟨rfl, rfl, rfl, fun _ => rfl, List.Sublist.refl _, 0, rfl, rfl⟩

/-- What keeps the tier and the bytes keeps the invariant, if the boot's log keeps its own. -/
theorem StoreRun.Inv.present (h : r.Inv hcrc f) {s : FlashStore} {last : Option BootLog}
    (htier : s.tier = r.store.tier) (hsame : ∀ b, r.previous = some b → b.Kept hcrc s.mem)
    (hids : (last.map fun b => (b.slot, b.bootId)) = r.last.map fun b => (b.slot, b.bootId))
    (hidle : s.partition = false → s.queue.items = [])
    (hkept : ∀ b, last = some b → b.Kept hcrc s.mem)
    (hactive : ∀ b, last = some b → s.running = true → b.Active s) :
    ({ store := s, last := last, previous := r.previous } : StoreRun).Inv hcrc f := by
  have hown : s.own = r.store.own := congrArg FlashTier.own htier
  have hid : s.prevBootId = r.store.prevBootId := congrArg FlashTier.prevBootId htier
  have hpart : s.partition = r.store.partition := congrArg FlashTier.partition htier
  have hrun : s.running = r.store.running := congrArg FlashTier.running htier
  refine ⟨htier.trans h.tier, h.last.trans hids.symm, ?_, hidle, hkept, hactive, fun b hb => ?_⟩
  · rw [show ({ store := s, last, previous := r.previous } : StoreRun).store = s from rfl,
      hpart, hrun]
    exact h.runs
  · obtain ⟨hslot, hboot, -⟩ := h.before b hb
    exact ⟨hslot.trans (by rw [hown]), hid.trans hboot, hsame b hb⟩

theorem BootLog.submitted_ids (b : BootLog) (s : FlashStore) (x : LogRecordT) :
    (b.submitted s x).slot = b.slot ∧ (b.submitted s x).bootId = b.bootId := by
  unfold BootLog.submitted
  split <;> exact ⟨rfl, rfl⟩

theorem BootLog.handled_ids (b : BootLog) (s : FlashStore) (outcome : WriteOutcome) :
    (b.handled s outcome).slot = b.slot ∧ (b.handled s outcome).bootId = b.bootId := by
  unfold BootLog.handled
  split
  · exact ⟨rfl, rfl⟩
  split
  · exact ⟨rfl, rfl⟩
  split
  · split <;> exact ⟨rfl, rfl⟩
  · exact ⟨rfl, rfl⟩

theorem StoreRun.Inv.emit (h : r.Inv hcrc f) (seq : UInt32) (e : LogEntry) :
    (storeStep crc r (.emit seq e)).Inv hcrc f := by
  rw [storeStep]
  by_cases hgate : r.store.isEnabledFast e.level = true
  swap
  · rwa [if_neg hgate]
  rw [if_pos hgate]
  have hlevel : e.level ≠ 0 := by
    simp only [FlashStore.isEnabledFast, Bool.and_eq_true, bne_iff_ne] at hgate
    exact hgate.1.2
  have hmem := r.store.submit_mem (flashRecord r.store.bootId seq e)
  have hx : (flashRecord r.store.bootId seq e).bootId = r.store.bootId ∧
      (flashRecord r.store.bootId seq e).level ≠ 0 ∧
      (flashRecord r.store.bootId seq e).WellFormed :=
    ⟨rfl, hlevel, flashRecord_wellFormed _ _ _⟩
  -- Without the task nothing is submitted.
  have hstill (hpart : r.store.partition = false) (b : BootLog) :
      r.store.submit (flashRecord r.store.bootId seq e) = r.store ∧
        b.submitted r.store (flashRecord r.store.bootId seq e) = b := by
    simp [FlashStore.submit, BootLog.submitted, hpart]
  have hboth (b : BootLog) (hb : r.last = some b) :
      (b.submitted r.store (flashRecord r.store.bootId seq e)).Kept hcrc
        (r.store.submit (flashRecord r.store.bootId seq e)).mem := by
    cases hpart : r.store.partition with
    | false =>
      rw [(hstill hpart b).1, (hstill hpart b).2]
      exact h.kept b hb
    | true => exact ((h.active b hb (h.runs hpart)).submit (h.kept b hb) hx).2
  refine h.present (r.store.tier_submit _) (fun b hb => hmem ▸ (h.before b hb).2.2) ?_ ?_ ?_ ?_
  · rw [Option.map_map]
    refine Option.map_congr fun b _ => ?_
    obtain ⟨hslot, hid⟩ := b.submitted_ids r.store (flashRecord r.store.bootId seq e)
    exact Prod.ext hslot hid
  · intro hpart
    have hpart' : r.store.partition = false :=
      (congrArg FlashTier.partition (r.store.tier_submit _)).symm.trans hpart
    rw [(hstill hpart' ⟨0, false, [], [], true, 0⟩).1]
    exact h.idle hpart'
  · intro b hb
    obtain ⟨b, hlast, rfl⟩ := Option.map_eq_some_iff.mp hb
    exact hboth b hlast
  · intro b hb hrun
    obtain ⟨b, hlast, rfl⟩ := Option.map_eq_some_iff.mp hb
    have hrun' : r.store.running = true :=
      (congrArg FlashTier.running (r.store.tier_submit _)).symm.trans hrun
    exact ((h.active b hlast hrun').submit (h.kept b hlast) hx).1

theorem StoreRun.Inv.task (h : r.Inv hcrc f) (hf : f.Inv n) (outcome : WriteOutcome) :
    (storeStep crc r (.task outcome)).Inv hcrc f := by
  cases hpart : r.store.partition with
  | false =>
    -- The task is not started, and its queue is empty.
    have hnone : r.store.queue.receive = none :=
      BoundedQueue.Queue.receive_eq_none_iff.mpr (h.idle hpart)
    have hstore : r.store.logfTask crc outcome = r.store := by rw [FlashStore.logfTask, hnone]
    have hlog (b : BootLog) : b.handled r.store outcome = b := by rw [BootLog.handled, hnone]
    have hsame : storeStep crc r (.task outcome) = r := by
      simp only [storeStep, hstore, hlog, Option.map_id']
    rwa [hsame]
  | true =>
    have hrun := h.runs hpart
    obtain ⟨b, hb⟩ : ∃ b, r.last = some b := by
      refine Option.ne_none_iff_exists'.mp fun hno => ?_
      have hempty := hf.empty (h.last.trans (by rw [hno]; rfl))
      rw [← h.tier] at hempty
      exact absurd (hrun.symm.trans hempty.2) (by decide)
    obtain ⟨hactive, hkept⟩ := (h.active b hb hrun).task (h.kept b hb) outcome
    have htier : (r.store.logfTask crc outcome).tier = r.store.tier :=
      r.store.tier_task outcome ((Nat.le_add_right _ _).trans (h.active b hb hrun).writeOff.ge)
    rw [storeStep]
    refine h.present htier (fun b' hb' => ?_) ?_ ?_ ?_ ?_
    · obtain ⟨hslot, -, hk⟩ := h.before b' hb'
      refine hk.congr (r.store.task_agree outcome ?_ (inSlot_data _))
      rw [hslot]
      cases r.store.own <;> decide
    · rw [hb, Option.map_some, Option.map_some, Option.map_some, (b.handled_ids _ _).1,
        (b.handled_ids _ _).2]
    · intro hno
      have := (congrArg FlashTier.partition htier).symm.trans hno
      exact absurd (hpart.symm.trans this) (by decide)
    · intro b' hb'
      rw [hb] at hb'
      obtain rfl := Option.some.inj hb'
      exact hkept
    · intro b' hb' _
      rw [hb] at hb'
      obtain rfl := Option.some.inj hb'
      exact hactive

theorem StoreRun.Inv.ack (h : r.Inv hcrc f) (bootId : UInt32) :
    (storeStep crc r (.ack bootId)).Inv hcrc (flashStep f (.ack bootId)) := by
  have htier : (r.store.ack bootId).tier = (flashStep f (.ack bootId)).tier := by
    rw [r.store.tier_ack, h.tier, flashStep]
    by_cases hrun : f.tier.running = true
    · rw [if_pos hrun]
    -- Before the init has returned there is no partition to acknowledge to.
    have hpart : f.tier.partition = false := by
      rw [← h.tier] at hrun ⊢
      exact Bool.eq_false_iff.mpr fun hpart => hrun (h.runs hpart)
    rw [if_neg hrun]
    simp [FlashTier.ack, loggingAckPreviousBoot, FlashTier.prevBoot, hpart]
  have hlast : (flashStep f (.ack bootId)).last = f.last := by
    rw [flashStep]
    split <;> rfl
  have hrest : (r.store.ack bootId).own = r.store.own ∧
      (r.store.ack bootId).prevBootId = r.store.prevBootId ∧
      (r.store.ack bootId).partition = r.store.partition ∧
      (r.store.ack bootId).running = r.store.running ∧ (r.store.ack bootId).queue = r.store.queue ∧
      (r.store.ack bootId).bootId = r.store.bootId ∧
      (r.store.ack bootId).writeOff = r.store.writeOff ∧
      (r.store.ack bootId).dropped = r.store.dropped := by
    unfold FlashStore.ack
    split <;> exact ⟨rfl, rfl, rfl, rfl, rfl, rfl, rfl, rfl⟩
  obtain ⟨hown, hid, hpart, hrun, hqueue, hboot, hoff, hdropped⟩ := hrest
  refine ⟨htier, hlast.trans h.last, ?_, ?_, fun b hb => ?_, fun b hb hb' => ?_, fun b hb => ?_⟩
  · rw [storeStep, hpart, hrun]
    exact h.runs
  · rw [storeStep, hpart, hqueue]
    exact h.idle
  · exact (h.kept b hb).congr (r.store.ack_agree bootId _)
  · have hactive := h.active b hb (hrun.symm.trans hb')
    refine ⟨hown.trans hactive.own, hboot.trans hactive.bootId, hoff.trans hactive.writeOff,
      hactive.clean, ?_, ?_⟩
    · rw [storeStep, hqueue]
      exact hactive.waiting
    · rw [storeStep, hqueue, hdropped]
      exact hactive.lost
  · obtain ⟨hslot, hprev, hk⟩ := h.before b hb
    exact ⟨hslot.trans (by rw [storeStep, hown]), hid.trans hprev,
      hk.congr (r.store.ack_agree bootId _)⟩

theorem StoreRun.Inv.step (h : r.Inv hcrc f) (hf : f.Inv n) (op : StoreOp) :
    (storeStep crc r op).Inv hcrc (Machine.run flashStep f op.flashOp?.toList) := by
  cases op with
  | boot bootId level outcome => exact h.boot hf bootId level outcome
  | emit seq e => exact h.emit seq e
  | task outcome => exact h.task hf outcome
  | ack bootId => exact h.ack bootId
  | setLevels flashLevel runtimeLevel enabled =>
    refine h.present rfl (fun b hb => (h.before b hb).2.2) rfl h.idle h.kept fun b hb hrun => ?_
    have hactive := h.active b hb hrun
    exact ⟨hactive.own, hactive.bootId, hactive.writeOff, hactive.clean,
      hactive.waiting, hactive.lost⟩

variable (hcrc) in
/-- The run of the store is a run of the tier, and keeps the invariant. -/
theorem storeRun_inv (ops : List StoreOp)
    (hfew : (bootIds (ops.filterMap StoreOp.flashOp?)).length < 2 ^ 32) :
    (storeRun crc ops).Inv hcrc (flashRun (ops.filterMap StoreOp.flashOp?)) := by
  induction ops using List.reverseRecOn with
  | nil => exact emptyStore_inv
  | append_singleton ops op ih =>
    have hops : (ops ++ [op]).filterMap StoreOp.flashOp? =
        ops.filterMap StoreOp.flashOp? ++ op.flashOp?.toList := by
      cases h : op.flashOp? <;> simp [h]
    have hshort : (bootIds (ops.filterMap StoreOp.flashOp?)).length < 2 ^ 32 := by
      refine Nat.lt_of_le_of_lt (List.Sublist.length_le (List.Sublist.filterMap _ ?_)) hfew
      rw [hops]
      exact List.sublist_append_left _ _
    rw [storeRun, Machine.run_concat, hops, flashRun, Machine.run_append]
    exact (ih hshort).step (flashRun_inv _ hshort).1 op

theorem filterMap_boot (before rest : List StoreOp) (bootId : UInt32) (level : UInt8)
    (outcome : InitOutcome) (hrest : ∀ op ∈ rest, op.flashOp? = none) :
    (before ++ .boot bootId level outcome :: rest).filterMap StoreOp.flashOp? =
      before.filterMap StoreOp.flashOp? ++ [.boot bootId outcome] := by
  have hnone : rest.filterMap StoreOp.flashOp? = [] := List.filterMap_eq_nil_iff.mpr hrest
  simp [StoreOp.flashOp?, hnone]

/-- The log of the boot before stays the same until the next boot. -/
theorem previous_rest (r : StoreRun) (rest : List StoreOp)
    (hrest : ∀ op ∈ rest, op.flashOp? = none) :
    (Machine.run (storeStep crc) r rest).previous = r.previous := by
  induction rest using List.reverseRecOn with
  | nil => rfl
  | append_singleton rest op ih =>
    rw [Machine.run_concat, ← ih fun op hop => hrest op (List.mem_append_left _ hop)]
    cases op with
    | boot bootId level outcome => cases hrest _ (List.mem_append_right _ List.mem_cons_self)
    | emit seq e =>
      rw [storeStep]
      split <;> rfl
    | _ => rfl

end Runs

/-- In the boot after, and until the server acknowledges, the statics say where the log of the boot
    before is, and it is kept. -/
theorem previous_kept {crc : List UInt8 → UInt32}
    (hcrc : crc (List.replicate logRecordSize 0xFF) ≠ 0xFFFFFFFF) (before rest : List StoreOp)
    (bootId : UInt32) (level : UInt8) (hrest : ∀ op ∈ rest, op.flashOp? = none)
    (hdistinct : (bootIds ((before ++ .boot bootId level (.completed true) :: rest).filterMap
      StoreOp.flashOp?)).Nodup)
    (hfew : (bootIds ((before ++ .boot bootId level (.completed true) :: rest).filterMap
      StoreOp.flashOp?)).length < 2 ^ 32)
    {b : BootLog} (hb : (storeRun crc before).last = some b) :
    let s := (storeRun crc (before ++ .boot bootId level (.completed true) :: rest)).store
    s.prevAvailable = true ∧ s.partition = true ∧ s.prevBootId = b.bootId ∧ b.slot = (!s.own) ∧
      b.Kept hcrc s.mem := by
  intro s
  have hinv := storeRun_inv hcrc _ hfew
  rw [filterMap_boot before rest bootId level _ hrest] at hdistinct hfew hinv
  rw [bootIds_concat] at hdistinct hfew
  have hshort : (bootIds (before.filterMap StoreOp.flashOp?)).length < 2 ^ 32 := by
    rw [List.length_append] at hfew
    omega
  obtain ⟨hbefore, hmem⟩ := flashRun_inv _ hshort
  have hlast : (flashRun (before.filterMap StoreOp.flashOp?)).last = some (b.slot, b.bootId) :=
    (storeRun_inv hcrc before hshort).last.trans (by rw [hb]; rfl)
  have hne : b.bootId ≠ bootId :=
    (List.nodup_append.mp hdistinct).2.2 _ (hmem _ _ hlast) _ List.mem_cons_self
  have hpresents := hbefore.presents hlast hne (.completed true)
  rw [flashRun, Machine.run_concat] at hinv
  have hprevious :
    (storeRun crc (before ++ .boot bootId level (.completed true) :: rest)).previous =
      some b := by
    rw [storeRun, Machine.run_append, Machine.run_cons, previous_rest _ _ hrest]
    exact hb
  obtain ⟨hslot, hid, hkept⟩ := hinv.before b hprevious
  exact ⟨(congrArg FlashTier.prevAvailable hinv.tier).trans hpresents.available,
    congrArg FlashTier.partition hinv.tier, hid, hslot, hkept⟩

theorem BootLog.Kept.readPreviousBoot {crc : List UInt8 → UInt32}
    {hcrc : crc (List.replicate logRecordSize 0xFF) ≠ 0xFFFFFFFF} {b : BootLog} {s : FlashStore}
    (h : b.Kept hcrc s.mem) (havailable : s.prevAvailable = true) (hpart : s.partition = true)
    (hslot : b.slot = (!s.own)) (minLevel : UInt8) (max : ℕ) :
    let written := (b.persisted.filter fun x => x.level ≤ LogRing.wantedLevel minLevel).take max
    written <+: s.readPreviousBoot crc minLevel max ∧
      (b.intact = true → s.readPreviousBoot crc minLevel max = written) := by
  have hread : s.readPreviousBoot crc minLevel max = FlashStore.readPrevLoop crc s.mem
      (LogRing.wantedLevel minLevel) logfSlotEntries (slotOff b.slot + logfDataOff) max := by
    rw [FlashStore.readPreviousBoot, havailable, hpart, hslot]
    rfl
  rw [hread]
  exact h.read (LogRing.wantedLevel minLevel) max

/-- **The previous boot reads back**: after a boot, whatever is logged and written in it, and until
    the server acknowledges, `logging_read_previous_boot` returns the records that the boot before
    had written, in their order, filtered by level, as many as there is room for; if a write failed
    in that boot, those before it come first. They are among the records that boot wanted to
    keep. -/
theorem previousBoot_read_back {crc : List UInt8 → UInt32}
    (hcrc : crc (List.replicate logRecordSize 0xFF) ≠ 0xFFFFFFFF) (before rest : List StoreOp)
    (bootId : UInt32) (level : UInt8) (hrest : ∀ op ∈ rest, op.flashOp? = none)
    (hdistinct : (bootIds ((before ++ .boot bootId level (.completed true) :: rest).filterMap
      StoreOp.flashOp?)).Nodup)
    (hfew : (bootIds ((before ++ .boot bootId level (.completed true) :: rest).filterMap
      StoreOp.flashOp?)).length < 2 ^ 32)
    {b : BootLog} (hb : (storeRun crc before).last = some b) (minLevel : UInt8) (max : ℕ) :
    let s := (storeRun crc (before ++ .boot bootId level (.completed true) :: rest)).store
    let written := (b.persisted.filter fun x => x.level ≤ LogRing.wantedLevel minLevel).take max
    s.prevBootId = b.bootId ∧ b.persisted.Sublist b.wanted ∧ (∀ x ∈ b.wanted, x.bootId = b.bootId) ∧
      written <+: s.readPreviousBoot crc minLevel max ∧
      (b.intact = true → s.readPreviousBoot crc minLevel max = written) := by
  intro s written
  obtain ⟨havailable, hpart, hid, hslot, hkept⟩ :=
    previous_kept hcrc before rest bootId level hrest hdistinct hfew hb
  obtain ⟨hfirst, hall⟩ := hkept.readPreviousBoot havailable hpart hslot minLevel max
  exact ⟨hid, hkept.sublist, fun x hx => (hkept.genuine x hx).1, hfirst, hall⟩

/-- A record of one boot, read in the next one while that logs another. -/
theorem previousBoot_read_back_start :
    (storeRun crc32 [.boot 7 3 (.completed true), .emit 0 startEntry, .task .ok,
        .boot 8 2 (.completed true), .emit 0 startEntry]).store.readPreviousBoot crc32 0 16 =
      [flashRecord 7 0 startEntry] :=
  (previousBoot_read_back crc32_erased
    [.boot 7 3 (.completed true), .emit 0 startEntry, .task .ok] [.emit 0 startEntry] 8 2
    (by simp [StoreOp.flashOp?]) (by decide) (by decide)
    (b := ⟨7, false, [flashRecord 7 0 startEntry], [flashRecord 7 0 startEntry], true, 0⟩)
    (by rfl) 0 16).2.2.2.2 rfl

/-- **Nothing is lost unseen**: the records that passed the level of the flash are written, buried
    behind a failed write, waiting in the queue, or counted by `logging_flash_dropped_get`, and what
    is written and what waits keeps their order. A step is a whole call, so the emitters and the
    append task do not overlap in `s_ulDroppedFlash++`, which is not atomic. -/
theorem flash_records_accounted {crc : List UInt8 → UInt32}
    (hcrc : crc (List.replicate logRecordSize 0xFF) ≠ 0xFFFFFFFF) (ops : List StoreOp)
    (hfew : (bootIds (ops.filterMap StoreOp.flashOp?)).length < 2 ^ 32) (b : BootLog)
    (hb : (storeRun crc ops).last = some b) (hrunning : (storeRun crc ops).store.running = true) :
    let s := (storeRun crc ops).store
    (b.persisted ++ s.queue.items).Sublist b.wanted ∧ (b.intact = true → b.buried = 0) ∧
      ∃ lost, s.dropped = UInt32.ofNat lost ∧
        b.wanted.length = b.persisted.length + b.buried + s.queue.items.length + lost := by
  have hactive := (storeRun_inv hcrc ops hfew).active b hb hrunning
  exact ⟨hactive.waiting, hactive.clean, hactive.lost⟩

/-- Two records, the first of them written. -/
theorem flash_records_accounted_start :
    ∃ lost, (storeRun crc32 [.boot 7 3 (.completed true), .emit 0 startEntry, .emit 1 startEntry,
      .task .ok]).store.dropped = UInt32.ofNat lost ∧ 2 = 1 + 0 + 1 + lost :=
  (flash_records_accounted crc32_erased
    [.boot 7 3 (.completed true), .emit 0 startEntry, .emit 1 startEntry, .task .ok] (by decide)
    ⟨7, false, [flashRecord 7 0 startEntry, flashRecord 7 1 startEntry],
      [flashRecord 7 0 startEntry],
      true, 0⟩ (by rfl) (by rfl)).2.2

end Fountainer.Logging
