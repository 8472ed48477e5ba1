import Fountainer.Lib.Runs
import Fountainer.Logging.Runtime

/-!
# The slots of the flash log

`logging_flash.c` keeps two slots in the `logstore` partition, one for the present boot and one
for the boot before it. `logging_flash_init` runs before any task that acknowledges is started;
it can lose power between the erase of its slot and the write of the header.
-/

namespace Fountainer.Logging

/-- `LOGF_MAGIC`. -/
def logfMagic : UInt32 := 0x4C4F4753

/-- `logf_hdr_t`: the start of a slot, as the flash has it. -/
structure LogfHdr where
  magic : UInt32
  bootId : UInt32
  generation : UInt32
  acked : UInt32
  deriving DecidableEq, Repr

/-- A header of an erased slot. -/
def erasedHdr : LogfHdr := ⟨0xFFFFFFFF, 0xFFFFFFFF, 0xFFFFFFFF, 0xFFFFFFFF⟩

/-- A write to NOR flash clears bits only. -/
def LogfHdr.program (old new : LogfHdr) : LogfHdr where
  magic := old.magic &&& new.magic
  bootId := old.bootId &&& new.bootId
  generation := old.generation &&& new.generation
  acked := old.acked &&& new.acked

def LogfHdr.Valid (h : LogfHdr) : Prop := h.magic = logfMagic

instance (h : LogfHdr) : Decidable h.Valid := inferInstanceAs (Decidable (_ = _))

/-- The partition, slot 0 at `false` and slot 1 at `true`, and the statics of the present boot;
    `running` once `logging_flash_init` has returned. -/
structure FlashTier where
  slots : Bool → LogfHdr
  own : Bool
  prevAvailable : Bool
  prevBootId : UInt32
  partition : Bool
  running : Bool

/-- What becomes of a call of `logging_flash_init`: the power fails between the erase and the
    header, or it returns, with or without its queue and task. -/
inductive InitOutcome where
  | powerLoss
  | completed (queue : Bool)
  deriving DecidableEq, Repr

/-- The slot that the boot takes: an invalid or acknowledged one, or the older generation. -/
def slotChoice (h : Bool → LogfHdr) : Bool :=
  if ¬ (h false).Valid then false
  else if ¬ (h true).Valid then true
  else if (h false).acked = 0 ∧ (h true).acked ≠ 0 then false
  else if (h true).acked = 0 ∧ (h false).acked ≠ 0 then true
  else if (h false).generation ≤ (h true).generation then false
  else true

/-- The generation of the boot. -/
def nextGeneration (h : Bool → LogfHdr) : UInt32 :=
  let gen : UInt32 := 1
  let gen := if (h false).Valid ∧ gen ≤ (h false).generation then (h false).generation + 1 else gen
  if (h true).Valid ∧ gen ≤ (h true).generation then (h true).generation + 1 else gen

/-- `logging_flash_init`. -/
def loggingFlashInit (s : FlashTier) (bootId : UInt32) (outcome : InitOutcome) : FlashTier :=
  let own := slotChoice s.slots
  let prev := s.slots (!own)
  let gen := nextGeneration s.slots
  let erased := Function.update s.slots own erasedHdr
  let s : FlashTier :=
    { slots := erased
      own := own
      prevAvailable := decide (prev.Valid ∧ prev.acked ≠ 0 ∧ prev.bootId ≠ bootId)
      prevBootId := if prev.Valid then prev.bootId else 0
      partition := false
      running := false }
  match outcome with
  | .powerLoss => s
  | .completed queue =>
    let header := ⟨logfMagic, bootId, gen, 0xFFFFFFFF⟩
    { s with
      slots := Function.update erased own (erasedHdr.program header)
      partition := queue
      running := true }

/-- The tier as an acknowledgement sees it. -/
def FlashTier.prevBoot (s : FlashTier) : PrevBoot where
  available := s.prevAvailable
  bootId := s.prevBootId
  partition := s.partition
  acked := some (s.slots (!s.own)).acked
  writable := true

/-- `logging_ack_previous_boot`, with its write to the slot. -/
def FlashTier.ack (s : FlashTier) (bootId : UInt32) : FlashTier :=
  if (loggingAckPreviousBoot s.prevBoot bootId).1 then
    { s with
      slots := Function.update s.slots (!s.own)
        ((s.slots (!s.own)).program { s.slots (!s.own) with acked := 0 })
      prevAvailable := false }
  else s

/-- Boots, with their ids, and acknowledgements. -/
inductive FlashOp where
  | boot (bootId : UInt32) (outcome : InitOutcome)
  | ack (bootId : UInt32)
  deriving DecidableEq, Repr

/-- The tier along the boots; `last` keeps, for the statements, the slot and the id of the last
    boot whose `logging_flash_init` returned. -/
structure FlashRun where
  tier : FlashTier
  last : Option (Bool × UInt32)

/-- The tier with an empty flash, before the first boot. -/
def emptyFlash : FlashRun where
  tier :=
    { slots := fun _ => erasedHdr
      own := false
      prevAvailable := false
      prevBootId := 0
      partition := false
      running := false }
  last := none

/-- One step. An acknowledgement comes from a task, so not before the init has returned. -/
def flashStep (r : FlashRun) : FlashOp → FlashRun
  | .boot bootId outcome =>
    let tier := loggingFlashInit r.tier bootId outcome
    { tier := tier
      last := match outcome with
        | .powerLoss => r.last
        | .completed _ => some (tier.own, bootId) }
  | .ack bootId => if r.tier.running then { r with tier := r.tier.ack bootId } else r

def flashRun (ops : List FlashOp) : FlashRun := Machine.run flashStep emptyFlash ops

/-- The id of the boot. -/
def FlashOp.bootId? : FlashOp → Option UInt32
  | .boot bootId _ => some bootId
  | .ack _ => none

/-- The ids of the boots, in order. -/
def bootIds (ops : List FlashOp) : List UInt32 := ops.filterMap FlashOp.bootId?

/-- The slot of the boot is not erased, and it is presented as the available log of the previous
    boot. -/
structure FlashTier.Presents (s : FlashTier) (slot : Bool) (bootId : UInt32) : Prop where
  kept : (s.slots slot).Valid ∧ (s.slots slot).bootId = bootId
  prev : s.own = !slot
  available : s.prevAvailable = true
  id : s.prevBootId = bootId

/-- Both slots carry the mark of an acknowledgement. -/
def FlashTier.BothAcked (s : FlashTier) : Prop := ∀ i, (s.slots i).Valid ∧ (s.slots i).acked = 0

-- ════════════════════════════════════════════════════════════════════════
-- The two headers
-- ════════════════════════════════════════════════════════════════════════

@[simp] theorem erasedHdr_program (h : LogfHdr) : erasedHdr.program h = h := by
  have hones (x : UInt32) : 0xFFFFFFFF &&& x = x := UInt32.neg_one_and
  simp [LogfHdr.program, erasedHdr, hones]

theorem erasedHdr_invalid : ¬ erasedHdr.Valid := by decide

/-- The mark of an acknowledgement, written over the header. -/
@[simp] theorem program_acked (h : LogfHdr) :
    h.program { h with acked := 0 } = { h with acked := 0 } := by
  simp [LogfHdr.program]

theorem update_acked (h : Bool → LogfHdr) (i : Bool) :
    Function.update h i ((h i).program { h i with acked := 0 }) i = { h i with acked := 0 } := by
  rw [Function.update_self, program_acked]

/-- The slot `a` is the newest: valid, not acknowledged, and of a later generation than the other
    slot, if that is valid at all. -/
structure Newest (h : Bool → LogfHdr) (a : Bool) : Prop where
  valid : (h a).Valid
  pending : (h a).acked ≠ 0
  positive : 1 ≤ (h a).generation
  later : (h !a).Valid → (h !a).generation < (h a).generation

/-- What keeps the slot, and the other one up to its mark, keeps it the newest. -/
theorem Newest.congr {h h' : Bool → LogfHdr} {a : Bool} (hn : Newest h a) (hsame : h' a = h a)
    (hother : (h' !a).Valid → (h !a).Valid ∧ (h' !a).generation = (h !a).generation) :
    Newest h' a := by
  refine ⟨hsame ▸ hn.valid, hsame ▸ hn.pending, hsame ▸ hn.positive, fun hv => ?_⟩
  rw [hsame, (hother hv).2]
  exact hn.later (hother hv).1

/-- A header that has just been written is the newest, with a generation that is. -/
theorem Newest.of_header {h : Bool → LogfHdr} {a : Bool} {bootId gen : UInt32}
    (hheader : h a = ⟨logfMagic, bootId, gen, 0xFFFFFFFF⟩) (hpos : 1 ≤ gen)
    (hlater : (h !a).Valid → (h !a).generation < gen) : Newest h a := by
  refine ⟨?_, ?_, ?_, fun hv => ?_⟩
  · rw [hheader]
    rfl
  · rw [hheader]
    exact (by decide : (0xFFFFFFFF : UInt32) ≠ 0)
  · rw [hheader]
    exact hpos
  · rw [hheader]
    exact hlater hv

theorem Newest.slotChoice {h : Bool → LogfHdr} {a : Bool} (hn : Newest h a) :
    slotChoice h = !a := by
  have hlater := hn.later
  unfold Logging.slotChoice
  cases a with
  | false =>
    have hle : (h true).Valid → ¬ (h false).generation ≤ (h true).generation :=
      fun hv => UInt32.not_le.mpr (hlater hv)
    by_cases hv : (h true).Valid
    · simp [hn.valid, hv, hn.pending, hle hv]
    · simp [hn.valid, hv]
  | true =>
    by_cases hv : (h false).Valid
    · have hle : (h false).generation ≤ (h true).generation := UInt32.le_of_lt (hlater hv)
      simp [hn.valid, hv, hn.pending, hle]
    · simp [hv]

theorem Newest.nextGeneration {h : Bool → LogfHdr} {a : Bool} (hn : Newest h a) {n : ℕ}
    (hgen : (h a).generation.toNat ≤ n) (hroom : n + 1 < 2 ^ 32) :
    nextGeneration h = (h a).generation + 1 := by
  have hadd (g : UInt32) (hg : g.toNat ≤ n) : (g + 1).toNat = g.toNat + 1 := by
    rw [UInt32.toNat_add]
    exact Nat.mod_eq_of_lt (by simp; omega)
  have hpos := hn.positive
  unfold Logging.nextGeneration
  cases a with
  | false =>
    have hlater : (h true).Valid → (h true).generation < (h false).generation := hn.later
    have hno : ¬ ((h true).Valid ∧ (h false).generation + 1 ≤ (h true).generation) := by
      rintro ⟨hv, hle⟩
      have hlt := UInt32.lt_iff_toNat_lt.mp (hlater hv)
      have hle' := UInt32.le_iff_toNat_le.mp hle
      rw [hadd _ hgen] at hle'
      omega
    simp only [hn.valid, hpos, and_self, if_true, hno, if_false]
  | true =>
    have hlater : (h false).Valid → (h false).generation < (h true).generation := hn.later
    have hle : (if (h false).Valid ∧ 1 ≤ (h false).generation then (h false).generation + 1 else 1)
        ≤ (h true).generation := by
      split
      · next hv =>
        have hlt := UInt32.lt_iff_toNat_lt.mp (hlater hv.1)
        refine UInt32.le_iff_toNat_le.mpr ?_
        rw [hadd _ (by omega)]
        exact hlt
      · exact hpos
    exact if_pos ⟨hn.valid, hle⟩

-- ════════════════════════════════════════════════════════════════════════
-- Along the boots
-- ════════════════════════════════════════════════════════════════════════

/-- The invariant after `n` boots: as long as no init has returned both slots are invalid; then
    the slot of the last one is the newest, and acknowledgements go to the other slot. -/
structure FlashRun.Inv (r : FlashRun) (n : ℕ) : Prop where
  empty : r.last = none → (∀ i, ¬ (r.tier.slots i).Valid) ∧ r.tier.running = false
  newest : ∀ slot id, r.last = some (slot, id) → Newest r.tier.slots slot ∧
    (r.tier.slots slot).bootId = id ∧ (r.tier.slots slot).generation.toNat ≤ n ∧
    (r.tier.running = true → r.tier.own = slot)

theorem emptyFlash_inv : emptyFlash.Inv 0 :=
  ⟨fun _ => ⟨fun _ => erasedHdr_invalid, rfl⟩, fun _ _ h => by cases h⟩

section Init

variable (s : FlashTier) (bootId : UInt32) (outcome : InitOutcome)

@[simp] theorem init_own : (loggingFlashInit s bootId outcome).own = slotChoice s.slots := by
  cases outcome <;> rfl

/-- The other slot stays as it is. -/
theorem init_slots_prev {a : Bool} (ha : slotChoice s.slots = !a) :
    (loggingFlashInit s bootId outcome).slots a = s.slots a := by
  have hne : a ≠ slotChoice s.slots := by
    rw [ha]
    cases a <;> decide
  cases outcome <;> simp [loggingFlashInit, Function.update_of_ne hne]

/-- A power loss leaves the boot's slot erased. -/
theorem init_slots_powerLoss :
    (loggingFlashInit s bootId .powerLoss).slots (slotChoice s.slots) = erasedHdr :=
  Function.update_self ..

theorem init_slots_completed (queue : Bool) :
    (loggingFlashInit s bootId (.completed queue)).slots (slotChoice s.slots) =
      ⟨logfMagic, bootId, nextGeneration s.slots, 0xFFFFFFFF⟩ :=
  (Function.update_self ..).trans (erasedHdr_program _)

end Init

/-- In the empty flash the boot takes slot 0. -/
theorem slotChoice_empty {h : Bool → LogfHdr} (hempty : ∀ i, ¬ (h i).Valid) :
    slotChoice h = false ∧ nextGeneration h = 1 := by
  simp [slotChoice, nextGeneration, hempty]

theorem FlashRun.Inv.boot {r : FlashRun} {n : ℕ} (h : r.Inv n) (hroom : n + 1 < 2 ^ 32)
    (bootId : UInt32) (outcome : InitOutcome) :
    (flashStep r (.boot bootId outcome)).Inv (n + 1) := by
  cases hlast : r.last with
  | none =>
    obtain ⟨hinvalid, -⟩ := h.empty hlast
    obtain ⟨hown, hgen⟩ := slotChoice_empty hinvalid
    have hother : (loggingFlashInit r.tier bootId outcome).slots true = r.tier.slots true :=
      init_slots_prev _ _ _ hown
    cases outcome with
    | powerLoss =>
      refine ⟨fun _ => ⟨fun i => ?_, rfl⟩, fun slot id hid => ?_⟩
      · cases i with
        | false =>
          have herased := init_slots_powerLoss r.tier bootId
          rw [hown] at herased
          exact herased ▸ erasedHdr_invalid
        | true => exact hother ▸ hinvalid true
      · exact absurd (hlast.symm.trans hid) (by simp)
    | completed queue =>
      refine ⟨fun hno => absurd hno (by simp [flashStep]), fun slot id hid => ?_⟩
      obtain ⟨rfl, rfl⟩ : (loggingFlashInit r.tier bootId (.completed queue)).own = slot ∧
        bootId = id :=
        by simpa [flashStep] using hid
      have hheader := init_slots_completed r.tier bootId queue
      rw [hown, hgen] at hheader
      rw [init_own, hown]
      refine ⟨.of_header hheader (UInt32.le_refl 1) fun hv => ?_, ?_, ?_, fun _ => ?_⟩
      · exact absurd hv (hother ▸ hinvalid true)
      · exact congrArg LogfHdr.bootId hheader
      · refine (congrArg (fun h : LogfHdr => h.generation.toNat) hheader).trans_le ?_
        exact Nat.succ_le_succ (Nat.zero_le n)
      · exact (init_own ..).trans hown
  | some last =>
    obtain ⟨a, k⟩ := last
    obtain ⟨hnew, hid, hgen, -⟩ := h.newest a k hlast
    have hown := hnew.slotChoice
    have hkept := init_slots_prev r.tier bootId outcome hown
    cases outcome with
    | powerLoss =>
      have herased := init_slots_powerLoss r.tier bootId
      rw [hown] at herased
      refine ⟨fun hno => absurd (hlast.symm.trans hno) (by simp), fun slot id hid' => ?_⟩
      obtain ⟨rfl, rfl⟩ : a = slot ∧ k = id := by simpa [flashStep, hlast] using hid'
      refine ⟨hnew.congr hkept fun hv => ?_, ?_, ?_, fun hrun => ?_⟩
      · exact absurd hv (herased ▸ erasedHdr_invalid)
      · exact (congrArg LogfHdr.bootId hkept).trans hid
      · exact (congrArg (fun h : LogfHdr => h.generation.toNat) hkept).trans_le
          (Nat.le_succ_of_le hgen)
      · cases hrun
    | completed queue =>
      have hheader := init_slots_completed r.tier bootId queue
      rw [hown, hnew.nextGeneration hgen hroom] at hheader
      refine ⟨fun hno => absurd hno (by simp [flashStep]), fun slot id hid' => ?_⟩
      obtain ⟨rfl, rfl⟩ : (loggingFlashInit r.tier bootId (.completed queue)).own = slot ∧
        bootId = id :=
        by simpa [flashStep] using hid'
      have hsucc : ((r.tier.slots a).generation + 1).toNat =
        (r.tier.slots a).generation.toNat + 1 := by
        rw [UInt32.toNat_add]
        exact Nat.mod_eq_of_lt (by simp; omega)
      rw [init_own, hown]
      refine ⟨.of_header hheader ?_ fun _ => ?_, ?_, ?_, fun _ => ?_⟩
      · refine UInt32.le_iff_toNat_le.mpr ?_
        rw [hsucc]
        exact Nat.succ_le_succ (Nat.zero_le _)
      · rw [Bool.not_not]
        refine UInt32.lt_iff_toNat_lt.mpr ?_
        rw [hsucc]
        refine (congrArg (fun h : LogfHdr => h.generation.toNat) hkept).trans_lt ?_
        exact Nat.lt_succ_self _
      · exact congrArg LogfHdr.bootId hheader
      · refine (congrArg (fun h : LogfHdr => h.generation.toNat) hheader).trans_le ?_
        exact hsucc.trans_le (Nat.succ_le_succ hgen)
      · exact (init_own ..).trans hown

theorem FlashRun.Inv.ack {r : FlashRun} {n : ℕ} (h : r.Inv n) (bootId : UInt32) :
    (flashStep r (.ack bootId)).Inv n := by
  by_cases hrun : r.tier.running = true
  swap
  · rwa [flashStep, if_neg hrun]
  rw [flashStep, if_pos hrun, FlashTier.ack]
  by_cases hack : (loggingAckPreviousBoot r.tier.prevBoot bootId).1 = true
  swap
  · rwa [if_neg hack]
  rw [if_pos hack]
  refine ⟨fun hlast => ?_, fun slot id hlast => ?_⟩
  · exact absurd (hrun.symm.trans (h.empty hlast).2) (by decide)
  · obtain ⟨hnew, hid, hgen, hown⟩ := h.newest slot id hlast
    obtain rfl := hown hrun
    -- The write goes to the other slot and keeps its magic and generation.
    have hne : r.tier.own ≠ !r.tier.own := by cases r.tier.own <;> decide
    have hself := Function.update_of_ne hne ((r.tier.slots !r.tier.own).program
      { r.tier.slots (!r.tier.own) with acked := 0 }) r.tier.slots
    refine ⟨hnew.congr hself fun hv => ?_, ?_, ?_, fun _ => rfl⟩
    · have hother := update_acked r.tier.slots (!r.tier.own)
      have hgen := congrArg LogfHdr.generation hother
      exact ⟨(congrArg LogfHdr.magic hother).symm.trans hv, hgen⟩
    · exact (congrArg LogfHdr.bootId hself).trans hid
    · exact (congrArg (fun h : LogfHdr => h.generation.toNat) hself).trans_le hgen

theorem FlashRun.Inv.presents {r : FlashRun} {n : ℕ} (h : r.Inv n) {slot : Bool} {k : UInt32}
    (hlast : r.last = some (slot, k)) {bootId : UInt32} (hne : k ≠ bootId) (outcome : InitOutcome) :
    (flashStep r (.boot bootId outcome)).tier.Presents slot k := by
  obtain ⟨hnew, hid, -⟩ := h.newest slot k hlast
  have hown := hnew.slotChoice
  have hkept := init_slots_prev r.tier bootId outcome hown
  have havail : (loggingFlashInit r.tier bootId outcome).prevAvailable = true ∧
      (loggingFlashInit r.tier bootId outcome).prevBootId = k := by
    cases outcome <;>
      simp [loggingFlashInit, hown, hnew.valid, hnew.pending, hid, hne]
  refine ⟨⟨hkept ▸ hnew.valid, (congrArg LogfHdr.bootId hkept).trans hid⟩, ?_, havail.1, havail.2⟩
  exact (init_own ..).trans hown

theorem FlashRun.Inv.not_bothAcked {r : FlashRun} {n : ℕ} (h : r.Inv n) : ¬ r.tier.BothAcked := by
  intro hboth
  cases hlast : r.last with
  | none => exact (h.empty hlast).1 false (hboth false).1
  | some last => exact (h.newest last.1 last.2 hlast).1.pending (hboth last.1).2

theorem bootIds_concat (ops : List FlashOp) (op : FlashOp) :
    bootIds (ops ++ [op]) = bootIds ops ++ op.bootId?.toList := by
  unfold bootIds
  cases h : op.bootId? <;> simp [h]

theorem flashRun_inv (ops : List FlashOp) (hfew : (bootIds ops).length < 2 ^ 32) :
    (flashRun ops).Inv (bootIds ops).length ∧
      ∀ slot id, (flashRun ops).last = some (slot, id) → id ∈ bootIds ops := by
  induction ops using List.reverseRecOn with
  | nil => exact ⟨emptyFlash_inv, fun slot id h => by cases h⟩
  | append_singleton ops op ih =>
    rw [bootIds_concat, List.length_append] at hfew
    obtain ⟨hinv, hmem⟩ := ih (by omega)
    rw [flashRun, Machine.run_concat, bootIds_concat]
    cases op with
    | boot bootId outcome =>
      refine ⟨?_, fun slot id hlast => ?_⟩
      · rw [List.length_append]
        exact FlashRun.Inv.boot hinv hfew bootId outcome
      · cases outcome with
        | powerLoss => exact List.mem_append_left _ (hmem slot id hlast)
        | completed queue =>
          obtain ⟨-, rfl⟩ : _ ∧ bootId = id := by simpa [flashStep] using hlast
          exact List.mem_append_right _ (List.mem_singleton.mpr rfl)
    | ack bootId =>
      refine ⟨?_, fun slot id hlast => ?_⟩
      · rw [List.length_append]
        exact FlashRun.Inv.ack hinv bootId
      refine List.mem_append_left _ (hmem slot id ?_)
      rw [flashStep] at hlast
      split at hlast <;> exact hlast

/-- **The previous boot's log survives.** With distinct boot ids and fewer than 2^32 boots, every
    call of `logging_flash_init` after a boot that completed it, up to the next one that completes,
    keeps that boot's slot and presents it as the available previous boot; and the two slots are
    never both acknowledged. -/
theorem previousBoot_presented (ops : List FlashOp) (hdistinct : (bootIds ops).Nodup)
    (hfew : (bootIds ops).length < 2 ^ 32) :
    (∀ i bootId outcome, ops[i]? = some (.boot bootId outcome) → ∀ slot k,
      (flashRun (ops.take i)).last = some (slot, k) →
        (flashRun (ops.take (i + 1))).tier.Presents slot k) ∧
    ∀ i, ¬ (flashRun (ops.take i)).tier.BothAcked := by
  have hpre (i : ℕ) : (bootIds (ops.take i)).Sublist (bootIds ops) :=
    (List.take_sublist i ops).filterMap _
  have hinv (i : ℕ) := flashRun_inv (ops.take i) ((hpre i).length_le.trans_lt hfew)
  refine ⟨fun i bootId outcome hop slot k hlast => ?_, fun i => (hinv i).1.not_bothAcked⟩
  have hk : k ∈ bootIds (ops.take i) := (hinv i).2 slot k hlast
  have hids : bootIds (ops.take (i + 1)) = bootIds (ops.take i) ++ [bootId] := by
    rw [List.take_add_one, hop]
    exact bootIds_concat _ _
  have hne : k ≠ bootId := by
    rintro rfl
    have hnodup := (hpre (i + 1)).nodup hdistinct
    rw [hids] at hnodup
    exact (List.nodup_append.mp hnodup).2.2 k hk k (List.mem_singleton.mpr rfl) rfl
  rw [flashRun, Machine.run_take_succ flashStep hop]
  exact (hinv i).1.presents hlast hne outcome

/-- A first boot, one that loses power in its init, and one that completes it. -/
def exampleBoots : List FlashOp :=
  [.boot 7 (.completed true), .boot 8 .powerLoss, .boot 9 (.completed true), .ack 7]

theorem previousBoot_presented_example :
    (flashRun (exampleBoots.take 3)).tier.Presents false 7 ∧
      ¬ (flashRun (exampleBoots.take 4)).tier.BothAcked := by
  have h := previousBoot_presented exampleBoots (by decide) (by decide)
  exact ⟨h.1 2 9 (.completed true) rfl false 7 rfl, h.2 4⟩

end Fountainer.Logging
