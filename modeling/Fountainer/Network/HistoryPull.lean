import Fountainer.Lib.Cursor
import Mathlib.Data.List.Sort
import Fountainer.PressureHistory.Ring

/-!
# The history pull

`task_com_fill_history_batch`: what a `history_read` with a cursor is answered. The history is in
RAM, and each boot numbers its samples anew; a batch names the boot and the first number that is
still there, so that the server can start again after a reboot and knows of what it missed.
-/

namespace Fountainer.Network

open PressureHistory

/-- `PRESSURE_HISTORY_CAPACITY`. -/
abbrev pressureHistoryCapacity : ℕ := 100

/-- `PRESSURE_HISTORY_INTERVAL_MS`. -/
def pressureHistoryIntervalMs : UInt32 := 1000

/-- The body of `history_batch`. -/
structure HistoryBatch where
  bootId : UInt32
  nowMs : UInt32
  sampleIntervalMs : UInt32
  nextSeq : UInt32
  firstSeqAvailable : UInt32
  overwritten : UInt32
  highWatermark : UInt32
  samples : List PressureSample
  deriving DecidableEq, Repr

/-- `task_com_fill_history_batch`; `alloc` is whether the buffer could be allocated. -/
def taskComFillHistoryBatch (ring : PressureRing pressureHistoryCapacity) (bootId nowMs : UInt32)
    (alloc : Bool) (sinceSeq maxSamples : UInt32) : HistoryBatch where
  bootId := bootId
  nowMs := nowMs
  sampleIntervalMs := pressureHistoryIntervalMs
  nextSeq := ring.nextSeq
  firstSeqAvailable := ring.nextSeq - ring.count.toUInt32
  overwritten := ring.overwritten
  highWatermark := ring.highWatermark
  samples :=
    if alloc then
      pressureRingReadSince ring sinceSeq (if maxSamples > 120 then 120 else maxSamples).toNat
    else []

/-- A device and a server that polls it. The server has the boot it knows and the last number it
    got; `sent` are the samples of the present boot that it got, and `gaps` the numbers between
    which batches told it that samples are gone. For the statements, what was recorded and got of
    earlier boots is kept with their ids. -/
structure HistoryPull where
  bootId : UInt32
  pushes : List Push
  server : Option (UInt32 × UInt32)
  sent : List PressureSample
  gaps : List (UInt32 × UInt32)
  recordedBefore : List (UInt32 × PressureSample)
  gotBefore : List (UInt32 × PressureSample)

/-- A sample is recorded, the server polls, or the device reboots. -/
inductive HistoryOp where
  | sample (p : Push)
  | poll (nowMs : UInt32) (alloc : Bool) (maxSamples : UInt32)
  | reboot (bootId : UInt32)

namespace HistoryPull

variable (s : HistoryPull)

/-- The ring of the present boot. -/
def ring : PressureRing pressureHistoryCapacity := ringRun (fun _ => ⟨0, 0, 0, 0⟩) s.pushes

/-- The samples of all boots, with the ids of these. -/
def recorded : List (UInt32 × PressureSample) :=
  s.recordedBefore ++ (pushed s.pushes).map fun x => (s.bootId, x)

/-- The samples that the server got, with the ids of their boots. -/
def got : List (UInt32 × PressureSample) := s.gotBefore ++ s.sent.map fun x => (s.bootId, x)

/-- The last number of the present boot that the server has. -/
def cursor : UInt32 :=
  match s.server with
  | some (bootId, since) => if bootId = s.bootId then since else 0
  | none => 0

/-- The server on a batch: from another boot than the one it knows, it starts again. -/
def take (b : HistoryBatch) : HistoryPull :=
  match s.server with
  | none => { s with server := some (b.bootId, 0) }
  | some (bootId, since) =>
    if bootId = b.bootId then
      { s with
        server := some (bootId, (b.samples.getLast?.map PressureSample.sequence).getD since)
        sent := s.sent ++ b.samples
        gaps := if since + 1 < b.firstSeqAvailable then s.gaps ++ [(since, b.firstSeqAvailable)]
          else s.gaps }
    else { s with server := some (b.bootId, 0) }

end HistoryPull

/-- One step. -/
def historyStep (s : HistoryPull) : HistoryOp → HistoryPull
  | .sample p => { s with pushes := s.pushes ++ [p] }
  | .poll nowMs alloc maxSamples =>
    let since := (s.server.map Prod.snd).getD 0
    s.take (taskComFillHistoryBatch s.ring s.bootId nowMs alloc since maxSamples)
  | .reboot bootId =>
    { s with
      bootId := bootId
      pushes := []
      sent := []
      gaps := []
      recordedBefore := s.recorded
      gotBefore := s.got }

/-- A device that has just started, and a server that does not know it. -/
def historyStart (bootId : UInt32) : HistoryPull where
  bootId := bootId
  pushes := []
  server := none
  sent := []
  gaps := []
  recordedBefore := []
  gotBefore := []

def historyRun (bootId : UInt32) (ops : List HistoryOp) : HistoryPull :=
  Machine.run historyStep (historyStart bootId) ops

/-- The id of the boot that begins. -/
def HistoryOp.bootId? : HistoryOp → Option UInt32
  | .reboot bootId => some bootId
  | _ => none

/-- The ids of the boots, in order. -/
def historyBoots (bootId : UInt32) (ops : List HistoryOp) : List UInt32 :=
  bootId :: ops.filterMap HistoryOp.bootId?

-- ════════════════════════════════════════════════════════════════════════
-- A batch
-- ════════════════════════════════════════════════════════════════════════

namespace HistoryPull

variable {s : HistoryPull}

/-- The number of the oldest sample in the ring. -/
def first (s : HistoryPull) : ℕ := s.pushes.length - min s.pushes.length pressureHistoryCapacity + 1

/-- The ring and the server as a reader with a cursor. -/
def reader (s : HistoryPull) : Cursor.Reader PressureSample where
  issued := pushed s.pushes
  first := s.first
  since := s.cursor.toNat
  sent := s.sent

/-- The key of a sample. -/
def number (x : PressureSample) : ℕ := x.sequence.toNat

theorem ring_fed (hlen : s.pushes.length < 2 ^ 32 - 1) : Fed s.ring (pushed s.pushes) :=
  ringRun_fed (by decide) _ _ hlen

theorem pushed_sorted (hlen : s.pushes.length < 2 ^ 32 - 1) :
    ((pushed s.pushes).map number).Pairwise (· < ·) := by
  have hnumbers : (pushed s.pushes).map number = List.range' 1 s.pushes.length := by
    refine List.ext_getElem (by simp) fun i hi hi' => ?_
    rw [List.getElem_map, List.getElem_range', Nat.one_mul, Nat.add_comm]
    exact pushed_numbered hlen i (by simpa using hi)
  exact hnumbers ▸ List.pairwise_lt_range'

theorem number_mem {x : PressureSample} (hlen : s.pushes.length < 2 ^ 32 - 1)
    (hx : x ∈ pushed s.pushes) : 1 ≤ number x ∧ number x ≤ s.pushes.length := by
  obtain ⟨i, hi, rfl⟩ := List.mem_iff_getElem.mp hx
  rw [number, pushed_numbered hlen i hi]
  rw [length_pushed] at hi
  omega

/-- A batch has the number of the oldest sample. -/
theorem firstSeqAvailable_eq (hlen : s.pushes.length < 2 ^ 32 - 1) (nowMs : UInt32) (alloc : Bool)
    (sinceSeq maxSamples : UInt32) :
    (taskComFillHistoryBatch s.ring s.bootId nowMs alloc sinceSeq
      maxSamples).firstSeqAvailable.toNat =
      s.first := by
  have hfed := ring_fed hlen
  have hcount := hfed.count
  have hnext := hfed.nextSeq
  rw [length_pushed] at hcount hnext
  have hle : s.ring.count.toUInt32 ≤ s.ring.nextSeq := UInt32.le_iff_toNat_le.mpr (by
    rw [UInt16.toNat_toUInt32]
    omega)
  rw [taskComFillHistoryBatch, UInt32.toNat_sub_of_le _ _ hle, UInt16.toNat_toUInt32, first]
  omega

/-- A batch has the first of the samples behind the cursor that are still there. -/
theorem samples_prefix (hlen : s.pushes.length < 2 ^ 32 - 1) (nowMs : UInt32) (alloc : Bool)
    (maxSamples : UInt32) (hsince : s.cursor.toNat ≤ s.pushes.length) :
    (taskComFillHistoryBatch s.ring s.bootId nowMs alloc s.cursor maxSamples).samples <+:
      s.reader.pending number fun _ => True := by
  cases alloc with
  | false => exact List.nil_prefix
  | true =>
    have hnum := pushed_numbered hlen
    have hread := (ring_fed hlen).readSince_eq (by rw [length_pushed]; omega) s.cursor
      (if maxSamples > 120 then 120 else maxSamples).toNat
    have hsucc : (s.cursor + 1).toNat - 1 = s.cursor.toNat := by
      rw [UInt32.toNat_add, UInt32.toNat_one]
      omega
    have hpending : s.reader.pending number (fun _ => True) =
        (pushed s.pushes).drop (max s.cursor.toNat (s.first - 1)) := by
      have hbound : max s.cursor.toNat (s.first - 1) < 2 ^ 32 := by
        rw [first]
        omega
      have hto : (UInt32.ofNat (max s.cursor.toNat (s.first - 1))).toNat =
          max s.cursor.toNat (s.first - 1) := Nat.mod_eq_of_lt hbound
      have hdrop := hnum.filter_drop (UInt32.ofNat (max s.cursor.toNat (s.first - 1))) 0
      rw [List.drop_zero, hto, Nat.max_eq_left (Nat.zero_le _)] at hdrop
      rw [← hdrop]
      refine List.filter_congr fun x _ => decide_eq_decide.mpr ?_
      rw [UInt32.lt_iff_toNat_lt, hto]
      have hpos : 1 ≤ s.first := Nat.succ_le_succ (Nat.zero_le _)
      change (s.first ≤ x.sequence.toNat ∧ s.cursor.toNat < x.sequence.toNat ∧ True) ↔
        max s.cursor.toNat (s.first - 1) < x.sequence.toNat
      rw [and_true, Nat.max_lt]
      omega
    rw [taskComFillHistoryBatch, if_pos rfl, hread, hsucc, length_pushed, hpending]
    exact List.take_prefix _ _

/-- The invariant of a run through these boots. -/
structure Inv (s : HistoryPull) (boots : List UInt32) : Prop where
  known : ∀ bootId since, s.server = some (bootId, since) → bootId ∈ boots
  current : s.bootId ∈ boots
  since_le : s.cursor.toNat ≤ s.pushes.length
  sent : Cursor.Sent number (fun _ => True) 0 s.reader
  before : s.gotBefore.Sublist s.recordedBefore
  covered : ∀ x ∈ pushed s.pushes, number x ≤ s.cursor.toNat →
    x ∈ s.sent ∨ ∃ g ∈ s.gaps, g.1 < x.sequence ∧ x.sequence < g.2
  apart : ∀ g ∈ s.gaps, g.2.toNat ≤ s.first ∧ ∀ x ∈ s.sent, x.sequence ≤ g.1 ∨ g.2 ≤ x.sequence

variable {boots : List UInt32}

theorem start_inv (bootId : UInt32) : (historyStart bootId).Inv [bootId] where
  known := by simp [historyStart]
  current := List.mem_cons_self
  since_le := by simp [historyStart, cursor]
  sent := ⟨by simp [reader, historyStart, pushed], Nat.zero_le _, by simp [reader, historyStart],
    by simp [reader, historyStart]⟩
  before := List.Sublist.refl _
  covered := by simp [historyStart, pushed]
  apart := by simp [historyStart]

theorem Inv.sample (h : s.Inv boots) (p : Push) (hlen : s.pushes.length + 1 < 2 ^ 32 - 1) :
    (historyStep s (.sample p)).Inv boots := by
  have hpushes : (historyStep s (.sample p)).pushes.length = s.pushes.length + 1 := by
    simp [historyStep]
  have hsame : (historyStep s (.sample p)).cursor = s.cursor := rfl
  have hfirst : s.first ≤ (historyStep s (.sample p)).first := by
    rw [first, first, hpushes]
    omega
  have hsorted := pushed_sorted (s := historyStep s (.sample p)) (by omega)
  refine ⟨h.known, h.current, by rw [hsame, hpushes]; exact h.since_le.trans (Nat.le_succ _), ?_,
    h.before, fun x hx hle => ?_, fun g hg => ?_⟩
  · refine Cursor.Step.sent (s := s.reader)
      (.log _ (pushed_concat s.pushes p) hsorted ?_ hfirst rfl rfl)
      h.sent
    intro x hx
    have hnumber : number x = s.pushes.length + 1 := by
      rw [List.mem_singleton.mp hx]
      exact Nat.mod_eq_of_lt (by omega)
    rw [hnumber]
    exact Nat.lt_succ_of_le h.since_le
  · rw [show pushed (historyStep s (.sample p)).pushes = _ from pushed_concat s.pushes p] at hx
    rcases List.mem_append.mp hx with hx | hx
    · exact h.covered x hx hle
    · -- The new sample is in front of the cursor.
      have hnumber : number x = s.pushes.length + 1 := by
        rw [List.mem_singleton.mp hx]
        exact Nat.mod_eq_of_lt (by omega)
      have := h.since_le
      rw [hsame] at hle
      omega
  · exact ⟨(h.apart g hg).1.trans hfirst, (h.apart g hg).2⟩

/-- What the server got of the present boot is among what it recorded, in order. -/
theorem Inv.sent_sublist (h : s.Inv boots) (hlen : s.pushes.length < 2 ^ 32 - 1) :
    s.sent.Sublist (pushed s.pushes) := by
  have hsorted := List.pairwise_map.mp (pushed_sorted hlen)
  have hsent := List.pairwise_map.mp h.sent.sent_sorted
  have hsubset : s.sent ⊆ pushed s.pushes := fun x hx => (h.sent.sent_mem x hx).1
  have hnodup : s.sent.Nodup := hsent.imp fun hlt heq => absurd (heq ▸ hlt) (lt_irrefl _)
  have : Std.Antisymm fun a b : PressureSample => number a < number b :=
    ⟨fun _ _ hlt hgt => absurd hlt (lt_asymm hgt)⟩
  exact List.sublist_of_subperm_of_pairwise (List.subperm_of_subset hnodup hsubset) hsent hsorted

theorem Inv.reboot (h : s.Inv boots) (hlen : s.pushes.length < 2 ^ 32 - 1) {bootId : UInt32}
    (hfresh : bootId ∉ boots) : (historyStep s (.reboot bootId)).Inv (boots ++ [bootId]) := by
  have hcursor : (historyStep s (.reboot bootId)).cursor = 0 := by
    rw [cursor]
    split
    · next id since heq =>
      have hne : id ≠ bootId := fun heq' => hfresh (heq' ▸ h.known _ _ heq)
      exact if_neg hne
    · rfl
  refine ⟨fun id since hid => List.mem_append_left _ (h.known id since hid),
    by simp [historyStep], ?_, ?_, ?_, by simp [historyStep, pushed], by simp [historyStep]⟩
  · rw [hcursor]
    exact Nat.zero_le _
  · exact ⟨by simp [reader, historyStep, pushed], Nat.zero_le _, by simp [reader, historyStep],
      by simp [reader, historyStep]⟩
  · exact h.before.append ((h.sent_sublist hlen).map _)

/-- A batch of the boot that the server knows. -/
theorem Inv.take (h : s.Inv boots) (hlen : s.pushes.length < 2 ^ 32 - 1) {since : UInt32}
    (hserver : s.server = some (s.bootId, since)) (nowMs : UInt32) (alloc : Bool)
    (maxSamples : UInt32) :
    (s.take (taskComFillHistoryBatch s.ring s.bootId nowMs alloc since maxSamples)).Inv boots := by
  have hcursor : s.cursor = since := by
    rw [cursor, hserver]
    exact if_pos rfl
  obtain rfl := hcursor
  have hpre := samples_prefix hlen nowMs alloc maxSamples h.since_le
  have hfirst := firstSeqAvailable_eq hlen nowMs alloc s.cursor maxSamples
  rw [HistoryPull.take, hserver]
  simp only [show (taskComFillHistoryBatch s.ring s.bootId nowMs alloc s.cursor maxSamples).bootId =
    s.bootId from rfl, if_true]
  generalize taskComFillHistoryBatch s.ring s.bootId nowMs alloc s.cursor maxSamples = b at *
  have hbatch (x : PressureSample) (hx : x ∈ b.samples) :
      x ∈ pushed s.pushes ∧ s.first ≤ number x ∧ s.cursor.toNat < number x := by
    obtain ⟨hissued, hle, hlt, -⟩ := Cursor.mem_pending.mp (hpre.subset hx)
    exact ⟨hissued, hle, hlt⟩
  have hpushes := h.since_le
  have hsucc : (s.cursor + 1).toNat = s.cursor.toNat + 1 := by
    rw [UInt32.toNat_add, UInt32.toNat_one]
    omega
  obtain ⟨gaps, hgaps, hold, hnew, hall⟩ : ∃ gaps, (if s.cursor + 1 < b.firstSeqAvailable then
      s.gaps ++ [(s.cursor, b.firstSeqAvailable)] else s.gaps) = gaps ∧ (∀ g ∈ s.gaps, g ∈ gaps) ∧
      (s.cursor + 1 < b.firstSeqAvailable → (s.cursor, b.firstSeqAvailable) ∈ gaps) ∧
      ∀ g ∈ gaps, g ∈ s.gaps ∨ g = (s.cursor, b.firstSeqAvailable) := by
    by_cases hgap : s.cursor + 1 < b.firstSeqAvailable
    · exact ⟨_, if_pos hgap, fun g hg => List.mem_append_left _ hg,
        fun _ => List.mem_append_right _ List.mem_cons_self,
        fun g hg => (List.mem_append.mp hg).imp_right List.mem_singleton.mp⟩
    · exact ⟨_, if_neg hgap, fun g hg => hg, fun h => absurd h hgap, fun g hg => .inl hg⟩
  rw [hgaps]
  set since := (b.samples.getLast?.map PressureSample.sequence).getD s.cursor with hsince
  have hlast : since.toNat = (b.samples.getLast?.map number).getD s.cursor.toNat := by
    rw [hsince]
    cases b.samples.getLast? <;> rfl
  have hcursor' : ({ s with
      server := some (s.bootId, since), sent := s.sent ++ b.samples, gaps := gaps } :
      HistoryPull).cursor = since := if_pos rfl
  obtain ⟨hge, hseen⟩ := Cursor.Step.poll_since hpre h.sent.sorted
  have hsent : Cursor.Sent number (fun _ => True) 0 ({ s with
      server := some (s.bootId, since), sent := s.sent ++ b.samples, gaps := gaps } :
      HistoryPull).reader :=
    Cursor.Step.sent
    (.poll b.samples hpre rfl rfl (by rw [reader, hcursor']; exact hlast) rfl) h.sent
  refine ⟨fun id n hid => ?_, h.current, ?_, hsent, h.before, fun x hx hle => ?_, fun g hg => ?_⟩
  · rw [← (Prod.mk.inj (Option.some.inj hid)).1]
    exact h.current
  · rw [hcursor', hlast]
    cases hget : b.samples.getLast? with
    | none => exact h.since_le
    | some x => exact (number_mem hlen (hbatch x (List.mem_of_getLast? hget)).1).2
  · rw [hcursor', hlast] at hle
    by_cases hbefore : number x ≤ s.cursor.toNat
    · refine (h.covered x hx hbefore).imp (List.mem_append_left _) ?_
      rintro ⟨g, hg, hin⟩
      exact ⟨g, hold g hg, hin⟩
    by_cases hthere : s.first ≤ number x
    · -- It stands behind the cursor in the ring, and not beyond the end of the batch.
      left
      have hpending : x ∈ s.reader.pending number fun _ => True :=
        Cursor.mem_pending.mpr ⟨hx, hthere, Nat.not_le.mp hbefore, trivial⟩
      cases hget : b.samples.getLast? with
      | none =>
        rw [hget] at hle
        exact absurd hle hbefore
      | some y =>
        rw [hget] at hle
        exact List.mem_append_right _ (Cursor.mem_of_prefix_of_le hpre
          (h.sent.sorted.sublist (List.filter_sublist.map _))
          (List.mem_of_getLast? hget) hpending hle)
    · have hlt : number x < b.firstSeqAvailable.toNat := by omega
      exact .inr ⟨_, hnew (UInt32.lt_iff_toNat_lt.mpr (by omega)),
        UInt32.lt_iff_toNat_lt.mpr (Nat.not_le.mp hbefore), UInt32.lt_iff_toNat_lt.mpr hlt⟩
  · rcases hall g hg with hg | rfl
    · obtain ⟨hle, hapart⟩ := h.apart g hg
      refine ⟨hle, fun x hx => ?_⟩
      rcases List.mem_append.mp hx with hx | hx
      · exact hapart x hx
      · exact .inr (UInt32.le_iff_toNat_le.mpr (hle.trans (hbatch x hx).2.1))
    · refine ⟨hfirst.le, fun x hx => ?_⟩
      rcases List.mem_append.mp hx with hx | hx
      · exact .inl (UInt32.le_iff_toNat_le.mpr (h.sent.sent_mem x hx).2.2.2)
      · exact .inr (UInt32.le_iff_toNat_le.mpr (hfirst.le.trans (hbatch x hx).2.1))

theorem Inv.poll (h : s.Inv boots) (hlen : s.pushes.length < 2 ^ 32 - 1) (nowMs : UInt32)
    (alloc : Bool) (maxSamples : UInt32) :
    (historyStep s (.poll nowMs alloc maxSamples)).Inv boots := by
  -- The server starts again on a boot that it does not know.
  have hagain (hno : ∀ since, s.server ≠ some (s.bootId, since)) :
      ({ s with server := some (s.bootId, 0) } : HistoryPull).Inv boots := by
    have hcursor : s.cursor = 0 := by
      rw [cursor]
      split
      · next id since heq =>
        exact if_neg fun heq' : id = s.bootId => hno since (heq' ▸ heq)
      · rfl
    have hcursor' : ({ s with server := some (s.bootId, 0) } : HistoryPull).cursor = 0 := if_pos rfl
    have hreader : ({ s with server := some (s.bootId, 0) } : HistoryPull).reader = s.reader := by
      rw [reader, reader, hcursor, hcursor']
      rfl
    refine ⟨fun id since hid => ?_, h.current, ?_, hreader ▸ h.sent, h.before,
      fun x hx hle => ?_, h.apart⟩
    · rw [← (Prod.mk.inj (Option.some.inj hid)).1]
      exact h.current
    · rw [hcursor']
      exact Nat.zero_le _
    · rw [hcursor', ← hcursor] at hle
      exact h.covered x hx hle
  rw [historyStep]
  cases hserver : s.server with
  | none =>
    rw [HistoryPull.take, hserver]
    exact hagain (by simp [hserver])
  | some known =>
    obtain ⟨id, since⟩ := known
    by_cases hid : id = s.bootId
    · subst hid
      exact h.take hlen hserver nowMs alloc maxSamples
    · rw [HistoryPull.take, hserver]
      simp only [show ∀ since, (taskComFillHistoryBatch s.ring s.bootId nowMs alloc since
        maxSamples).bootId = s.bootId from fun _ => rfl, hid, if_false]
      exact hagain (by simp [hserver, hid])

end HistoryPull

theorem historyBoots_concat (bootId : UInt32) (ops : List HistoryOp) (op : HistoryOp) :
    historyBoots bootId (ops ++ [op]) = historyBoots bootId ops ++ op.bootId?.toList := by
  unfold historyBoots
  cases h : op.bootId? <;> simp [h]

theorem historyRun_inv (bootId : UInt32) (ops : List HistoryOp)
    (hdistinct : (historyBoots bootId ops).Nodup) (hlen : ops.length < 2 ^ 32 - 1) :
    (historyRun bootId ops).Inv (historyBoots bootId ops) ∧
      (historyRun bootId ops).pushes.length ≤ ops.length := by
  induction ops using List.reverseRecOn with
  | nil => exact ⟨HistoryPull.start_inv bootId, le_rfl⟩
  | append_singleton ops op ih =>
    rw [historyBoots_concat] at hdistinct ⊢
    rw [List.length_append, List.length_singleton] at hlen ⊢
    obtain ⟨hinv, hpushes⟩ := ih (List.nodup_append.mp hdistinct).1 (by omega)
    rw [historyRun, Machine.run_concat]
    cases op with
    | sample p =>
      have hsample := hinv.sample p (by omega)
      rw [show (HistoryOp.sample p).bootId?.toList = [] from rfl, List.append_nil]
      refine ⟨hsample, ?_⟩
      rw [historyStep, List.length_append, List.length_singleton]
      exact Nat.succ_le_succ hpushes
    | poll nowMs alloc maxSamples =>
      have hpoll := hinv.poll (by omega) nowMs alloc maxSamples
      rw [show (HistoryOp.poll nowMs alloc maxSamples).bootId?.toList = [] from rfl,
        List.append_nil]
      refine ⟨hpoll, le_trans (Nat.le_of_eq ?_) (Nat.le_succ_of_le hpushes)⟩
      rw [historyStep, HistoryPull.take]
      split
      · rfl
      · split <;> rfl
    | reboot next =>
      have hfresh : next ∉ historyBoots bootId ops := fun hmem =>
        (List.nodup_append.mp hdistinct).2.2 next hmem next List.mem_cons_self rfl
      exact ⟨hinv.reboot (by omega) hfresh, Nat.zero_le _⟩

/-- **The history pull**: over every run of samples, polls and reboots, with boot ids that differ
    and fewer than 2^32 - 1 steps, what the server gets of all boots is among what was recorded, in
    order and without a sample twice; and each sample of the present boot it has, or the cursor is
    still before it, or it lies in a gap that a batch told it of, where there is none of those that
    it has. -/
theorem history_pulled (bootId : UInt32) (ops : List HistoryOp)
    (hdistinct : (historyBoots bootId ops).Nodup) (hlen : ops.length < 2 ^ 32 - 1) :
    let s := historyRun bootId ops
    s.got.Sublist s.recorded ∧
      (∀ x ∈ pushed s.pushes, x ∈ s.sent ∨ s.cursor < x.sequence ∨
        ∃ g ∈ s.gaps, g.1 < x.sequence ∧ x.sequence < g.2) ∧
      ∀ g ∈ s.gaps, ∀ x ∈ s.sent, x.sequence ≤ g.1 ∨ g.2 ≤ x.sequence := by
  intro s
  obtain ⟨hinv, hpushes⟩ := historyRun_inv bootId ops hdistinct hlen
  refine ⟨hinv.before.append ((hinv.sent_sublist (by omega)).map _), fun x hx => ?_,
    fun g hg => (hinv.apart g hg).2⟩
  by_cases hle : HistoryPull.number x ≤ s.cursor.toNat
  · exact (hinv.covered x hx hle).imp_right .inr
  · exact .inr (.inl (UInt32.lt_iff_toNat_lt.mpr (Nat.not_le.mp hle)))

/-- Two samples, of which the server gets the first, then a reboot and another sample. -/
def exampleHistory : List HistoryOp :=
  [.poll 0 true 10, .sample ⟨2000, 1, 1000⟩, .sample ⟨2010, 1, 2000⟩, .poll 2100 true 1, .reboot 6,
    .sample ⟨1990, 1, 1000⟩, .poll 1100 true 10, .poll 1200 true 10]

theorem history_pulled_reboot :
    (historyRun 5 exampleHistory).got.Sublist (historyRun 5 exampleHistory).recorded :=
  (history_pulled 5 exampleHistory (by decide) (by decide)).1

/-- The server gets the first sample of the first boot and that of the second. -/
example : (historyRun 5 exampleHistory).got =
    [(5, ⟨1, 1000, 2000, 1⟩), (6, ⟨1, 1000, 1990, 1⟩)] := by
  decide +kernel

end Fountainer.Network
