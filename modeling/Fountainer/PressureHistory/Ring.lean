import Fountainer.Lib.OverwriteRing
import Fountainer.Lib.Runs

/-!
# The pressure history

The ring of `pressure_ring.c`. Samples carry gapless sequence numbers from 1 on; a full
ring evicts its oldest sample and counts it. Readers name the last number they have, so the
number of the first sample to read and its place in the ring are computed from three
counters of different widths.
-/

namespace Fountainer.PressureHistory

open OverwriteRing

/-- `pressure_sample_t`. -/
structure PressureSample where
  sequence : UInt32
  timestampMs : UInt32
  pressureMbar : UInt16
  status : UInt16
  deriving DecidableEq, Repr

/-- `pressure_ring_t` with a capacity of `n`. The write index is reduced modulo the
    capacity at every write, so it is an index of the storage. -/
structure PressureRing (n : ℕ) where
  samples : Fin n → PressureSample
  head : Fin n
  count : UInt16
  nextSeq : UInt32
  overwritten : UInt32
  highWatermark : UInt32

variable {n : ℕ} [NeZero n]

def pressureRingInit (storage : Fin n → PressureSample) : PressureRing n where
  samples := storage
  head := 0
  count := 0
  nextSeq := 1
  overwritten := 0
  highWatermark := 0

/-- Writes a sample; its sequence number is the answer. -/
def pressureRingPush (r : PressureRing n) (pressureMbar status : UInt16) (timestampMs : UInt32) :
    UInt32 × PressureRing n :=
  let seq := r.nextSeq
  let r := { r with
    nextSeq := seq + 1
    samples := Function.update r.samples r.head ⟨seq, timestampMs, pressureMbar, status⟩
    head := r.head + 1 }
  if r.count.toNat < n then
    let count := r.count + 1
    (seq, { r with
      count := count
      highWatermark :=
        if count.toUInt32 > r.highWatermark then count.toUInt32 else r.highWatermark })
  else (seq, { r with overwritten := r.overwritten + 1 })

/-- The slot of the oldest sample. -/
def oldestIdx (r : PressureRing n) : ℕ := (r.head.val + n - r.count.toNat) % n

/-- The samples after `sinceSeq` into a buffer of `max`, oldest first. -/
def pressureRingReadSince (r : PressureRing n) (sinceSeq : UInt32) (max : ℕ) :
    List PressureSample :=
  if max = 0 ∨ r.count = 0 then []
  else
    let first := r.nextSeq - r.count.toUInt32
    let start := if sinceSeq + 1 > first then sinceSeq + 1 else first
    if start ≥ r.nextSeq then []
    else
      let avail := (r.nextSeq - start).toNat
      scan r.samples (Fin.ofNat n ((oldestIdx r + (start - first).toNat) % n))
        (if avail < max then avail else max)

/-- The samples in the ring, oldest first. -/
def retained (r : PressureRing n) : List PressureSample :=
  scan r.samples (Fin.ofNat n (oldestIdx r)) r.count.toNat

/-- The arguments of a push. -/
structure Push where
  pressureMbar : UInt16
  status : UInt16
  timestampMs : UInt32

def push (r : PressureRing n) (p : Push) : PressureRing n :=
  (pressureRingPush r p.pressureMbar p.status p.timestampMs).2

/-- The ring after its initialisation and the pushes, in order. -/
def ringRun (storage : Fin n → PressureSample) (ps : List Push) : PressureRing n :=
  Machine.run push (pressureRingInit storage) ps

/-- The samples that the pushes stand for, numbered from 1 on. -/
def pushed (ps : List Push) : List PressureSample :=
  ps.mapIdx fun i p => ⟨UInt32.ofNat (i + 1), p.timestampMs, p.pressureMbar, p.status⟩

@[simp] theorem length_pushed (ps : List Push) : (pushed ps).length = ps.length := by
  simp [pushed]

theorem pushed_concat (ps : List Push) (p : Push) :
    pushed (ps ++ [p]) =
      pushed ps ++ [⟨UInt32.ofNat (ps.length + 1), p.timestampMs, p.pressureMbar, p.status⟩] := by
  simp [pushed, List.mapIdx_concat]

/-- The ring that was fed the samples `hist`. -/
structure Fed (r : PressureRing n) (hist : List PressureSample) : Prop where
  stores : Stores r.samples hist
  head : r.head = Fin.ofNat n hist.length
  count : r.count.toNat = min hist.length n
  nextSeq : r.nextSeq.toNat = hist.length + 1
  overwritten : r.overwritten.toNat = hist.length - min hist.length n
  highWatermark : r.highWatermark = r.count.toUInt32

theorem pressureRingInit_fed (storage : Fin n → PressureSample) :
    Fed (pressureRingInit storage) [] :=
  ⟨stores_nil storage, rfl, by simp [pressureRingInit], rfl, rfl, rfl⟩

/-- A push feeds the sample with the next number. -/
theorem Fed.push {r : PressureRing n} {hist : List PressureSample} (h : Fed r hist)
    (hn : n ≤ 65535) (hlen : hist.length + 2 < 2 ^ 32) (p : Push) :
    Fed (push r p)
      (hist ++ [⟨UInt32.ofNat (hist.length + 1), p.timestampMs, p.pressureMbar, p.status⟩]) := by
  have hseq : r.nextSeq = UInt32.ofNat (hist.length + 1) := by
    rw [← h.nextSeq, UInt32.ofNat_toNat]
  have hstores : Stores (Function.update r.samples r.head
      ⟨r.nextSeq, p.timestampMs, p.pressureMbar, p.status⟩)
      (hist ++ [⟨UInt32.ofNat (hist.length + 1), p.timestampMs, p.pressureMbar, p.status⟩]) := by
    rw [h.head, hseq]
    exact h.stores.push _
  have hhead : r.head + 1 = Fin.ofNat n (hist.length + 1) := by rw [h.head, ofNat_succ]
  have hnext : (r.nextSeq + 1).toNat = hist.length + 1 + 1 := by
    rw [UInt32.toNat_add, h.nextSeq, UInt32.toNat_one]
    omega
  have hcount := h.count
  have hover := h.overwritten
  have hlength : (hist ++ [(⟨UInt32.ofNat (hist.length + 1), p.timestampMs, p.pressureMbar,
      p.status⟩ : PressureSample)]).length = hist.length + 1 := by simp
  unfold PressureHistory.push pressureRingPush
  dsimp only
  split_ifs with hroom hmark
  · have hsucc : (r.count + 1).toNat = r.count.toNat + 1 := by
      rw [UInt16.toNat_add, UInt16.toNat_one]
      omega
    exact ⟨hstores, by rw [hlength]; exact hhead, by rw [hlength]; dsimp only; omega,
      by rw [hlength]; exact hnext, by rw [hlength]; dsimp only; omega, rfl⟩
  · -- The count has grown beyond its old value.
    have hsucc : (r.count + 1).toNat = r.count.toNat + 1 := by
      rw [UInt16.toNat_add, UInt16.toNat_one]
      omega
    refine absurd (UInt32.lt_iff_toNat_lt.mpr ?_) hmark
    rw [h.highWatermark, UInt16.toNat_toUInt32, UInt16.toNat_toUInt32]
    omega
  · have hsucc : (r.overwritten + 1).toNat = r.overwritten.toNat + 1 := by
      rw [UInt32.toNat_add, UInt32.toNat_one]
      omega
    exact ⟨hstores, by rw [hlength]; exact hhead, by rw [hlength]; dsimp only; omega,
      by rw [hlength]; exact hnext, by rw [hlength]; dsimp only; omega, h.highWatermark⟩

theorem ringRun_fed (hn : n ≤ 65535) (storage : Fin n → PressureSample) (ps : List Push)
    (hlen : ps.length < 2 ^ 32 - 1) : Fed (ringRun storage ps) (pushed ps) := by
  induction ps using List.reverseRecOn with
  | nil => exact pressureRingInit_fed storage
  | append_singleton ps p ih =>
    rw [List.length_append, List.length_singleton] at hlen
    have hfed := (ih (by omega)).push hn (by simp; omega) p
    rw [length_pushed] at hfed
    rwa [ringRun, Machine.run_concat, pushed_concat]

/-- The oldest sample's slot is that of its number. -/
theorem Fed.oldestIdx_eq {r : PressureRing n} {hist : List PressureSample} (h : Fed r hist) :
    oldestIdx r = (hist.length - min hist.length n) % n := by
  have hpos : 0 < n := Nat.pos_of_neZero n
  rw [oldestIdx, h.head, h.count, Fin.val_ofNat]
  by_cases hfull : hist.length < n
  · rw [min_eq_left hfull.le, Nat.mod_eq_of_lt hfull, Nat.sub_self]
    simp
  · rw [min_eq_right (not_lt.mp hfull), Nat.add_sub_cancel, Nat.mod_mod,
      Nat.mod_eq_sub_mod (not_lt.mp hfull)]

/-- **Retention**: the ring holds the last samples, as many as fit. -/
theorem Fed.retained_eq {r : PressureRing n} {hist : List PressureSample} (h : Fed r hist) :
    retained r = hist.drop (hist.length - min hist.length n) := by
  have hmod (k : ℕ) : Fin.ofNat n (k % n) = Fin.ofNat n k := Fin.ext (Nat.mod_mod k n)
  rw [retained, h.oldestIdx_eq, hmod, h.count, h.stores.scan_eq (by omega) (by omega),
    List.take_of_length_le (by rw [List.length_drop]; omega)]

/-- The samples carry their numbers. -/
def Numbered (hist : List PressureSample) : Prop :=
  ∀ i (hi : i < hist.length), hist[i].sequence.toNat = i + 1

theorem pushed_numbered {ps : List Push} (hlen : ps.length < 2 ^ 32 - 1) :
    Numbered (pushed ps) := by
  intro i hi
  rw [length_pushed] at hi
  simp only [pushed, List.getElem_mapIdx]
  rw [UInt32.toNat_ofNat_of_lt']
  exact lt_of_le_of_lt (Nat.succ_le_of_lt hi) (by simpa [UInt32.size] using hlen.trans (by omega))

/-- In numbered samples the ones after a number stand at the end. -/
theorem Numbered.filter_drop {hist : List PressureSample} (h : Numbered hist) (sinceSeq : UInt32)
    (d : ℕ) : (hist.drop d).filter (fun s => decide (sinceSeq < s.sequence)) =
      hist.drop (max sinceSeq.toNat d) := by
  have hseq (i : ℕ) (hi : i < hist.length) : sinceSeq < hist[i].sequence ↔ sinceSeq.toNat ≤ i := by
    rw [UInt32.lt_iff_toNat_lt, h i hi, Nat.lt_succ_iff]
  rw [← List.take_append_drop (sinceSeq.toNat - d) (hist.drop d), List.filter_append,
    List.drop_drop,
    show d + (sinceSeq.toNat - d) = max sinceSeq.toNat d by omega]
  have hbefore : ((hist.drop d).take (sinceSeq.toNat - d)).filter
      (fun s => decide (sinceSeq < s.sequence)) = [] := by
    refine List.filter_eq_nil_iff.mpr fun s hs => ?_
    obtain ⟨i, hi, rfl⟩ := List.mem_iff_getElem.mp hs
    rw [List.length_take, List.length_drop] at hi
    rw [decide_eq_true_iff, List.getElem_take, List.getElem_drop, hseq]
    omega
  have hafter : (hist.drop (max sinceSeq.toNat d)).filter
      (fun s => decide (sinceSeq < s.sequence)) = hist.drop (max sinceSeq.toNat d) := by
    refine List.filter_eq_self.mpr fun s hs => ?_
    obtain ⟨i, hi, rfl⟩ := List.mem_iff_getElem.mp hs
    rw [decide_eq_true_iff, List.getElem_drop, hseq]
    omega
  rw [hbefore, hafter, List.nil_append]

/-- A read of at most `k` samples starts at the number after `sinceSeq`, as the code computes
    it, or at the oldest one. -/
theorem Fed.readSince_eq {r : PressureRing n} {hist : List PressureSample} (h : Fed r hist)
    (hlen : hist.length + 1 < 2 ^ 32) (sinceSeq : UInt32) (k : ℕ) :
    pressureRingReadSince r sinceSeq k =
      (hist.drop (max ((sinceSeq + 1).toNat - 1) (hist.length - min hist.length n))).take k := by
  have hcount := h.count
  have hnext := h.nextSeq
  have hcountle : r.count.toUInt32 ≤ r.nextSeq := UInt32.le_iff_toNat_le.mpr (by
    rw [UInt16.toNat_toUInt32]
    omega)
  have hfirst : (r.nextSeq - r.count.toUInt32).toNat = hist.length - min hist.length n + 1 := by
    rw [UInt32.toNat_sub_of_le _ _ hcountle, UInt16.toNat_toUInt32]
    omega
  unfold pressureRingReadSince
  by_cases hnone : k = 0 ∨ r.count = 0
  · rw [if_pos hnone]
    rcases hnone with rfl | hempty
    · rfl
    · rw [hempty, UInt16.toNat_zero] at hcount
      have hpos : 0 < n := Nat.pos_of_neZero n
      rw [List.drop_eq_nil_of_le (by omega), List.take_nil]
  rw [if_neg hnone]
  dsimp only
  -- The first sample to read, by its number.
  have hstart : (if sinceSeq + 1 > r.nextSeq - r.count.toUInt32 then sinceSeq + 1
      else r.nextSeq - r.count.toUInt32).toNat =
      max ((sinceSeq + 1).toNat - 1) (hist.length - min hist.length n) + 1 := by
    split_ifs with hlater
    · have hlt := UInt32.lt_iff_toNat_lt.mp hlater
      omega
    · have hle := UInt32.le_iff_toNat_le.mp (UInt32.not_lt.mp hlater)
      omega
  have hoff := le_max_right ((sinceSeq + 1).toNat - 1) (hist.length - min hist.length n)
  generalize (if sinceSeq + 1 > r.nextSeq - r.count.toUInt32 then sinceSeq + 1
      else r.nextSeq - r.count.toUInt32) = start at hstart
  generalize max ((sinceSeq + 1).toNat - 1) (hist.length - min hist.length n) = m at hstart hoff
  by_cases hend : start ≥ r.nextSeq
  · have hle := UInt32.le_iff_toNat_le.mp hend
    rw [if_pos hend, List.drop_eq_nil_of_le (by omega), List.take_nil]
  · have hlt := UInt32.lt_iff_toNat_lt.mp (UInt32.not_le.mp hend)
    have havail : (r.nextSeq - start).toNat = hist.length - m := by
      rw [UInt32.toNat_sub_of_le _ _ (UInt32.le_iff_toNat_le.mpr hlt.le)]
      omega
    have hoffset : (start - (r.nextSeq - r.count.toUInt32)).toNat =
        m - (hist.length - min hist.length n) := by
      rw [UInt32.toNat_sub_of_le _ _ (UInt32.le_iff_toNat_le.mpr (by omega))]
      omega
    have hidx : Fin.ofNat n ((oldestIdx r + (start - (r.nextSeq - r.count.toUInt32)).toNat) % n) =
        Fin.ofNat n m := by
      apply Fin.ext
      rw [h.oldestIdx_eq, hoffset, Fin.val_ofNat, Fin.val_ofNat, Nat.mod_mod, Nat.mod_add_mod,
        Nat.add_sub_cancel' hoff]
    rw [if_neg hend, hidx, havail, h.stores.scan_eq (by omega) (by split_ifs <;> omega)]
    split_ifs with hshort
    · rw [List.take_of_length_le (by simp), List.take_of_length_le (by simp; omega)]
    · rfl

/-- The answer to a read is cut out of the samples that the ring retains; these are the
    last ones pushed, and the others are counted. -/
structure ReadsExactly (storage : Fin n → PressureSample) (ps : List Push) (sinceSeq : UInt32)
    (k : ℕ) : Prop where
  read : pressureRingReadSince (ringRun storage ps) sinceSeq k =
    ((retained (ringRun storage ps)).filter (fun s => decide (sinceSeq < s.sequence))).take k
  retained : retained (ringRun storage ps) = (pushed ps).drop (ps.length - min ps.length n)
  overwritten : (ringRun storage ps).overwritten.toNat =
    ps.length - (ringRun storage ps).count.toNat

/-- **Reading the pressure history.** For every capacity that fits 16 bits, fewer than
    `2 ^ 32 - 1` pushes and every limit, a read returns the retained samples after `sinceSeq`
    exactly when the number after `sinceSeq` exists in 32 bits, unless there is nothing to read or
    no room. -/
theorem readsExactly_iff (hn : n ≤ 65535) (storage : Fin n → PressureSample) (ps : List Push)
    (hlen : ps.length < 2 ^ 32 - 1) (sinceSeq : UInt32) (k : ℕ) :
    ReadsExactly storage ps sinceSeq k ↔ sinceSeq ≠ 0xFFFFFFFF ∨ ps = [] ∨ k = 0 := by
  have hfed := ringRun_fed hn storage ps hlen
  have hnum := pushed_numbered hlen
  have hread := hfed.readSince_eq (by simp; omega) sinceSeq k
  have hretained := hfed.retained_eq
  have hover := hfed.overwritten
  have hcount := hfed.count
  rw [length_pushed] at hread hretained hover hcount
  have hfilter := hnum.filter_drop sinceSeq (ps.length - min ps.length n)
  have hrest : (ringRun storage ps).overwritten.toNat =
      ps.length - (ringRun storage ps).count.toNat := by omega
  constructor
  · intro h
    by_contra hnot
    simp only [not_or, not_not] at hnot
    obtain ⟨rfl, hps, hk⟩ := hnot
    -- The number after the last 32-bit one is 0, so the read starts at the oldest sample.
    have hsome := h.read
    rw [hread, hretained, hfilter] at hsome
    have hlength := congrArg List.length hsome
    have hpos := List.length_pos_iff.mpr hps
    have hroom := Nat.pos_of_neZero n
    simp only [List.length_take, List.length_drop, length_pushed] at hlength
    rw [show ((0xFFFFFFFF : UInt32) + 1).toNat = 0 from rfl,
      show (0xFFFFFFFF : UInt32).toNat = 2 ^ 32 - 1 from rfl] at hlength
    omega
  · intro h
    refine ⟨?_, hretained, hrest⟩
    rw [hread, hretained, hfilter]
    rcases h with hsince | rfl | rfl
    · have hne : sinceSeq.toNat ≠ 2 ^ 32 - 1 := fun heq => hsince (UInt32.toNat_inj.mp heq)
      have hlt := sinceSeq.toNat_lt
      have hsucc : (sinceSeq + 1).toNat - 1 = sinceSeq.toNat := by
        rw [UInt32.toNat_add, UInt32.toNat_one]
        omega
      rw [hsucc]
    · simp [pushed]
    · rw [List.take_zero, List.take_zero]

/-- Three samples in a ring of two. -/
def threePushes : List Push := [⟨1000, 1, 200⟩, ⟨1100, 1, 1200⟩, ⟨1200, 1, 2200⟩]

def blankStorage : Fin 2 → PressureSample := fun _ => ⟨0, 0, 0, 0⟩

theorem readsExactly_threePushes : ReadsExactly blankStorage threePushes 2 10 :=
  (readsExactly_iff (by decide) blankStorage threePushes (by decide) 2 10).mpr (.inl (by decide))

/-- A reader that names the last 32-bit number gets the whole ring. -/
theorem lastNumber_readsAll :
    ¬ ∀ (n : ℕ) [NeZero n], n ≤ 65535 → ∀ (storage : Fin n → PressureSample) (ps : List Push),
      ps.length < 2 ^ 32 - 1 → ∀ (sinceSeq : UInt32) (k : ℕ),
        ReadsExactly storage ps sinceSeq k := by
  intro h
  have hread := (h 2 (by decide) blankStorage threePushes (by decide) 0xFFFFFFFF 10).read
  revert hread
  decide +kernel

end Fountainer.PressureHistory
