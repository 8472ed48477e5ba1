import Fountainer.Logging.Record

/-!
# Where the records stand

The records of a ring, as byte strings, stand in the buffer in one of two shapes:
in one piece from the tail to the head, or wrapped, from the tail up to the end of
the buffer (or to a gap before it) and on from its start. `Placed` keeps both
shapes and the byte accounting; eviction and insertion preserve it.
-/

namespace Fountainer.Logging

open Bytes

/-- The bytes of one record: its size first, and the size in the format's range. -/
structure IsCell (c : List UInt8) : Prop where
  size_eq : c.head? = some (UInt8.ofNat c.length)
  size_ge : 15 ≤ c.length
  size_le : c.length ≤ 78

theorem LogEntry.isCell_encode (e : LogEntry) (seq : UInt32) : IsCell (e.encode seq) := by
  have hlo := e.needed_ge
  have hhi := e.needed_le
  refine ⟨?_, by rw [length_encode]; exact hlo, by rw [length_encode]; exact hhi⟩
  rw [length_encode]
  refine congrArg some (UInt8.toNat_inj.mp ?_)
  rw [UInt16.toNat_toUInt8, UInt8.toNat_ofNat']

/-- Nonempty records take up bytes. -/
theorem flatten_length_pos {cells : List (List UInt8)} (h : ∀ c ∈ cells, IsCell c)
    (hne : cells ≠ []) : 0 < cells.flatten.length := by
  obtain ⟨c, cs, rfl⟩ := List.exists_cons_of_ne_nil hne
  have := (h c (by simp)).size_ge
  rw [List.flatten_cons, List.length_append]
  omega

/-- Each record takes up at least 15 bytes. -/
theorem length_mul_le_flatten {cells : List (List UInt8)} (h : ∀ c ∈ cells, IsCell c) :
    15 * cells.length ≤ cells.flatten.length := by
  induction cells with
  | nil => simp
  | cons c cs ih =>
    have hc := (h c (by simp)).size_ge
    have hcs := ih (fun d hd => h d (by simp [hd]))
    rw [List.flatten_cons, List.length_append, List.length_cons]
    omega

theorem toNat_u16_sub {a b : UInt16} (h : b.toNat ≤ a.toNat) :
    (a - b).toNat = a.toNat - b.toNat :=
  UInt16.toNat_sub_of_le a b (UInt16.le_iff_toNat_le.mpr h)

theorem toNat_u16_add {a b : UInt16} (h : a.toNat + b.toNat < 65536) :
    (a + b).toNat = a.toNat + b.toNat := by
  rw [UInt16.toNat_add]
  exact Nat.mod_eq_of_lt h

namespace LogRing

/-- The records stand in one piece from the tail to the head. -/
structure Straight (r : LogRing) (cells : List (List UInt8)) : Prop where
  head_eq : r.head.toNat = r.tail.toNat + cells.flatten.length
  head_lt : r.head.toNat < r.capacity.toNat
  used_eq : r.used.toNat = cells.flatten.length
  holds : Holds r.buf r.tail.toNat cells.flatten

/-- The older records `lo` stand from the tail up, the newer ones `hi` from the start
    of the buffer up to the head. A gap behind `lo` starts with the marker 0 and
    counts as used. -/
structure Wrapped (r : LogRing) (lo hi : List (List UInt8)) : Prop where
  tail_lt : r.tail.toNat < r.capacity.toNat
  lo_fits : r.tail.toNat + lo.flatten.length ≤ r.capacity.toNat
  gap : r.tail.toNat + lo.flatten.length < r.capacity.toNat →
    r.buf (r.tail.toNat + lo.flatten.length) = 0
  head_eq : r.head.toNat = hi.flatten.length
  head_le : r.head.toNat ≤ r.tail.toNat
  used_eq : r.used.toNat = r.capacity.toNat - r.tail.toNat + r.head.toNat
  holds_lo : Holds r.buf r.tail.toNat lo.flatten
  holds_hi : Holds r.buf 0 hi.flatten

/-- The ring holds exactly these records, oldest first. -/
structure Placed (r : LogRing) (cells : List (List UInt8)) : Prop where
  isCell : ∀ c ∈ cells, IsCell c
  count_eq : r.count.toNat = cells.length
  empty_tail : cells = [] → r.tail = 0
  shape : r.Straight cells ∨ ∃ lo hi, cells = lo ++ hi ∧ (lo ++ hi ≠ []) ∧ r.Wrapped lo hi

theorem placed_init (buf : Mem) (capacity : UInt16) (h : 0 < capacity.toNat) :
    (logRingInit buf capacity).Placed [] :=
  ⟨by simp, rfl, fun _ => rfl, .inl ⟨rfl, h, rfl, holds_nil _ _⟩⟩

theorem placed_clear (r : LogRing) (h : 0 < r.capacity.toNat) : r.logRingClear.Placed [] :=
  ⟨by simp, rfl, fun _ => rfl, .inl ⟨rfl, h, rfl, holds_nil _ _⟩⟩

-- ════════════════════════════════════════════════════════════════════════
-- Eviction
-- ════════════════════════════════════════════════════════════════════════

/-- What an eviction leaves of a ring whose oldest record stands at `pos`, with `used`
    bytes accounted from there on. -/
def dropAt (r : LogRing) (pos used : UInt16) : LogRing :=
  let size := (r.buf pos.toNat).toUInt16
  let r := { r with
    used := used - size
    tail := if pos + size = r.capacity then 0 else pos + size
    count := r.count - 1
    firstSeq := r.firstSeq + 1
    overwritten := r.overwritten + 1 }
  if r.count = 0 then { r with head := 0, tail := 0, used := 0 } else r

theorem discardOldest_record (r : LogRing) (hcount : r.count ≠ 0)
    (htail : r.tail.toNat < r.capacity.toNat) (hrec : r.buf r.tail.toNat ≠ 0) :
    r.discardOldest = some (r.dropAt r.tail r.used) := by
  simp [discardOldest, atWrapGap, load, hcount, htail, hrec, dropAt]

theorem discardOldest_gap (r : LogRing) (hcount : r.count ≠ 0)
    (htail : r.tail.toNat < r.capacity.toNat) (hgap : r.buf r.tail.toNat = 0) :
    r.discardOldest = some (r.dropAt 0 (r.used - (r.capacity - r.tail))) := by
  have hcap : 0 < r.capacity.toNat := by omega
  simp [discardOldest, atWrapGap, load, hcount, htail, hgap, hcap, dropAt]

/-- The first byte of a record is its size. -/
theorem size_of_holds {m : Mem} {off : ℕ} {c rest : List UInt8} (hc : IsCell c)
    (h : Holds m off (c ++ rest)) : (m off).toNat = c.length := by
  obtain ⟨b, bs, rfl⟩ := List.exists_cons_of_ne_nil
    (List.ne_nil_of_length_pos (by have := hc.size_ge; omega : 0 < c.length))
  have hb : b = UInt8.ofNat (b :: bs).length := by simpa using hc.size_eq
  have hm : m off = b := (holds_cons.mp (by simpa using h)).1
  have hle := hc.size_le
  rw [hm, hb, UInt8.toNat_ofNat']
  exact Nat.mod_eq_of_lt (by omega)

/-- `r'` is `r` after `k` evictions and perhaps a move of the head. -/
structure Evicted (k : ℕ) (r r' : LogRing) : Prop where
  capacity_eq : r'.capacity = r.capacity
  nextSeq_eq : r'.nextSeq = r.nextSeq
  firstSeq_eq : r'.firstSeq = r.firstSeq + UInt32.ofNat k
  overwritten_eq : r'.overwritten = r.overwritten + UInt32.ofNat k

theorem Evicted.zero (r : LogRing) : Evicted 0 r r := ⟨rfl, rfl, by simp, by simp⟩

theorem Evicted.succ {k : ℕ} {r s t : LogRing} (h : Evicted 1 r s) (h' : Evicted k s t) :
    Evicted (k + 1) r t := by
  refine ⟨h'.capacity_eq.trans h.capacity_eq, h'.nextSeq_eq.trans h.nextSeq_eq, ?_, ?_⟩
  · rw [h'.firstSeq_eq, h.firstSeq_eq, Nat.add_comm, UInt32.ofNat_add, UInt32.add_assoc]
  · rw [h'.overwritten_eq, h.overwritten_eq, Nat.add_comm, UInt32.ofNat_add, UInt32.add_assoc]

theorem evicted_dropAt (r : LogRing) (pos used : UInt16) : Evicted 1 r (r.dropAt pos used) := by
  simp only [dropAt]
  split <;> exact ⟨rfl, rfl, rfl, rfl⟩

/-- Evicting the last record leaves an empty ring with normal positions. -/
theorem placed_dropAt_last (r : LogRing) (pos used : UInt16) (hcount : r.count.toNat = 1)
    (hcap : 0 < r.capacity.toNat) : (r.dropAt pos used).Placed [] := by
  have hzero : r.count - 1 = 0 :=
    UInt16.toNat_inj.mp (by rw [toNat_u16_sub (by simp [hcount]), hcount]; rfl)
  simp only [dropAt, hzero, if_true]
  exact ⟨by simp, rfl, fun _ => rfl, .inl ⟨rfl, hcap, rfl, holds_nil _ _⟩⟩

/-- `r'` is `r` with another tail and accounting, and one record less. -/
structure Dropped (r r' : LogRing) (tail used : ℕ) : Prop where
  buf_eq : r'.buf = r.buf
  capacity_eq : r'.capacity = r.capacity
  head_eq : r'.head = r.head
  count_eq : r'.count.toNat = r.count.toNat - 1
  used_eq : r'.used.toNat = used
  tail_eq : r'.tail.toNat = tail

/-- Evicting one of several records moves the tail and releases the bytes. -/
theorem dropped_dropAt (r : LogRing) (pos used : UInt16) {n : ℕ} (hcount : 1 < r.count.toNat)
    (hsize : (r.buf pos.toNat).toNat = n) (hpos : pos.toNat + n ≤ r.capacity.toNat)
    (hused : n ≤ used.toNat) :
    Dropped r (r.dropAt pos used)
      (if pos.toNat + n = r.capacity.toNat then 0 else pos.toNat + n) (used.toNat - n) := by
  have hcap := r.capacity.toNat_lt
  have hsize' : (r.buf pos.toNat).toUInt16.toNat = n := by rw [UInt8.toNat_toUInt16, hsize]
  have hsub : (r.count - 1).toNat = r.count.toNat - 1 := toNat_u16_sub (by simp; omega)
  have hne : r.count - 1 ≠ 0 := by
    intro hz
    rw [hz] at hsub
    simp at hsub
    omega
  have hsum : (pos + (r.buf pos.toNat).toUInt16).toNat = pos.toNat + n := by
    rw [toNat_u16_add (by omega), hsize']
  have htail : pos + (r.buf pos.toNat).toUInt16 = r.capacity ↔
    pos.toNat + n = r.capacity.toNat := by
    rw [← UInt16.toNat_inj, hsum]
  simp only [dropAt, hne, if_false, htail]
  refine ⟨rfl, rfl, rfl, hsub, ?_, ?_⟩
  · change (used - _).toNat = _
    rw [toNat_u16_sub (by omega), hsize']
  · dsimp only
    split_ifs
    · rfl
    · exact hsum

/-- What is left stands in one piece. -/
theorem Dropped.placed_straight {r r' : LogRing} {tail used : ℕ} (d : Dropped r r' tail used)
    {cs : List (List UInt8)} (hcs : ∀ c ∈ cs, IsCell c) (hcount : r.count.toNat = cs.length + 1)
    (hne : cs ≠ []) (hhead : r.head.toNat = tail + cs.flatten.length)
    (hlt : r.head.toNat < r.capacity.toNat) (hused : used = cs.flatten.length)
    (hholds : Holds r.buf tail cs.flatten) : r'.Placed cs := by
  refine ⟨hcs, ?_, fun hz => absurd hz hne, .inl ⟨?_, ?_, ?_, ?_⟩⟩
  · rw [d.count_eq, hcount, Nat.add_sub_cancel]
  · rw [d.head_eq, d.tail_eq, hhead]
  · rw [d.head_eq, d.capacity_eq]
    exact hlt
  · rw [d.used_eq, hused]
  · rw [d.buf_eq, d.tail_eq]
    exact hholds

/-- The oldest of several records in one piece. -/
theorem placed_dropAt_straight {r : LogRing} {c : List UInt8} {cs : List (List UInt8)}
    (hcell : ∀ d ∈ c :: cs, IsCell d) (hcount : r.count.toNat = cs.length + 1) {pos used : UInt16}
    (hholds : Holds r.buf pos.toNat (c :: cs).flatten)
    (hhead : r.head.toNat = pos.toNat + (c :: cs).flatten.length)
    (hlt : r.head.toNat < r.capacity.toNat) (hused : used.toNat = (c :: cs).flatten.length) :
    (r.dropAt pos used).Placed cs := by
  have hcs : ∀ d ∈ cs, IsCell d := fun d hd => hcell d (by simp [hd])
  rw [List.flatten_cons] at hholds
  rw [List.flatten_cons, List.length_append] at hhead hused
  by_cases hlast : cs = []
  · subst hlast
    exact placed_dropAt_last r _ _ (by simpa using hcount) (by omega)
  · have hlen := List.length_pos_iff.mpr hlast
    have hpos := flatten_length_pos hcs hlast
    have d := dropped_dropAt r pos used (by omega) (size_of_holds (hcell c (by simp)) hholds)
      (by omega) (by omega)
    rw [if_neg (by omega)] at d
    exact d.placed_straight hcs hcount hlast (by omega) hlt (by omega) (holds_append.mp hholds).2

/-- The oldest of the records before the wrap. -/
theorem placed_dropAt_wrapped {r : LogRing} {c : List UInt8} {lo hi : List (List UInt8)}
    (hcell : ∀ d ∈ c :: lo ++ hi, IsCell d) (hcount : r.count.toNat = (lo ++ hi).length + 1)
    (hw : r.Wrapped (c :: lo) hi) : (r.dropAt r.tail r.used).Placed (lo ++ hi) := by
  have hcs : ∀ d ∈ lo ++ hi, IsCell d := fun d hd => hcell d (List.mem_cons_of_mem c hd)
  have hlt := hw.tail_lt
  have hhead := hw.head_eq
  have hle := hw.head_le
  have hused := hw.used_eq
  have hfits := hw.lo_fits
  have hgap := hw.gap
  have hlo := hw.holds_lo
  rw [List.flatten_cons] at hlo
  rw [List.flatten_cons, List.length_append] at hfits hgap
  by_cases hlast : lo ++ hi = []
  · rw [hlast] at hcount ⊢
    exact placed_dropAt_last r _ _ (by simpa using hcount) (by omega)
  · have hlen := List.length_pos_iff.mpr hlast
    have d := dropped_dropAt r r.tail r.used (by omega) (size_of_holds (hcell c (by simp)) hlo)
      (by omega) (by omega)
    by_cases hend : r.tail.toNat + c.length = r.capacity.toNat
    · -- The record reached the end of the buffer: only the newer ones are left.
      have hnil : lo = [] := by
        by_contra hne
        have := flatten_length_pos (fun d hd => hcs d (by simp [hd])) hne
        omega
      subst hnil
      rw [if_pos hend] at d
      exact d.placed_straight hcs hcount hlast (by simpa using hhead) (by omega)
        (by simp only [List.nil_append]; omega) hw.holds_hi
    · rw [if_neg hend] at d
      refine ⟨hcs, by rw [d.count_eq, hcount, Nat.add_sub_cancel], fun hz => absurd hz hlast,
        .inr ⟨lo, hi, rfl, hlast, ?_⟩⟩
      have hwrap : r.tail.toNat + c.length + lo.flatten.length =
          r.tail.toNat + (c.length + lo.flatten.length) := by omega
      constructor
      · rw [d.tail_eq, d.capacity_eq]
        omega
      · rw [d.tail_eq, d.capacity_eq]
        omega
      · rw [d.tail_eq, d.capacity_eq, d.buf_eq, hwrap]
        exact hgap
      · rw [d.head_eq]
        exact hhead
      · rw [d.head_eq, d.tail_eq]
        omega
      · rw [d.used_eq, d.capacity_eq, d.tail_eq, d.head_eq]
        omega
      · rw [d.buf_eq, d.tail_eq]
        exact (holds_append.mp hlo).2
      · rw [d.buf_eq]
        exact hw.holds_hi

/-- **Eviction** takes the oldest record, and only it. -/
theorem discardOldest_placed {r : LogRing} {c : List UInt8} {cs : List (List UInt8)}
    (h : r.Placed (c :: cs)) : ∃ r', r.discardOldest = some r' ∧ r'.Placed cs ∧ Evicted 1 r r' := by
  have hc : IsCell c := h.isCell c (by simp)
  have hge := hc.size_ge
  have hcount : r.count.toNat = cs.length + 1 := by rw [h.count_eq, List.length_cons]
  have hcount0 : r.count ≠ 0 := by
    intro hz
    rw [hz] at hcount
    simp at hcount
  have hnonzero {off : ℕ} (hsize : (r.buf off).toNat = c.length) : r.buf off ≠ 0 := by
    intro hz
    rw [hz] at hsize
    simp at hsize
    omega
  rcases h.shape with hs | ⟨lo, hi, hsplit, -, hw⟩
  · have hhead := hs.head_eq
    have hlt := hs.head_lt
    rw [List.flatten_cons, List.length_append] at hhead
    exact ⟨_, discardOldest_record r hcount0 (by omega) (hnonzero (size_of_holds hc hs.holds)),
      placed_dropAt_straight h.isCell hcount hs.holds hs.head_eq hlt hs.used_eq,
      evicted_dropAt r _ _⟩
  · cases lo with
    | nil =>
      -- The tail stands at the gap: the oldest record is at the start of the buffer.
      rw [List.nil_append] at hsplit
      subst hsplit
      have hlt := hw.tail_lt
      have hle := hw.head_le
      have hused := hw.used_eq
      have hsub : (r.used - (r.capacity - r.tail)).toNat = r.head.toNat := by
        have hct : (r.capacity - r.tail).toNat = r.capacity.toNat - r.tail.toNat :=
          toNat_u16_sub (by omega)
        rw [toNat_u16_sub (by omega), hct]
        omega
      refine ⟨_, discardOldest_gap r hcount0 hlt (by simpa using hw.gap (by simpa using hlt)),
        placed_dropAt_straight h.isCell hcount hw.holds_hi ?_ (by omega) ?_, evicted_dropAt r _ _⟩
      · rw [hw.head_eq]
        simp
      · rw [hsub, hw.head_eq]
    | cons d lo =>
      obtain ⟨rfl, rfl⟩ : c = d ∧ cs = lo ++ hi := by simpa using hsplit
      have hsize := size_of_holds hc (by simpa using hw.holds_lo)
      exact ⟨_, discardOldest_record r hcount0 hw.tail_lt (hnonzero hsize),
        placed_dropAt_wrapped h.isCell hcount hw, evicted_dropAt r _ _⟩

/-- The ring's own accounting: the `used` bytes from the tail on, around the end of
    the buffer, are taken. -/
def UsedByte (r : LogRing) (i : ℕ) : Prop :=
  (if r.tail.toNat ≤ i then i - r.tail.toNat else i + r.capacity.toNat - r.tail.toNat) <
    r.used.toNat

/-- Somewhere in the buffer `n` bytes in one piece are not accounted as used. -/
def FitsContiguously (r : LogRing) (n : ℕ) : Prop :=
  ∃ p, p + n ≤ r.capacity.toNat ∧ ∀ i, p ≤ i → i < p + n → ¬ r.UsedByte i

/-- The ring after `k` evictions. -/
def discards : ℕ → LogRing → Option LogRing
  | 0, r => some r
  | k + 1, r => r.discardOldest.bind (discards k)

/-- The ring has `n` free bytes at its head. -/
structure Ready (r : LogRing) (cells : List (List UInt8)) (n : ℕ) : Prop where
  isCell : ∀ c ∈ cells, IsCell c
  count_eq : r.count.toNat = cells.length
  shape : r.Straight cells ∧ r.head.toNat + n ≤ r.capacity.toNat ∨
    ∃ lo hi, cells = lo ++ hi ∧ r.Wrapped lo hi ∧ r.head.toNat + n ≤ r.tail.toNat

/-- In one piece, the free bytes are those before the tail and those from the head on. -/
theorem Straight.not_fits {r : LogRing} {cells : List (List UInt8)} (hs : r.Straight cells)
    (hpos : 0 < cells.flatten.length) {n : ℕ} (htail : r.tail.toNat < n)
    (hhead : r.capacity.toNat < r.head.toNat + n) : ¬ r.FitsContiguously n := by
  rintro ⟨p, hp, hfree⟩
  have hheq := hs.head_eq
  have hueq := hs.used_eq
  have hlt := hs.head_lt
  by_cases hlow : p ≤ r.tail.toNat
  · -- The piece starts at or before the tail and covers it.
    refine hfree r.tail.toNat hlow (by omega) ?_
    simp only [UsedByte, le_refl, if_true]
    omega
  · refine hfree p le_rfl (by omega) ?_
    simp only [UsedByte, if_pos (by omega : r.tail.toNat ≤ p)]
    omega

/-- Wrapped, the free bytes are those from the head to the tail. -/
theorem Wrapped.not_fits {r : LogRing} {lo hi : List (List UInt8)} (hw : r.Wrapped lo hi)
    {n : ℕ} (hfree : r.tail.toNat - r.head.toNat < n) : ¬ r.FitsContiguously n := by
  rintro ⟨p, hp, hall⟩
  have hle := hw.head_le
  have hlt := hw.tail_lt
  have hueq := hw.used_eq
  by_cases hlow : p < r.head.toNat
  · refine hall p le_rfl (by omega) ?_
    simp only [UsedByte]
    split_ifs <;> omega
  · -- The piece starts at or behind the head, so it covers the tail or lies behind it.
    refine hall (max p r.tail.toNat) (le_max_left _ _) (by omega) ?_
    simp only [UsedByte, if_pos (le_max_right p r.tail.toNat)]
    omega

/-- The marker at the head turns a ring in one piece into a wrapped one. -/
theorem Straight.wrap {r : LogRing} {cells : List (List UInt8)} (hs : r.Straight cells) :
    { r.withBytes r.head.toNat [0] with
      used := r.used + (r.capacity - r.head), head := 0 }.Wrapped cells [] := by
  have hheq := hs.head_eq
  have hueq := hs.used_eq
  have hlt := hs.head_lt
  have hcap := r.capacity.toNat_lt
  have hend : (r.capacity - r.head).toNat = r.capacity.toNat - r.head.toNat :=
    toNat_u16_sub (by omega)
  constructor
  · change r.tail.toNat < r.capacity.toNat
    omega
  · change r.tail.toNat + _ ≤ r.capacity.toNat
    omega
  · intro _
    change write r.buf r.head.toNat [0] (r.tail.toNat + _) = 0
    rw [← hheq, write_singleton, Function.update_self]
  · rfl
  · exact Nat.zero_le _
  · change (r.used + (r.capacity - r.head)).toNat = r.capacity.toNat - r.tail.toNat + 0
    rw [toNat_u16_add (by omega), hend]
    omega
  · exact hs.holds.write_disjoint (.inl (by omega))
  · exact holds_nil _ _

/-- An empty ring is already at normal positions. -/
theorem Placed.normal_eq {r : LogRing} {cells : List (List UInt8)} (h : r.Placed cells) :
    (if r.count = 0 then { r with head := 0, tail := 0 } else r) = r := by
  split_ifs with hzero
  · have hcount := h.count_eq
    rw [hzero] at hcount
    obtain rfl : cells = [] := List.length_eq_zero_iff.mp hcount.symm
    have htail : r.tail = 0 := h.empty_tail rfl
    rcases h.shape with hs | ⟨lo, hi, hsplit, hne, -⟩
    · have hhead : r.head = 0 := UInt16.toNat_inj.mp (by rw [hs.head_eq, htail]; rfl)
      cases r
      simp_all
    · exact absurd hsplit.symm hne
  · rfl

/-- **Making room** ends, with the newest records kept and room at the head. Every
    ring from which a record was evicted had no room in one piece. -/
theorem makeRoom_placed {fuel : ℕ} {r : LogRing} {cells : List (List UInt8)} {needed : UInt16}
    (h : r.Placed cells) (hneed : 0 < needed.toNat) (hcap : needed.toNat ≤ r.capacity.toNat)
    (hfuel : cells.length < fuel) :
    ∃ k r', k ≤ cells.length ∧ makeRoom fuel r needed = some r' ∧
      r'.Ready (cells.drop k) needed.toNat ∧ Evicted k r r' ∧
      ∀ j < k, ∃ q, discards j r = some q ∧ ¬ q.FitsContiguously needed.toNat := by
  induction fuel generalizing r cells with
  | zero => omega
  | succ fuel ih =>
    -- One eviction, then the rest of the loop.
    have hevict (hne : cells ≠ []) (hfits : ¬ r.FitsContiguously needed.toNat) :
        ∃ k r', k ≤ cells.length ∧
          (r.discardOldest.bind fun r => makeRoom fuel r needed) = some r' ∧
          r'.Ready (cells.drop k) needed.toNat ∧ Evicted k r r' ∧
          ∀ j < k, ∃ q, discards j r = some q ∧ ¬ q.FitsContiguously needed.toNat := by
      obtain ⟨c, cs, rfl⟩ := List.exists_cons_of_ne_nil hne
      obtain ⟨s, hs, hplaced, hone⟩ := discardOldest_placed h
      rw [List.length_cons] at hfuel
      obtain ⟨k, r', hk, hrun, hready, hev, hall⟩ :=
        ih hplaced (by rw [hone.capacity_eq]; exact hcap) (by omega)
      refine ⟨k + 1, r', by simpa using hk, by rw [hs]; exact hrun, hready, hone.succ hev, ?_⟩
      intro j hj
      cases j with
      | zero => exact ⟨r, rfl, hfits⟩
      | succ j =>
        obtain ⟨q, hq, hnot⟩ := hall j (by omega)
        exact ⟨q, by rw [discards, hs]; exact hq, hnot⟩
    have hstay (r' : LogRing) (hready : r'.Ready cells needed.toNat) (hev : Evicted 0 r r') :
        ∃ k r'', k ≤ cells.length ∧ some r' = some r'' ∧ r''.Ready (cells.drop k) needed.toNat ∧
          Evicted k r r'' ∧ ∀ j < k, ∃ q, discards j r = some q ∧
            ¬ q.FitsContiguously needed.toNat :=
      ⟨0, r', Nat.zero_le _, rfl, hready, hev, by simp⟩
    have hcapLt := r.capacity.toNat_lt
    rw [makeRoom]
    simp only [h.normal_eq, Option.bind_eq_bind]
    rcases h.shape with hs | ⟨lo, hi, hsplit, hne, hw⟩
    · have hheq := hs.head_eq
      have hueq := hs.used_eq
      have hlt := hs.head_lt
      have hfree : (r.capacity - r.used).toNat = r.capacity.toNat - r.used.toNat :=
        toNat_u16_sub (by omega)
      have hend : (r.capacity - r.head).toNat = r.capacity.toNat - r.head.toNat :=
        toNat_u16_sub (by omega)
      have hrest : (r.capacity - r.used - (r.capacity - r.head)).toNat = r.tail.toNat := by
        rw [toNat_u16_sub (by omega), hfree, hend]
        omega
      -- Without records the whole buffer is free, so an eviction finds a record.
      have hsome (hlow : r.capacity.toNat < r.head.toNat + needed.toNat) : cells ≠ [] := by
        rintro rfl
        have htail := h.empty_tail rfl
        rw [htail] at hheq
        simp at hheq
        omega
      split_ifs with hfew hside hroom hstart
      · rw [UInt16.lt_iff_toNat_lt, hfree] at hfew
        have hne := hsome (by omega)
        exact hevict hne (hs.not_fits (flatten_length_pos h.isCell hne) (by omega) (by omega))
      · rw [ge_iff_le, UInt16.le_iff_toNat_le, hend] at hroom
        exact hstay r ⟨h.isCell, h.count_eq, .inl ⟨hs, by omega⟩⟩ (.zero r)
      · rw [UInt16.lt_iff_toNat_lt, hrest] at hstart
        rw [ge_iff_le, UInt16.le_iff_toNat_le, hend] at hroom
        have hne := hsome (by omega)
        exact hevict hne (hs.not_fits (flatten_length_pos h.isCell hne) hstart (by omega))
      · rw [UInt16.lt_iff_toNat_lt, hrest] at hstart
        rw [store_eq r _ _ hlt, Option.bind_some]
        refine hstay _ ⟨h.isCell, h.count_eq, .inr ⟨cells, [], by simp, hs.wrap, ?_⟩⟩
          ⟨rfl, rfl, by simp [withBytes], by simp [withBytes]⟩
        change 0 + needed.toNat ≤ r.tail.toNat
        omega
      · refine absurd (.inr ?_) hside
        rw [ge_iff_le, UInt16.le_iff_toNat_le]
        omega
    · have hle := hw.head_le
      have hlt := hw.tail_lt
      have hueq := hw.used_eq
      have hfree : (r.capacity - r.used).toNat = r.capacity.toNat - r.used.toNat :=
        toNat_u16_sub (by omega)
      have hcount0 : r.count ≠ 0 := by
        intro hz
        have hcount := h.count_eq
        rw [hz, hsplit] at hcount
        exact hne (List.length_eq_zero_iff.mp hcount.symm)
      by_cases hfew : r.capacity - r.used < needed
      · rw [if_pos hfew]
        rw [UInt16.lt_iff_toNat_lt, hfree] at hfew
        exact hevict (hsplit ▸ hne) (hw.not_fits (by omega))
      · rw [if_neg hfew]
        rw [UInt16.lt_iff_toNat_lt, hfree] at hfew
        -- With room between head and tail the head is below the tail.
        have hside : ¬ (r.count = 0 ∨ r.head ≥ r.tail) := by
          rw [not_or, ge_iff_le, UInt16.le_iff_toNat_le]
          exact ⟨hcount0, by omega⟩
        rw [if_neg hside]
        exact hstay r ⟨h.isCell, h.count_eq, .inr ⟨lo, hi, hsplit, hw, by omega⟩⟩ (.zero r)

-- ════════════════════════════════════════════════════════════════════════
-- Insertion
-- ════════════════════════════════════════════════════════════════════════

/-- `r'` is `r` with the record `c` written at the head. -/
structure Inserted (r r' : LogRing) (c : List UInt8) : Prop where
  buf_eq : r'.buf = write r.buf r.head.toNat c
  capacity_eq : r'.capacity = r.capacity
  tail_eq : r'.tail = r.tail
  head_eq : r'.head.toNat = if r.head.toNat + c.length = r.capacity.toNat then 0
    else r.head.toNat + c.length
  used_eq : r'.used.toNat = r.used.toNat + c.length
  count_eq : r'.count.toNat = r.count.toNat + 1

/-- A ring with free bytes at its head takes the record as its newest. -/
theorem Ready.placed_insert {r r' : LogRing} {cells : List (List UInt8)} {c : List UInt8}
    (h : r.Ready cells c.length) (hc : IsCell c) (d : Inserted r r' c) :
    r'.Placed (cells ++ [c]) := by
  have hcells : ∀ b ∈ cells ++ [c], IsCell b := by
    intro b hb
    rcases List.mem_append.mp hb with hb | hb
    · exact h.isCell b hb
    · rw [List.mem_singleton.mp hb]
      exact hc
  have hge := hc.size_ge
  have hheq' := d.head_eq
  have hueq' := d.used_eq
  have hcap' := congrArg UInt16.toNat d.capacity_eq
  have htail' := congrArg UInt16.toNat d.tail_eq
  refine ⟨hcells, by rw [d.count_eq, h.count_eq]; simp, by simp, ?_⟩
  have hnew : Holds r'.buf r.head.toNat c := by
    rw [d.buf_eq]
    exact holds_write _ _ _
  rcases h.shape with ⟨hs, hroom⟩ | ⟨lo, hi, hsplit, hw, hroom⟩
  · have hheq := hs.head_eq
    have hueq := hs.used_eq
    have hlt := hs.head_lt
    have hall : Holds r'.buf r'.tail.toNat (cells ++ [c]).flatten := by
      rw [List.flatten_append, List.flatten_singleton, holds_append, d.buf_eq, d.tail_eq]
      refine ⟨hs.holds.write_disjoint (.inl (by omega)), ?_⟩
      rw [← hheq]
      exact holds_write _ _ _
    have hlen : (cells ++ [c]).flatten.length = cells.flatten.length + c.length := by simp
    by_cases hend : r.head.toNat + c.length = r.capacity.toNat
    · -- An exact fit at the end: the head wraps, without a gap.
      rw [if_pos hend] at hheq'
      refine .inr ⟨cells ++ [c], [], by simp, by simp, ?_⟩
      constructor
      · omega
      · omega
      · intro hlt'
        omega
      · simpa using hheq'
      · omega
      · omega
      · exact hall
      · exact holds_nil _ _
    · rw [if_neg hend] at hheq'
      exact .inl ⟨by omega, by omega, by omega, hall⟩
  · have hheq := hw.head_eq
    have hle := hw.head_le
    have hlt := hw.tail_lt
    have hueq := hw.used_eq
    have hfits := hw.lo_fits
    have hlen : (hi ++ [c]).flatten.length = hi.flatten.length + c.length := by simp
    rw [if_neg (by omega)] at hheq'
    refine .inr ⟨lo, hi ++ [c], by rw [hsplit, List.append_assoc], by simp, ?_⟩
    constructor
    · omega
    · omega
    · intro hgap
      rw [d.buf_eq, d.tail_eq, write_outside (by omega)]
      exact hw.gap (by omega)
    · omega
    · omega
    · omega
    · rw [d.buf_eq, d.tail_eq]
      exact hw.holds_lo.write_disjoint (.inr (by omega))
    · rw [List.flatten_append, List.flatten_singleton, holds_append, d.buf_eq]
      refine ⟨hw.holds_hi.write_disjoint (.inl (by omega)), ?_⟩
      rw [Nat.zero_add, ← hheq]
      exact holds_write _ _ _

/-- The number of records stays far below the range of its counter. -/
theorem Ready.count_lt {r : LogRing} {cells : List (List UInt8)} {n : ℕ} (h : r.Ready cells n) :
    cells.length < 65535 := by
  have hcap := r.capacity.toNat_lt
  have hmany := length_mul_le_flatten h.isCell
  rcases h.shape with ⟨hs, -⟩ | ⟨lo, hi, hsplit, hw, -⟩
  · have hheq := hs.head_eq
    have hlt := hs.head_lt
    omega
  · have hheq := hw.head_eq
    have hle := hw.head_le
    have hlt := hw.tail_lt
    have hfits := hw.lo_fits
    have hlen : cells.flatten.length = lo.flatten.length + hi.flatten.length := by
      rw [hsplit]
      simp
    omega

/-- The ring after the record was written at the head. -/
def afterWrite (r : LogRing) (e : LogEntry) : LogRing :=
  { r.withBytes r.head.toNat (e.encode r.nextSeq) with
    nextSeq := r.nextSeq + 1
    head := if r.head + e.needed = r.capacity then 0 else r.head + e.needed
    used := r.used + e.needed
    count := r.count + 1 }

theorem logRingPush_eq {r s : LogRing} {e : LogEntry}
    (hroom : makeRoom (r.count.toNat + 1) r e.needed = some s)
    (hfit : s.head.toNat + e.needed.toNat ≤ s.capacity.toNat) :
    r.logRingPush e = some (s.nextSeq,
      if s.count + 1 = 1 then { s.afterWrite e with firstSeq := s.nextSeq }
      else s.afterWrite e) := by
  have hwrite := writeRecord_eq { s with nextSeq := s.nextSeq + 1 } e s.nextSeq hfit
  simp only [logRingPush, hroom, hwrite, Option.bind_eq_bind, Option.bind_some]
  rfl

theorem Ready.inserted {r : LogRing} {cells : List (List UInt8)} {e : LogEntry}
    (h : r.Ready cells e.needed.toNat)
    (hfit : r.head.toNat + e.needed.toNat ≤ r.capacity.toNat) :
    Inserted r (r.afterWrite e) (e.encode r.nextSeq) := by
  have hcap := r.capacity.toNat_lt
  have hcount := h.count_lt
  have hceq := h.count_eq
  have hsum : (r.head + e.needed).toNat = r.head.toNat + e.needed.toNat :=
    toNat_u16_add (by omega)
  have hend : r.head + e.needed = r.capacity ↔
      r.head.toNat + e.needed.toNat = r.capacity.toNat := by
    rw [← UInt16.toNat_inj, hsum]
  refine ⟨rfl, rfl, rfl, ?_, ?_, ?_⟩
  · rw [LogEntry.length_encode]
    simp only [afterWrite, hend]
    split_ifs
    · rfl
    · exact hsum
  · rw [LogEntry.length_encode]
    refine toNat_u16_add ?_
    rcases h.shape with ⟨hs, -⟩ | ⟨lo, hi, -, hw, hroom⟩
    · have hheq := hs.head_eq
      have hueq := hs.used_eq
      omega
    · have hueq := hw.used_eq
      have hlt := hw.tail_lt
      omega
  · change (r.count + 1).toNat = _
    rw [toNat_u16_add (by simp; omega)]
    rfl

/-- **Push**: the newest records are kept, the new one is added behind them. -/
theorem logRingPush_placed {r : LogRing} {cells : List (List UInt8)} (h : r.Placed cells)
    (e : LogEntry) (hcap : e.needed.toNat ≤ r.capacity.toNat) :
    ∃ k r', k ≤ cells.length ∧ r.logRingPush e = some (r.nextSeq, r') ∧
      r'.Placed (cells.drop k ++ [e.encode r.nextSeq]) ∧ r'.capacity = r.capacity ∧
      r'.nextSeq = r.nextSeq + 1 ∧ r'.overwritten = r.overwritten + UInt32.ofNat k ∧
      r'.firstSeq = (if k = cells.length then r.nextSeq else r.firstSeq + UInt32.ofNat k) ∧
      ∀ j < k, ∃ q, discards j r = some q ∧ ¬ q.FitsContiguously e.needed.toNat := by
  have hmin := e.needed_ge
  have hneed : 0 < e.needed.toNat := by omega
  obtain ⟨k, s, hk, hroom, hready, hev, hall⟩ := makeRoom_placed h hneed
    hcap (by rw [h.count_eq]; omega : cells.length < r.count.toNat + 1)
  have hfit : s.head.toNat + e.needed.toNat ≤ s.capacity.toNat := by
    rcases hready.shape with ⟨-, hfit⟩ | ⟨lo, hi, -, hw, hfit⟩
    · exact hfit
    · have := hw.tail_lt
      omega
  have hpush := logRingPush_eq hroom hfit
  have hins := hready.inserted hfit
  have hplaced (r' : LogRing) (d : Inserted s r' (e.encode s.nextSeq)) :
      r'.Placed (cells.drop k ++ [e.encode s.nextSeq]) :=
    Ready.placed_insert (by rw [LogEntry.length_encode]; exact hready) (e.isCell_encode _) d
  have hcount := hready.count_eq
  rw [List.length_drop] at hcount
  have hfirst : s.count + 1 = 1 ↔ k = cells.length := by
    have hsum : (s.count + 1).toNat = s.count.toNat + 1 := by
      have := hready.count_lt
      rw [List.length_drop] at this
      rw [toNat_u16_add (by simp; omega)]
      rfl
    rw [← UInt16.toNat_inj, hsum, UInt16.toNat_one]
    omega
  rw [hev.nextSeq_eq] at hpush hplaced hins
  simp only [hfirst] at hpush
  refine ⟨k, _, hk, hpush, ?_, ?_, ?_, ?_, ?_, hall⟩
  · split_ifs
    · exact hplaced _ ⟨hins.buf_eq, hins.capacity_eq, hins.tail_eq, hins.head_eq, hins.used_eq,
        hins.count_eq⟩
    · exact hplaced _ hins
  · split_ifs <;> exact hev.capacity_eq
  · split_ifs <;> exact congrArg (· + 1) hev.nextSeq_eq
  · split_ifs <;> exact hev.overwritten_eq
  · split_ifs
    · rfl
    · exact hev.firstSeq_eq

end LogRing

end Fountainer.Logging
