import Fountainer.Lib.Bytes

/-!
# Logs in NOR flash

An erased byte has all bits set, and a write only clears bits. A log is a row of cells of one size,
filled from its start; a cell carries a check, so that a reader stops at the first cell that does
not pass: behind the last entry, or at a cell whose write was cut short. `Log` says what the region
of a log has, and the rules say what an append, a cut write and writes elsewhere make of it.
-/

namespace NorLog

open Bytes

/-- `m` with the bytes `bs` programmed from `off` on. -/
def program (m : Mem) (off : ℕ) (bs : List UInt8) : Mem :=
  fun i => if off ≤ i ∧ i < off + bs.length then m i &&& bs.getD (i - off) 0 else m i

/-- `m` with `n` bytes erased from `off` on. -/
def erase (m : Mem) (off n : ℕ) : Mem := fun i => if off ≤ i ∧ i < off + n then 0xFF else m i

/-- The `n` bytes from `off` on are erased. -/
def Erased (m : Mem) (off n : ℕ) : Prop := ∀ i, off ≤ i → i < off + n → m i = 0xFF

/-- The memories agree on the `n` bytes from `off` on. -/
def Agree (m m' : Mem) (off n : ℕ) : Prop := ∀ i, off ≤ i → i < off + n → m' i = m i

variable {m m' : Mem} {off off' n k : ℕ} {bs : List UInt8}

theorem erased_erase (m : Mem) (off n : ℕ) : Erased (erase m off n) off n :=
  fun _ hle hlt => if_pos ⟨hle, hlt⟩

theorem Erased.sub (h : Erased m off n) (hle : off ≤ off') (hend : off' + k ≤ off + n) :
    Erased m off' k := fun i hi hi' => h i (hle.trans hi) (by omega)

theorem Erased.congr (h : Erased m off n) (hsame : Agree m m' off n) : Erased m' off n :=
  fun i hi hi' => (hsame i hi hi').trans (h i hi hi')

theorem Erased.holds (h : Erased m off n) : Holds m off (List.replicate n 0xFF) := by
  intro i hi
  rw [List.getElem_replicate]
  exact h _ (Nat.le_add_right _ _) (by rw [List.length_replicate] at hi; omega)

theorem Erased.read_eq (h : Erased m off n) : read m off n = List.replicate n 0xFF := by
  have hread := read_eq_of_holds h.holds
  rwa [List.length_replicate] at hread

theorem Agree.sub (h : Agree m m' off n) (hle : off ≤ off') (hend : off' + k ≤ off + n) :
    Agree m m' off' k := fun i hi hi' => h i (hle.trans hi) (by omega)

theorem Agree.trans {m'' : Mem} (h : Agree m m' off n) (h' : Agree m' m'' off n) :
    Agree m m'' off n :=
  fun i hi hi' => (h' i hi hi').trans (h i hi hi')

theorem Agree.refl (m : Mem) (off n : ℕ) : Agree m m off n := fun _ _ _ => rfl

theorem Agree.holds (h : Agree m m' off n) (hholds : Holds m off bs) (hlen : bs.length ≤ n) :
    Holds m' off bs := fun i hi => (h _ (by omega) (by omega)).trans (hholds i hi)

theorem agree_program (m : Mem) (bs : List UInt8) (h : off + n ≤ off' ∨ off' + bs.length ≤ off) :
    Agree m (program m off' bs) off n := fun i hi hi' => if_neg (by omega)

theorem agree_erase (m : Mem) (h : off + n ≤ off' ∨ off' + k ≤ off) :
    Agree m (erase m off' k) off n := fun i hi hi' => if_neg (by omega)

/-- Programming `bs` at `off` sets no bit: what a byte is to become is among its bits. -/
def Clears (m : Mem) (off : ℕ) (bs : List UInt8) : Prop :=
  ∀ i (h : i < bs.length), m (off + i) &&& bs[i] = bs[i]

/-- What only clears bits stands where it is programmed. -/
theorem Clears.holds (h : Clears m off bs) : Holds (program m off bs) off bs := by
  intro i hi
  rw [program, if_pos ⟨Nat.le_add_right _ _, by omega⟩, Nat.add_sub_cancel_left,
    List.getD_eq_getElem _ _ hi]
  exact h i hi

theorem clears_of_holds (h : Holds m off bs) : Clears m off bs := by
  intro i hi
  rw [h i hi]
  exact UInt8.and_self

theorem clears_zeros (m : Mem) (off n : ℕ) : Clears m off (List.replicate n 0) := by
  intro i hi
  rw [List.getElem_replicate]
  exact UInt8.and_zero

theorem Clears.append {cs : List UInt8} (h : Clears m off bs) (h' : Clears m (off + bs.length) cs) :
    Clears m off (bs ++ cs) := by
  intro i hi
  rw [List.length_append] at hi
  by_cases hlt : i < bs.length
  · rw [List.getElem_append_left hlt]
    exact h i hlt
  · have hc := h' (i - bs.length) (by omega)
    rw [Nat.add_assoc, Nat.add_sub_of_le (Nat.not_lt.mp hlt)] at hc
    rw [List.getElem_append_right (Nat.not_lt.mp hlt)]
    exact hc

/-- What is programmed into an erased region stands there. -/
theorem Erased.holds_program (h : Erased m off bs.length) : Holds (program m off bs) off bs := by
  refine Clears.holds fun i hi => ?_
  rw [h (off + i) (Nat.le_add_right _ _) (by omega)]
  exact UInt8.neg_one_and

/-- A format of cells: an entry as bytes, and what a reader finds in a cell, which is nothing where
    the cell is erased. -/
structure Cells (α : Type*) where
  size : ℕ
  encode : α → List UInt8
  decode : Mem → ℕ → Option α
  length_encode : ∀ a, (encode a).length = size
  decode_encode : ∀ m off a, Holds m off (encode a) → decode m off = some a
  decode_erased : ∀ m off, Erased m off size → decode m off = none

section Cells

variable {α : Type*} (C : Cells α)

/-- The entries of the first `room` cells, up to the first one that does not pass. -/
def scan (m : Mem) (off : ℕ) : ℕ → List α
  | 0 => []
  | room + 1 =>
    match C.decode m off with
    | none => []
    | some a => a :: scan m (off + C.size) room

/-- The entries as bytes. -/
def encodeAll (as : List α) : List UInt8 := as.flatMap C.encode

@[simp] theorem length_encodeAll (as : List α) : (encodeAll C as).length = as.length * C.size := by
  induction as with
  | nil => simp [encodeAll]
  | cons a as ih =>
    rw [encodeAll, List.flatMap_cons, List.length_append, C.length_encode, List.length_cons,
      Nat.succ_mul, ← ih, encodeAll, Nat.add_comm]

theorem encodeAll_cons (a : α) (as : List α) :
    encodeAll C (a :: as) = C.encode a ++ encodeAll C as :=
  rfl

theorem encodeAll_concat (as : List α) (a : α) :
    encodeAll C (as ++ [a]) = encodeAll C as ++ C.encode a := by
  simp [encodeAll]

/-- The entries stand in the first of the `room` cells from `off` on. -/
structure Stored (m : Mem) (off room : ℕ) (as : List α) : Prop where
  fits : as.length ≤ room
  holds : Holds m off (encodeAll C as)

/-- The entries stand in the first cells, and the others are erased. -/
structure Log (m : Mem) (off room : ℕ) (as : List α) : Prop extends Stored C m off room as where
  blank : Erased m (off + as.length * C.size) ((room - as.length) * C.size)

variable {C} {room : ℕ} {as : List α} {a : α}

/-- A reader finds the stored entries first. -/
theorem Stored.isPrefix (h : Stored C m off room as) : as <+: scan C m off room := by
  induction as generalizing off room with
  | nil => exact List.nil_prefix
  | cons a as ih =>
    obtain ⟨hfits, hholds⟩ := h
    rw [encodeAll_cons, holds_append, C.length_encode] at hholds
    obtain ⟨room, rfl⟩ := Nat.exists_eq_succ_of_ne_zero
      (by rw [List.length_cons] at hfits; omega : room ≠ 0)
    rw [scan, C.decode_encode m off a hholds.1]
    exact (List.prefix_cons_inj a).mpr (ih ⟨Nat.le_of_succ_le_succ hfits, hholds.2⟩)

/-- A reader of a log finds its entries. -/
theorem Log.scan_eq (h : Log C m off room as) : scan C m off room = as := by
  induction as generalizing off room with
  | nil =>
    cases room with
    | zero => rfl
    | succ room =>
      have hblank := h.blank
      rw [List.length_nil, Nat.zero_mul, Nat.add_zero, Nat.sub_zero, Nat.succ_mul] at hblank
      rw [scan, C.decode_erased m off (hblank.sub le_rfl (by omega))]
  | cons a as ih =>
    obtain ⟨⟨hfits, hholds⟩, hblank⟩ := h
    rw [encodeAll_cons, holds_append, C.length_encode] at hholds
    obtain ⟨room, rfl⟩ := Nat.exists_eq_succ_of_ne_zero
      (by rw [List.length_cons] at hfits; omega : room ≠ 0)
    rw [scan, C.decode_encode m off a hholds.1]
    refine congrArg (a :: ·) (ih ⟨⟨Nat.le_of_succ_le_succ hfits, hholds.2⟩, ?_⟩)
    rw [List.length_cons, Nat.succ_sub_succ, Nat.succ_mul] at hblank
    exact hblank.sub (by omega) (by omega)

/-- An erased region is an empty log. -/
theorem log_of_erased (h : Erased m off (room * C.size)) : Log C m off room [] :=
  ⟨⟨Nat.zero_le _, holds_nil m off⟩, by simpa using h⟩

/-- A log stays as long as its region does. -/
theorem Log.congr (h : Log C m off room as) (hsame : Agree m m' off (room * C.size)) :
    Log C m' off room as := by
  have hroom : as.length * C.size + (room - as.length) * C.size = room * C.size := by
    rw [← Nat.add_mul, Nat.add_sub_of_le h.fits]
  refine ⟨⟨h.fits, hsame.holds h.holds ?_⟩, h.blank.congr (hsame.sub (by omega) (by omega))⟩
  rw [length_encodeAll]
  omega

theorem Stored.congr (h : Stored C m off room as) (hsame : Agree m m' off (room * C.size)) :
    Stored C m' off room as := by
  refine ⟨h.fits, hsame.holds h.holds ?_⟩
  rw [length_encodeAll]
  exact Nat.mul_le_mul_right _ h.fits

/-- What stands in the first cells is not touched by programming behind them. -/
theorem Stored.program (h : Stored C m off room as) (hbehind : off + as.length * C.size ≤ off') :
    Stored C (program m off' bs) off room as := by
  refine ⟨h.fits, (agree_program m bs (.inl hbehind)).holds h.holds ?_⟩
  rw [length_encodeAll]

/-- **Append**: an entry programmed into the next cell. -/
theorem Log.append (h : Log C m off room as) (hroom : as.length < room) (a : α) :
    Log C (NorLog.program m (off + as.length * C.size) (C.encode a)) off room (as ++ [a]) := by
  have hcell : C.size ≤ (room - as.length) * C.size :=
    Nat.le_mul_of_pos_left _ (Nat.sub_pos_of_lt hroom)
  have hsplit : (room - as.length) * C.size = C.size + (room - (as.length + 1)) * C.size := by
    rw [Nat.add_comm, ← Nat.succ_mul]
    congr 1
    omega
  refine ⟨⟨by rw [List.length_append]; exact hroom, ?_⟩, ?_⟩
  · rw [encodeAll_concat, holds_append, length_encodeAll]
    refine ⟨(agree_program m _ (.inl le_rfl)).holds h.holds (by rw [length_encodeAll]), ?_⟩
    exact Erased.holds_program (h.blank.sub le_rfl (by rw [C.length_encode]; omega))
  · rw [List.length_append, List.length_singleton, Nat.succ_mul]
    refine Erased.congr (h.blank.sub (by omega) ?_)
      (agree_program m _ (.inr (by rw [C.length_encode]; omega)))
    omega

end Cells

end NorLog
