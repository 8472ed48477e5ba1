import Fountainer.Logging.Ring

/-!
# Records

The bytes of a record (`LogEntry.encode`), that `log_ring_push` stores exactly
these at the head, and that a view of them reads the entry back.
-/

namespace Fountainer.Logging

open Bytes

namespace LogEntry

/-- The first `n` arguments, one word each. -/
def argBytes (e : LogEntry) (n : ℕ) : List UInt8 :=
  (List.range n).flatMap (fun i => leU32 (e.arg i).toUInt32)

/-- The text as it is stored. -/
def keptText (e : LogEntry) : List UInt8 := e.chars.take e.textLen

/-- The bytes of the record with sequence number `seq`. -/
def encode (e : LogEntry) (seq : UInt32) : List UInt8 :=
  [e.needed.toUInt8, e.level, e.module, e.flags] ++ leU16 e.eventId ++ leU32 seq ++
    leU32 e.uptimeMs ++ e.argBytes e.argCount.toNat ++ e.keptText ++ [0]

theorem argCount_le (e : LogEntry) : e.argCount.toNat ≤ 4 := by
  simp only [argCount]
  split_ifs with hnull hmany
  · simp
  · simp
  · exact UInt8.le_iff_toNat_le.mp (UInt8.not_lt.mp hmany)

theorem textLen_le (e : LogEntry) : e.textLen ≤ 47 := by
  unfold textLen tooLong
  split_ifs with hlong
  · exact le_refl _
  · simpa using hlong

theorem textLen_le_length (e : LogEntry) : e.textLen ≤ e.chars.length := by
  unfold textLen tooLong
  split_ifs with hlong
  · simp only [decide_eq_true_eq] at hlong
    omega
  · exact le_refl _

@[simp] theorem length_keptText (e : LogEntry) : e.keptText.length = e.textLen := by
  simp [keptText, e.textLen_le_length]

theorem argBytes_succ (e : LogEntry) (n : ℕ) :
    e.argBytes (n + 1) = e.argBytes n ++ leU32 (e.arg n).toUInt32 := by
  simp [argBytes, List.range_succ]

@[simp] theorem length_argBytes (e : LogEntry) (n : ℕ) : (e.argBytes n).length = 4 * n := by
  induction n with
  | zero => rfl
  | succ n ih =>
    rw [argBytes_succ, List.length_append, ih, length_leU32]
    omega

/-- The size of a record does not overflow its 16-bit computation. -/
theorem needed_toNat (e : LogEntry) :
    e.needed.toNat = 14 + 4 * e.argCount.toNat + e.textLen + 1 := by
  have h1 := e.argCount_le
  have h2 := e.textLen_le
  simp only [needed, logRingHdrSize, UInt16.toNat_ofNat']
  exact Nat.mod_eq_of_lt (by omega)

theorem needed_le (e : LogEntry) : e.needed.toNat ≤ 78 := by
  have h1 := e.argCount_le
  have h2 := e.textLen_le
  rw [e.needed_toNat]
  omega

theorem needed_ge (e : LogEntry) : 15 ≤ e.needed.toNat := by
  rw [e.needed_toNat]
  omega

@[simp] theorem length_encode (e : LogEntry) (seq : UInt32) :
    (e.encode seq).length = e.needed.toNat := by
  rw [e.needed_toNat]
  simp only [encode, List.length_append, length_leU16, length_leU32, length_argBytes,
    length_keptText, List.length_cons, List.length_nil]

/-- The stored text has no terminator inside. -/
theorem keptText_nonzero (e : LogEntry) : ∀ b ∈ e.keptText, b ≠ 0 := by
  intro b hb
  have hmem : b ∈ e.chars := List.mem_of_mem_take hb
  unfold chars at hmem
  cases ht : e.text with
  | none => simp [ht] at hmem
  | some text =>
    rw [ht] at hmem
    exact text.nonzero b hmem

/-- The flag byte carries the number of arguments. -/
theorem flags_argc (e : LogEntry) : e.flags &&& logRingFlagArgcMask = e.argCount := by
  have key : ∀ n : Fin 5, (UInt8.ofNat n ||| logRingFlagTruncated) &&& logRingFlagArgcMask =
      UInt8.ofNat n ∧ UInt8.ofNat n &&& logRingFlagArgcMask = UInt8.ofNat n := by decide
  have hc : e.argCount = UInt8.ofNat e.argCount.toNat := by simp
  have hk := key ⟨e.argCount.toNat, Nat.lt_succ_of_le e.argCount_le⟩
  simp only [← hc] at hk
  unfold flags
  split
  · exact hk.1
  · exact hk.2

end LogEntry

namespace LogRing

/-- The ring with bytes written into its buffer. -/
def withBytes (r : LogRing) (off : ℕ) (bs : List UInt8) : LogRing :=
  { r with buf := write r.buf off bs }

theorem store_eq (r : LogRing) (i : ℕ) (b : UInt8) (h : i < r.capacity.toNat) :
    r.store i b = some (r.withBytes i [b]) := by
  simp only [store, h, if_true, withBytes, write_singleton]

theorem withBytes_append (r : LogRing) (off : ℕ) (as bs : List UInt8) :
    (r.withBytes off as).withBytes (off + as.length) bs = r.withBytes off (as ++ bs) := by
  simp only [withBytes, write_write_append]

theorem storeBytes_eq (r : LogRing) (off : ℕ) (bs : List UInt8)
    (h : off + bs.length ≤ r.capacity.toNat) :
    r.storeBytes off bs = some (r.withBytes off bs) := by
  induction bs generalizing r off with
  | nil => simp [storeBytes, withBytes]
  | cons b bs ih =>
    rw [List.length_cons] at h
    rw [storeBytes, store_eq r off b (by omega), Option.bind_eq_bind, Option.bind_some,
      ih (r.withBytes off [b]) (off + 1) (by simp only [withBytes]; omega)]
    rw [show off + 1 = off + [b].length from rfl, withBytes_append]
    rfl

/-- Storing two pieces, one right behind the other. -/
theorem storeBytes_append (r : LogRing) (off : ℕ) (as bs : List UInt8) :
    r.storeBytes off (as ++ bs) =
      (r.storeBytes off as).bind (fun r => r.storeBytes (off + as.length) bs) := by
  induction as generalizing r off with
  | nil => rfl
  | cons a as ih =>
    simp only [List.cons_append, storeBytes, List.length_cons, Option.bind_eq_bind,
      Option.bind_assoc, ih]
    rw [Nat.add_assoc, Nat.add_comm 1]

theorem store_eq_storeBytes (r : LogRing) (i : ℕ) (b : UInt8) :
    r.store i b = r.storeBytes i [b] := by
  simp [storeBytes]

/-- The argument loop stores the argument words. -/
theorem storeArgs_eq (r : LogRing) (e : LogEntry) (off n : ℕ) :
    (List.range n).foldlM (fun r i => r.storeBytes (off + 4 * i) (leU32 (e.arg i).toUInt32)) r =
      r.storeBytes off (e.argBytes n) := by
  induction n with
  | zero => rfl
  | succ n ih =>
    rw [List.range_succ, List.foldlM_append, ih, LogEntry.argBytes_succ, storeBytes_append,
      LogEntry.length_argBytes]
    simp

/-- **A record is stored as its encoding.** -/
theorem writeRecord_eq (r : LogRing) (e : LogEntry) (seq : UInt32)
    (h : r.head.toNat + e.needed.toNat ≤ r.capacity.toNat) :
    r.writeRecord e seq = some (r.withBytes r.head.toNat (e.encode seq)) := by
  rw [← storeBytes_eq r _ _ (by rw [LogEntry.length_encode]; exact h)]
  have hlast : r.head.toNat + e.needed.toNat - 1 =
      r.head.toNat + 14 + 4 * e.argCount.toNat + e.textLen := by
    rw [e.needed_toNat]
    omega
  have hkept : e.chars.take e.textLen = e.keptText := rfl
  simp only [writeRecord, storeArgs_eq, store_eq_storeBytes, hkept, hlast, logRingHdrSize]
  simp only [LogEntry.encode, storeBytes_append, Option.bind_eq_bind, Option.bind_assoc,
    List.length_append, List.length_cons, List.length_nil, length_leU16, length_leU32,
    LogEntry.length_argBytes, LogEntry.length_keptText, Nat.reduceAdd, Nat.add_assoc]

end LogRing

namespace LogEntry

/-- What an iteration shows of the record at `p`. -/
def view (e : LogEntry) (seq : UInt32) (p : ℕ) : LogView where
  level := e.level
  module := e.module
  flags := e.flags
  argc := e.argCount
  eventId := e.eventId
  seq := seq
  uptimeMs := e.uptimeMs
  args := fun i => if (i : ℕ) < e.argCount.toNat then e.arg i else 0
  text := p + logRingHdrSize + 4 * e.argCount.toNat

/-- The words of the argument bytes. -/
theorem holds_arg {m : Mem} {off n : ℕ} {e : LogEntry} (h : Holds m off (e.argBytes n)) :
    ∀ i < n, Holds m (off + 4 * i) (leU32 (e.arg i).toUInt32) := by
  induction n with
  | zero => simp
  | succ n ih =>
    rw [argBytes_succ, holds_append, length_argBytes] at h
    intro i hi
    rcases Nat.lt_succ_iff_lt_or_eq.mp hi with hlt | rfl
    · exact ih h.1 i hlt
    · exact h.2

end LogEntry

namespace LogRing

variable {r : LogRing} {e : LogEntry} {seq : UInt32} {p : ℕ}

/-- The loop that reads the arguments back. -/
theorem loadArgs_eq {off n : ℕ} (h : Holds r.buf off (e.argBytes n)) (hn : n ≤ 4)
    (hfit : off + 4 * n ≤ r.capacity.toNat) :
    (List.range n).foldlM
      (fun (args : ℕ → Int32) i => do
        let v ← r.loadU32 (off + 4 * i)
        if i < logRingMaxArgs then some (Function.update args i v.toInt32) else none)
      (fun _ => 0) = some (fun i => if i < n then e.arg i else 0) := by
  induction n with
  | zero => simp
  | succ n ih =>
    have hword := LogEntry.holds_arg h n (Nat.lt_succ_self n)
    rw [LogEntry.argBytes_succ, holds_append] at h
    rw [List.range_succ, List.foldlM_append, ih h.1 (by omega) (by omega)]
    have hmax : n < logRingMaxArgs := by
      simp only [logRingMaxArgs]
      omega
    simp only [List.foldlM_cons, List.foldlM_nil, loadU32, rdU32_of_holds hword, hmax, if_true,
      if_pos (by omega : off + 4 * n + 4 ≤ r.capacity.toNat), Option.bind_eq_bind,
      Option.bind_some]
    refine congrArg some (funext fun i => ?_)
    by_cases hi : i = n
    · subst hi
      simp
    · rw [Function.update_of_ne hi]
      by_cases hlt : i < n
      · rw [if_pos hlt, if_pos (by omega)]
      · rw [if_neg hlt, if_neg (by omega)]

/-- **A view reads back what was stored.** -/
theorem viewAt_eq (h : Holds r.buf p (e.encode seq))
    (hfit : p + e.needed.toNat ≤ r.capacity.toNat) : r.viewAt p = some (e.view seq p) := by
  have hn := e.needed_toNat
  have hargc := e.argCount_le
  simp only [LogEntry.encode, holds_append, List.length_append, List.length_cons, List.length_nil,
    length_leU16, length_leU32, LogEntry.length_argBytes, Nat.reduceAdd] at h
  obtain ⟨⟨⟨⟨⟨⟨hhead, hid⟩, hseq⟩, hup⟩, hargs⟩, -⟩, -⟩ := h
  simp only [holds_cons, Nat.add_assoc, Nat.reduceAdd] at hhead
  obtain ⟨-, hlevel, hmodule, hflags, -⟩ := hhead
  have hmask : e.flags &&& logRingFlagArgcMask = e.argCount := e.flags_argc
  have hclamp : ¬ e.argCount > 4 := by
    intro hgt
    have := UInt8.lt_iff_toNat_lt.mp hgt
    simp at this
    omega
  have hloop := loadArgs_eq (r := r) hargs hargc (by omega)
  simp only [Option.bind_eq_bind] at hloop
  simp only [viewAt, load, loadU16, if_pos (by omega : p + 1 < r.capacity.toNat),
    if_pos (by omega : p + 2 < r.capacity.toNat), if_pos (by omega : p + 3 < r.capacity.toNat),
    if_pos (by omega : p + 4 + 2 ≤ r.capacity.toNat), hlevel, hmodule, hflags, hmask, hclamp,
    if_false, rdU16_of_holds hid, Option.bind_eq_bind, Option.bind_some, logRingHdrSize]
  rw [hloop]
  simp only [loadU32, if_pos (by omega : p + 6 + 4 ≤ r.capacity.toNat),
    if_pos (by omega : p + 10 + 4 ≤ r.capacity.toNat), rdU32_of_holds hseq, rdU32_of_holds hup,
    Option.bind_some]
  rfl

/-- A terminated string is read up to its terminator. -/
theorem cstring_eq {bs : List UInt8} {off fuel : ℕ} (h : Holds r.buf off (bs ++ [0]))
    (hne : ∀ b ∈ bs, b ≠ 0) (hfit : off + bs.length < r.capacity.toNat) (hfuel : bs.length < fuel) :
    r.cstring fuel off = some bs := by
  induction bs generalizing off fuel with
  | nil =>
    obtain ⟨fuel, rfl⟩ := Nat.exists_eq_add_of_lt hfuel
    have hz : r.buf off = 0 := (holds_cons.mp h).1
    have hlt : off < r.capacity.toNat := by simpa using hfit
    simp [cstring, load, hz, hlt]
  | cons b bs ih =>
    obtain ⟨fuel, rfl⟩ : ∃ k, fuel = k + 1 := ⟨fuel - 1, by omega⟩
    rw [List.cons_append, holds_cons] at h
    rw [List.length_cons] at hfit hfuel
    have hb : b ≠ 0 := hne b (by simp)
    have hlt : off < r.capacity.toNat := by omega
    have hrest := ih h.2 (fun x hx => hne x (by simp [hx])) (by omega) (by omega : bs.length < fuel)
    simp [cstring, load, hlt, h.1, hb, hrest]

/-- The text of a view is the stored text. -/
theorem textOf_view (h : Holds r.buf p (e.encode seq))
    (hfit : p + e.needed.toNat ≤ r.capacity.toNat) :
    r.textOf (e.view seq p) = some e.keptText := by
  have hn := e.needed_toNat
  rw [LogEntry.encode, List.append_assoc, holds_append] at h
  have htext := h.2
  simp only [List.length_append, List.length_cons, List.length_nil, length_leU16, length_leU32,
    LogEntry.length_argBytes, Nat.reduceAdd, ← Nat.add_assoc] at htext
  change r.cstring r.capacity.toNat (p + 14 + 4 * e.argCount.toNat) = some e.keptText
  refine cstring_eq htext e.keptText_nonzero ?_ ?_
  · rw [LogEntry.length_keptText]
    omega
  · rw [LogEntry.length_keptText]
    omega

end LogRing

end Fountainer.Logging
