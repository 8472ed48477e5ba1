import Mathlib.Data.Nat.Bitwise
import Mathlib.Data.List.GetD
import Mathlib.Data.List.Range

/-!
# Byte memory and little-endian words

A memory is a function from offsets to bytes. `Holds m off bs` says that the
bytes `bs` stand at `off`, and `write` puts them there; the lemmas say how these
compose and that disjoint regions do not disturb one another. Little-endian
words are lists of bytes.
-/

namespace Bytes

/-- A byte-addressed memory. -/
abbrev Mem := ℕ → UInt8

/-- A C string, without its terminator. -/
@[ext]
structure CString where
  bytes : List UInt8
  nonzero : ∀ b ∈ bytes, b ≠ 0
  deriving DecidableEq

/-- At most `n` characters, as `%.*s` prints them. -/
def CString.take (n : ℕ) (s : CString) : CString where
  bytes := s.bytes.take n
  nonzero b hb := s.nonzero b (List.mem_of_mem_take hb)

def CString.append (s t : CString) : CString where
  bytes := s.bytes ++ t.bytes
  nonzero b hb := (List.mem_append.mp hb).elim (s.nonzero b) (t.nonzero b)

instance : Append CString := ⟨CString.append⟩

/-- The bytes `bs` stand in `m` from `off` on. -/
def Holds (m : Mem) (off : ℕ) (bs : List UInt8) : Prop :=
  ∀ i (h : i < bs.length), m (off + i) = bs[i]

/-- `m` with the bytes `bs` written from `off` on. -/
def write (m : Mem) (off : ℕ) (bs : List UInt8) : Mem :=
  fun i => if off ≤ i ∧ i < off + bs.length then bs.getD (i - off) 0 else m i

/-- The `n` bytes of `m` from `off` on. -/
def read (m : Mem) (off n : ℕ) : List UInt8 := (List.range n).map (fun i => m (off + i))

@[simp] theorem holds_nil (m : Mem) (off : ℕ) : Holds m off [] := by
  intro i h
  exact absurd h (by simp)

theorem holds_append {m : Mem} {off : ℕ} {as bs : List UInt8} :
    Holds m off (as ++ bs) ↔ Holds m off as ∧ Holds m (off + as.length) bs := by
  constructor
  · intro h
    refine ⟨fun i hi => ?_, fun i hi => ?_⟩
    · rw [h i (by simp; omega), List.getElem_append_left hi]
    · rw [Nat.add_assoc, h (as.length + i) (by simp; omega),
        List.getElem_append_right (Nat.le_add_right _ _)]
      simp
  · rintro ⟨ha, hb⟩ i hi
    rw [List.length_append] at hi
    by_cases hlt : i < as.length
    · rw [ha i hlt, List.getElem_append_left hlt]
    · rw [List.getElem_append_right (by omega), ← hb (i - as.length) (by omega)]
      congr 1
      omega

theorem holds_cons {m : Mem} {off : ℕ} {b : UInt8} {bs : List UInt8} :
    Holds m off (b :: bs) ↔ m off = b ∧ Holds m (off + 1) bs := by
  rw [← List.singleton_append, holds_append]
  refine and_congr_left (fun _ => ⟨fun h => h 0 (by simp), fun h i hi => ?_⟩)
  obtain rfl : i = 0 := by simpa using hi
  exact h

@[simp] theorem write_nil (m : Mem) (off : ℕ) : write m off [] = m := by
  funext i
  simp [write]

/-- Outside the region a write changes nothing. -/
theorem write_outside {m : Mem} {off i : ℕ} {bs : List UInt8}
    (h : i < off ∨ off + bs.length ≤ i) : write m off bs i = m i := by
  have hno : ¬ (off ≤ i ∧ i < off + bs.length) := by omega
  simp [write, hno]

theorem holds_write (m : Mem) (off : ℕ) (bs : List UInt8) : Holds (write m off bs) off bs := by
  intro i hi
  have hin : off ≤ off + i ∧ off + i < off + bs.length := by omega
  simp only [write, hin, and_self, if_true, Nat.add_sub_cancel_left]
  exact List.getD_eq_getElem _ _ hi

/-- A write to a disjoint region leaves the bytes standing. -/
theorem Holds.write_disjoint {m : Mem} {off off' : ℕ} {bs bs' : List UInt8} (h : Holds m off bs)
    (hd : off + bs.length ≤ off' ∨ off' + bs'.length ≤ off) : Holds (write m off' bs') off bs := by
  intro i hi
  rw [write_outside (by omega)]
  exact h i hi

/-- Two writes next to each other are one. -/
theorem write_write_append (m : Mem) (off : ℕ) (as bs : List UInt8) :
    write (write m off as) (off + as.length) bs = write m off (as ++ bs) := by
  funext i
  by_cases hb : off + as.length ≤ i ∧ i < off + as.length + bs.length
  · have hab : off ≤ i ∧ i < off + (as.length + bs.length) := by omega
    simp only [write, hb, hab, and_self, if_true, List.length_append]
    rw [List.getD_append_right _ _ _ _ (by omega)]
    congr 1
    omega
  · rw [write_outside (m := write m off as) (by omega)]
    by_cases ha : off ≤ i ∧ i < off + as.length
    · have hab : off ≤ i ∧ i < off + (as.length + bs.length) := by omega
      simp only [write, ha, hab, and_self, if_true, List.length_append]
      rw [List.getD_append _ _ _ _ (by omega)]
    · rw [write_outside (by omega), write_outside (by rw [List.length_append]; omega)]

/-- A single byte. -/
theorem write_singleton (m : Mem) (off : ℕ) (b : UInt8) :
    write m off [b] = Function.update m off b := by
  funext i
  by_cases hi : i = off
  · subst hi
    simp [write]
  · rw [Function.update_of_ne hi, write_outside (by simp; omega)]

@[simp] theorem length_read (m : Mem) (off n : ℕ) : (read m off n).length = n := by
  simp [read]

theorem holds_read (m : Mem) (off n : ℕ) : Holds m off (read m off n) := by
  intro i hi
  simp [read]

/-- A region copied from another memory has that memory's bytes. -/
theorem write_read_inside {m m' : Mem} {off n i : ℕ} (hle : off ≤ i) (hlt : i < off + n) :
    write m off (read m' off n) i = m' i := by
  obtain ⟨j, rfl⟩ := Nat.exists_eq_add_of_le hle
  have hj : j < (read m' off n).length := by
    rw [length_read]
    omega
  rw [holds_write m off (read m' off n) j hj, ← holds_read m' off n j hj]

theorem read_add (m : Mem) (off k n : ℕ) :
    read m off (k + n) = read m off k ++ read m (off + k) n := by
  simp only [read, List.range_add, List.map_append, List.map_map, Function.comp_def, Nat.add_assoc]

theorem read_eq_of_holds {m : Mem} {off : ℕ} {bs : List UInt8} (h : Holds m off bs) :
    read m off bs.length = bs := by
  apply List.ext_getElem
  · simp [read]
  · intro i hi _
    have hlt : i < bs.length := by simpa [read] using hi
    simp [read, h i hlt]

theorem read_byte {m m' : Mem} {off off' n i : ℕ} (h : read m off n = read m' off' n)
    (hi : i < n) : m (off + i) = m' (off' + i) := by
  have := congrArg (fun bs => bs[i]?) h
  simpa [read, hi] using this

theorem take_read (m : Mem) (off n k : ℕ) : (read m off n).take k = read m off (min k n) := by
  rw [read, read, ← List.map_take, List.take_range]

/-- A write to a disjoint region leaves what is read. -/
theorem read_write_disjoint {m : Mem} {off off' n : ℕ} {bs : List UInt8}
    (h : off + n ≤ off' ∨ off' + bs.length ≤ off) :
    read (write m off' bs) off n = read m off n := by
  apply List.map_congr_left
  intro i hi
  have hlt := List.mem_range.mp hi
  exact write_outside (by omega)

theorem read_write_self (m : Mem) (off : ℕ) (bs : List UInt8) :
    read (write m off bs) off bs.length = bs :=
  read_eq_of_holds (holds_write m off bs)

/-- A part of what has been written. -/
theorem read_write_inside {m : Mem} {off p n : ℕ} {bs : List UInt8} (hle : off ≤ p)
    (hlt : p + n ≤ off + bs.length) : read (write m off bs) p n = (bs.drop (p - off)).take n := by
  apply List.ext_getElem
  · rw [length_read, List.length_take, List.length_drop]
    omega
  · intro i hi hi'
    rw [length_read] at hi
    have hin : off ≤ p + i ∧ p + i < off + bs.length := by omega
    have hidx : p + i - off = p - off + i := by omega
    have hlen : p - off + i < bs.length := by omega
    simp [read, write, hin, hidx, hlen]

/-- The bytes of a 16-bit word, lowest first. -/
def leU16 (v : UInt16) : List UInt8 := [(v &&& 0xFF).toUInt8, (v >>> 8).toUInt8]

/-- The bytes of a 32-bit word, lowest first. -/
def leU32 (v : UInt32) : List UInt8 :=
  [(v &&& 0xFF).toUInt8, ((v >>> 8) &&& 0xFF).toUInt8, ((v >>> 16) &&& 0xFF).toUInt8,
    ((v >>> 24) &&& 0xFF).toUInt8]

/-- The bytes of a 64-bit word, lowest first. -/
def leU64 (v : UInt64) : List UInt8 := leU32 v.toUInt32 ++ leU32 (v >>> 32).toUInt32

/-- The 16-bit word at `off`. -/
def rdU16 (m : Mem) (off : ℕ) : UInt16 := (m off).toUInt16 ||| (m (off + 1)).toUInt16 <<< 8

/-- The 32-bit word at `off`. -/
def rdU32 (m : Mem) (off : ℕ) : UInt32 :=
  (m off).toUInt32 ||| (m (off + 1)).toUInt32 <<< 8 ||| (m (off + 2)).toUInt32 <<< 16 |||
    (m (off + 3)).toUInt32 <<< 24

@[simp] theorem length_leU16 (v : UInt16) : (leU16 v).length = 2 := rfl

@[simp] theorem length_leU32 (v : UInt32) : (leU32 v).length = 4 := rfl

theorem rdU16_congr {m m' : Mem} {off off' : ℕ} (h : read m off 2 = read m' off' 2) :
    rdU16 m off = rdU16 m' off' := by
  have h0 := read_byte h (i := 0) (by decide)
  have h1 := read_byte h (i := 1) (by decide)
  rw [rdU16, rdU16, h1]
  rw [Nat.add_zero, Nat.add_zero] at h0
  rw [h0]

theorem rdU32_congr {m m' : Mem} {off off' : ℕ} (h : read m off 4 = read m' off' 4) :
    rdU32 m off = rdU32 m' off' := by
  have h0 := read_byte h (i := 0) (by decide)
  have h1 := read_byte h (i := 1) (by decide)
  have h2 := read_byte h (i := 2) (by decide)
  have h3 := read_byte h (i := 3) (by decide)
  rw [rdU32, rdU32, h1, h2, h3]
  rw [Nat.add_zero, Nat.add_zero] at h0
  rw [h0]

/-- Words that share no bit are joined by addition. -/
private theorem or_mul_pow {a k : ℕ} (h : a < 2 ^ k) (b : ℕ) : a ||| b * 2 ^ k = a + b * 2 ^ k := by
  rw [Nat.or_comm, ← Nat.shiftLeft_eq, ← Nat.shiftLeft_add_eq_or_of_lt h, Nat.add_comm]

private theorem and_255 (n : ℕ) : n &&& 255 = n % 256 := Nat.and_two_pow_sub_one_eq_mod n 8

theorem toNat_rdU16 (m : Mem) (off : ℕ) :
    (rdU16 m off).toNat = (m off).toNat + (m (off + 1)).toNat * 256 := by
  have h0 := (m off).toNat_lt
  have h1 := (m (off + 1)).toNat_lt
  simp only [rdU16, UInt16.toNat_or, UInt16.toNat_shiftLeft, UInt8.toNat_toUInt16,
    UInt16.toNat_ofNat, Nat.reduceMod, Nat.reducePow, Nat.shiftLeft_eq]
  rw [Nat.mod_eq_of_lt (by omega : (m (off + 1)).toNat * 256 < 65536)]
  exact or_mul_pow (k := 8) h0 _

theorem toNat_rdU32 (m : Mem) (off : ℕ) :
    (rdU32 m off).toNat = (m off).toNat + (m (off + 1)).toNat * 256 +
      (m (off + 2)).toNat * 65536 + (m (off + 3)).toNat * 16777216 := by
  have h0 := (m off).toNat_lt
  have h1 := (m (off + 1)).toNat_lt
  have h2 := (m (off + 2)).toNat_lt
  have h3 := (m (off + 3)).toNat_lt
  simp only [rdU32, UInt32.toNat_or, UInt32.toNat_shiftLeft, UInt8.toNat_toUInt32,
    UInt32.toNat_ofNat, Nat.reduceMod, Nat.reducePow, Nat.shiftLeft_eq]
  generalize (m off).toNat = b0 at *
  generalize (m (off + 1)).toNat = b1 at *
  generalize (m (off + 2)).toNat = b2 at *
  generalize (m (off + 3)).toNat = b3 at *
  rw [Nat.mod_eq_of_lt (by omega : b1 * 256 < 4294967296),
    Nat.mod_eq_of_lt (by omega : b2 * 65536 < 4294967296),
    Nat.mod_eq_of_lt (by omega : b3 * 16777216 < 4294967296)]
  have hor1 : b0 ||| b1 * 256 = b0 + b1 * 256 := or_mul_pow (k := 8) (by omega) b1
  have hor2 : b0 + b1 * 256 ||| b2 * 65536 = b0 + b1 * 256 + b2 * 65536 :=
    or_mul_pow (k := 16) (by omega) b2
  have hor3 : b0 + b1 * 256 + b2 * 65536 ||| b3 * 16777216 =
      b0 + b1 * 256 + b2 * 65536 + b3 * 16777216 := or_mul_pow (k := 24) (by omega) b3
  rw [hor1, hor2, hor3]

/-- The bytes of a word are its digits to the base 256. -/
theorem leU16_eq_ofNat (v : UInt16) :
    leU16 v = [UInt8.ofNat v.toNat, UInt8.ofNat (v.toNat / 256)] := by
  simp only [leU16, List.cons.injEq, and_true]
  constructor <;> apply UInt8.toNat_inj.mp <;>
    simp [and_255, Nat.shiftRight_eq_div_pow]

theorem leU32_eq_ofNat (v : UInt32) :
    leU32 v = [UInt8.ofNat v.toNat, UInt8.ofNat (v.toNat / 256), UInt8.ofNat (v.toNat / 65536),
      UInt8.ofNat (v.toNat / 16777216)] := by
  simp only [leU32, List.cons.injEq, and_true]
  refine ⟨?_, ?_, ?_, ?_⟩ <;> apply UInt8.toNat_inj.mp <;>
    simp [and_255, Nat.shiftRight_eq_div_pow]

theorem leU64_eq_ofNat (v : UInt64) :
    leU64 v = [UInt8.ofNat v.toNat, UInt8.ofNat (v.toNat / 256), UInt8.ofNat (v.toNat / 65536),
      UInt8.ofNat (v.toNat / 16777216), UInt8.ofNat (v.toNat / 4294967296),
      UInt8.ofNat (v.toNat / 1099511627776), UInt8.ofNat (v.toNat / 281474976710656),
      UInt8.ofNat (v.toNat / 72057594037927936)] := by
  have hlow : v.toUInt32.toNat = v.toNat % 4294967296 := UInt64.toNat_toUInt32 v
  have hhigh : (v >>> 32).toUInt32.toNat = v.toNat / 4294967296 % 4294967296 := by
    rw [UInt64.toNat_toUInt32, UInt64.toNat_shiftRight]
    simp [Nat.shiftRight_eq_div_pow]
  rw [leU64, leU32_eq_ofNat, leU32_eq_ofNat, hlow, hhigh]
  simp only [List.cons_append, List.nil_append, List.cons.injEq, and_true]
  refine ⟨?_, ?_, ?_, ?_, ?_, ?_, ?_, ?_⟩ <;> apply UInt8.toNat_inj.mp <;>
    rw [UInt8.toNat_ofNat', UInt8.toNat_ofNat'] <;> omega

theorem leU64_inj {v v' : UInt64} (h : leU64 v = leU64 v') : v = v' := by
  have hv := v.toNat_lt
  have hv' := v'.toNat_lt
  rw [leU64_eq_ofNat, leU64_eq_ofNat] at h
  simp only [List.cons.injEq, and_true, ← UInt8.toNat_inj, UInt8.toNat_ofNat'] at h
  apply UInt64.toNat_inj.mp
  omega

theorem leU16_rdU16 (m : Mem) (off : ℕ) : leU16 (rdU16 m off) = [m off, m (off + 1)] := by
  have h0 := (m off).toNat_lt
  have h1 := (m (off + 1)).toNat_lt
  rw [leU16_eq_ofNat, toNat_rdU16]
  simp only [List.cons.injEq, and_true]
  constructor <;> apply UInt8.toNat_inj.mp <;> rw [UInt8.toNat_ofNat'] <;> omega

theorem leU32_rdU32 (m : Mem) (off : ℕ) :
    leU32 (rdU32 m off) = [m off, m (off + 1), m (off + 2), m (off + 3)] := by
  have h0 := (m off).toNat_lt
  have h1 := (m (off + 1)).toNat_lt
  have h2 := (m (off + 2)).toNat_lt
  have h3 := (m (off + 3)).toNat_lt
  rw [leU32_eq_ofNat, toNat_rdU32]
  simp only [List.cons.injEq, and_true]
  refine ⟨?_, ?_, ?_, ?_⟩ <;> apply UInt8.toNat_inj.mp <;> rw [UInt8.toNat_ofNat'] <;> omega

theorem rdU16_of_holds {m : Mem} {off : ℕ} {v : UInt16} (h : Holds m off (leU16 v)) :
    rdU16 m off = v := by
  rw [leU16_eq_ofNat] at h
  have h0 : m off = _ := h 0 (by simp)
  have h1 : m (off + 1) = _ := h 1 (by simp)
  have hv := v.toNat_lt
  apply UInt16.toNat_inj.mp
  rw [toNat_rdU16, h0, h1]
  simp only [List.getElem_cons_zero, List.getElem_cons_succ, UInt8.toNat_ofNat']
  omega

theorem rdU32_of_holds {m : Mem} {off : ℕ} {v : UInt32} (h : Holds m off (leU32 v)) :
    rdU32 m off = v := by
  rw [leU32_eq_ofNat] at h
  have h0 : m off = _ := h 0 (by simp)
  have h1 : m (off + 1) = _ := h 1 (by simp)
  have h2 : m (off + 2) = _ := h 2 (by simp)
  have h3 : m (off + 3) = _ := h 3 (by simp)
  have hv := v.toNat_lt
  apply UInt32.toNat_inj.mp
  rw [toNat_rdU32, h0, h1, h2, h3]
  simp only [List.getElem_cons_zero, List.getElem_cons_succ, UInt8.toNat_ofNat']
  omega

end Bytes
