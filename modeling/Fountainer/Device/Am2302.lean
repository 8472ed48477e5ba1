import Fountainer.Lib.Sampling
import Fountainer.Lib.Bytes
import Mathlib.Data.List.Range
import Mathlib.Data.Fin.Basic
import Mathlib.Logic.Function.Basic

/-!
# The climate sensor

`onewire_am2302.c`: the sensor answers a start pulse with forty bits, each a high level that is
short for 0 and long for 1, and the driver samples them by polling the pin. Times are in
nanoseconds.
-/

namespace Fountainer.Device

open Sampling

/-- What is kept of the last read, for the diagnosis of the wiring. -/
structure Am2302Diag where
  lastFailPhase : UInt8
  lastIdleLevel : UInt8
  lastLowExtraUs : UInt32
  deriving DecidableEq, Repr

/-- `data[i / 8] |= 1 << (7 - (i % 8))`. -/
def setBit (data : Fin 5 → UInt8) (i : ℕ) : Fin 5 → UInt8 := fun k =>
  if k.val = i / 8 then data k ||| (1 <<< (7 - i % 8).toUInt8) else data k

section Driver

variable (line : ℕ → Bool) (late : ℕ → ℕ)

/-- One round of the bit loop of `dht_read_raw`; `none` is a timeout. -/
def readBit (c : Clock) : Option Bool × Clock :=
  match waitWhile line late false 1000 200 c with
  | (false, c) => (none, c)
  | (true, c) =>
    let c := delay late 40000 c
    if line c.now then
      match waitWhile line late true 1000 200 c with
      | (false, c) => (none, c)
      | (true, c) => (some true, c)
    else (some false, c)

/-- The bit loop of `dht_read_raw`, from `i` on for `n` rounds. -/
def readBits : ℕ → ℕ → (Fin 5 → UInt8) → Clock → Option (Fin 5 → UInt8) × Clock
  | 0, _, data, c => (some data, c)
  | n + 1, i, data, c =>
    match readBit line late c with
    | (none, c) => (none, c)
    | (some bit, c) => readBits n (i + 1) (if bit then setBit data i else data) c

/-- `dht_read_raw` between `portENTER_CRITICAL` and `portEXIT_CRITICAL`: the bytes, or the phase
    that timed out. -/
def dhtCritical (c : Clock) : Except UInt8 (Fin 5 → UInt8) × Clock :=
  match waitWhile line late true 1000 200 c with
  | (false, c) => (.error 1, c)
  | (true, c) =>
    match waitWhile line late false 1000 300 c with
    | (false, c) => (.error 2, c)
    | (true, c) =>
      match waitWhile line late true 1000 300 c with
      | (false, c) => (.error 3, c)
      | (true, c) =>
        match readBits line late 40 0 (fun _ => 0) c with
        | (none, c) => (.error 4, c)
        | (some data, c) => (.ok data, c)

/-- `dht_read_raw`. -/
def dhtReadRaw (diag : Am2302Diag) (c : Clock) : Option (Fin 5 → UInt8) × Am2302Diag × Clock :=
  let diag := { diag with lastIdleLevel := (line c.now).toUInt8 }
  match dhtCritical line late (delay late 2000000 c) with
  | (.ok data, c) => (some data, { diag with lastFailPhase := 0 }, c)
  | (.error phase, c) =>
    if phase = 2 then
      -- The post-mortem: for how long the line stays low.
      let (n, c) := countWhile line late false 10000 2000 c
      (none, { diag with lastFailPhase := 2, lastLowExtraUs := 10 * n.toUInt32 }, c)
    else (none, { diag with lastFailPhase := phase }, c)

/-- What `am2302_climate_read` makes of the bytes: temperature and humidity. -/
def climateOf (data : Fin 5 → UInt8) : Option (Float32 × Float32) :=
  if data 4 ≠ data 0 + data 1 + data 2 + data 3 then none
  else
    let humidity := Float32.ofNat ((data 0).toNat <<< 8 ||| (data 1).toNat) * 0.1
    let temperature := Float32.ofNat ((data 2 &&& 0x7F).toNat <<< 8 ||| (data 3).toNat) * 0.1
    some (if data 2 &&& 0x80 ≠ 0 then -temperature else temperature, humidity)

/-- `am2302_climate_read`. -/
def am2302ClimateRead (diag : Am2302Diag) (c : Clock) :
    Option (Float32 × Float32) × Am2302Diag × Clock :=
  match dhtReadRaw line late diag c with
  | (none, diag, c) => (none, diag, c)
  | (some data, diag, c) => (climateOf data, diag, c)

end Driver

-- ════════════════════════════════════════════════════════════════════════
-- The sensor
-- ════════════════════════════════════════════════════════════════════════

/-- Bit `i` of the five bytes, the most significant one of each byte first. -/
def frameBit (data : Fin 5 → UInt8) (i : ℕ) : Bool :=
  (data (Fin.ofNat 5 (i / 8))).toBitVec.getLsbD (7 - i % 8)

/-- The bytes of a sensor that measures, in tenths. -/
def sensorFrame (negative : Bool) (temperature : BitVec 15) (humidity : UInt16) : Fin 5 → UInt8 :=
  let d0 := (humidity >>> 8).toUInt8
  let d1 := humidity.toUInt8
  let d2 := (if negative then 0x80 else 0) ||| (temperature.toNat / 256).toUInt8
  let d3 := temperature.toNat.toUInt8
  fun k =>
    match k with
    | 0 => d0
    | 1 => d1
    | 2 => d2
    | 3 => d3
    | 4 => d0 + d1 + d2 + d3

/-- The durations of a bit, for a driver whose delays are longer by `jitter` at most: the low level
    is not shorter than `gap`; the high level of a 0 is seen, and over when the driver samples it 40
    us behind the edge; that of a 1 is not over then. -/
structure BitTimes (jitter gap : ℕ) (bit : Bool) (low high : ℕ) : Prop where
  gap_le : gap ≤ low
  low_le : low ≤ 200000
  seen : 1000 + jitter ≤ high
  zero : bit = false → high ≤ 40000 ∧ 41000 + 2 * jitter ≤ high + gap
  one : bit = true → 41000 + 2 * jitter ≤ high ∧ high ≤ 240000

/-- From time `t` on the sensor sends the bits, and holds the line low for `gap` at the end. -/
inductive Sends (line : ℕ → Bool) (jitter gap : ℕ) : List Bool → ℕ → Prop
  | done {t : ℕ} (hlow : Holds line false t (t + gap)) : Sends line jitter gap [] t
  | bit {bit : Bool} {bits : List Bool} {t low high : ℕ} (htimes : BitTimes jitter gap bit low high)
      (hlow : Holds line false t (t + low)) (hhigh : Holds line true (t + low) (t + low + high))
      (hrest : Sends line jitter gap bits (t + low + high)) : Sends line jitter gap (bit :: bits) t

/-- The sensor answers the start pulse that ends at time `t`. -/
structure Answers (line : ℕ → Bool) (jitter gap : ℕ) (bits : List Bool) (t : ℕ) : Prop where
  gap_ge : 1000 + jitter ≤ gap
  preamble : ∃ wait low high,
    Holds line true t (t + wait) ∧ wait ≤ 200000 ∧
    Holds line false (t + wait) (t + wait + low) ∧ 1000 + jitter ≤ low ∧ low ≤ 300000 ∧
    Holds line true (t + wait + low) (t + wait + low + high) ∧ 1000 + jitter ≤ high ∧
    high ≤ 300000 ∧ Sends line jitter gap bits (t + wait + low + high)

-- ════════════════════════════════════════════════════════════════════════
-- A bit
-- ════════════════════════════════════════════════════════════════════════

variable {line : ℕ → Bool} {late : ℕ → ℕ} {jitter gap : ℕ} {c : Clock} {diag : Am2302Diag}

/-- The driver is in the low level that starts at time `t`, before it can be over. -/
def Entered (gap t : ℕ) (c : Clock) : Prop := t ≤ c.now ∧ c.now ≤ t + gap

theorem sends_low {bits : List Bool} {t : ℕ} (h : Sends line jitter gap bits t) :
    Holds line false t (t + gap) := by
  cases h with
  | done hlow => exact hlow
  | bit htimes hlow => exact hlow.mono le_rfl (Nat.add_le_add_left htimes.gap_le _)

/-- **A bit is read**: within its durations the driver takes the bit that is sent, and is back in a
    low level for the next one. -/
theorem readBit_of_sends (hlate : ∀ i, late i ≤ jitter) (hgap : 1000 + jitter ≤ gap) {b : Bool}
    {bits : List Bool} {t : ℕ} (hsends : Sends line jitter gap (b :: bits) t)
    (hin : Entered gap t c) :
    ∃ c' t', readBit line late c = (some b, c') ∧ Sends line jitter gap bits t' ∧
      Entered gap t' c' := by
  cases hsends with
  | @bit _ _ _ low high htimes hlow hhigh hrest =>
    obtain ⟨hmin, hmax⟩ := hin
    have hgapLow := htimes.gap_le
    have hmaxLow := htimes.low_le
    have hseen := htimes.seen
    obtain ⟨c₁, hrun₁, hmin₁, hmax₁⟩ := waitWhile_of_holds (d := 1000) (n := 200)
      hlate (by decide) hlow hhigh
      (by omega) hmin (by omega) (by omega)
    have hmin₂ : c₁.now + 40000 ≤ (delay late 40000 c₁).now := le_delay_now 40000 c₁
    have hmax₂ := delay_now_le hlate 40000 c₁
    cases b with
    | false =>
      obtain ⟨hshort, hreach⟩ := htimes.zero rfl
      have hread := sends_low hrest (delay late 40000 c₁).now (by omega) (by omega)
      refine ⟨delay late 40000 c₁, _, ?_, hrest, by omega, by omega⟩
      simp [readBit, hrun₁, hread]
    | true =>
      obtain ⟨hreach, hshort⟩ := htimes.one rfl
      have hread := hhigh (delay late 40000 c₁).now (by omega) (by omega)
      obtain ⟨c₃, hrun₃, hmin₃, hmax₃⟩ := waitWhile_of_holds (d := 1000) (n := 200)
        (c := delay late 40000 c₁) hlate (by decide) hhigh (sends_low hrest)
        (by omega) (by omega) (by omega) (by omega)
      refine ⟨c₃, _, ?_, hrest, hmin₃, by omega⟩
      simp [readBit, hrun₁, hread, hrun₃]

-- ════════════════════════════════════════════════════════════════════════
-- The bytes
-- ════════════════════════════════════════════════════════════════════════

/-- The forty bits of the bytes. -/
def frameBits (data : Fin 5 → UInt8) : List Bool := (List.range' 0 40).map (frameBit data)

/-- The first `i` bits of the bytes have been set in `got`. -/
def Taken (data got : Fin 5 → UInt8) (i : ℕ) : Prop :=
  ∀ k : Fin 5, ∀ j < 8, (got k).toBitVec.getLsbD j =
    (decide (8 * k.val + (7 - j) < i) && (data k).toBitVec.getLsbD j)

theorem taken_zero (data : Fin 5 → UInt8) : Taken data (fun _ => 0) 0 := by
  intro k j hj
  simp

theorem getLsbD_one_shiftLeft : ∀ m < 8, ∀ j < 8,
    (1 <<< m.toUInt8 : UInt8).toBitVec.getLsbD j = decide (j = m) := by
  decide

theorem getLsbD_setBit (got : Fin 5 → UInt8) (i : ℕ) (k : Fin 5) {j : ℕ} (hj : j < 8) :
    (setBit got i k).toBitVec.getLsbD j =
      ((got k).toBitVec.getLsbD j || decide (8 * k.val + (7 - j) = i)) := by
  have hone := getLsbD_one_shiftLeft (7 - i % 8) (by omega) j hj
  unfold setBit
  by_cases hk : k.val = i / 8
  · rw [if_pos hk, UInt8.toBitVec_or, BitVec.getLsbD_or, hone]
    congr 1
    exact decide_eq_decide.mpr (by omega)
  · rw [if_neg hk, decide_eq_false (by omega), Bool.or_false]

theorem Taken.setBit {data got : Fin 5 → UInt8} {i : ℕ} (h : Taken data got i) :
    Taken data (if frameBit data i then setBit got i else got) (i + 1) := by
  intro k j hj
  have hk := h k j hj
  by_cases hat : 8 * k.val + (7 - j) = i
  · -- The position that is read now.
    have hbit : frameBit data i = (data k).toBitVec.getLsbD j := by
      have hfin : Fin.ofNat 5 (i / 8) = k := Fin.ext (by
        have := k.isLt
        rw [Fin.val_ofNat]
        omega)
      rw [frameBit, hfin, show 7 - i % 8 = j by omega]
    rw [decide_eq_true (by omega), Bool.true_and, ← hbit]
    cases hset : frameBit data i with
    | true => rw [if_pos rfl, getLsbD_setBit got i k hj, decide_eq_true hat, Bool.or_true]
    | false => rw [if_neg Bool.false_ne_true, hk, ← hbit, hset, Bool.and_false]
  · have hsame : decide (8 * k.val + (7 - j) < i + 1) = decide (8 * k.val + (7 - j) < i) :=
      decide_eq_decide.mpr (by omega)
    rw [hsame, ← hk]
    cases frameBit data i with
    | true => rw [if_pos rfl, getLsbD_setBit got i k hj, decide_eq_false hat, Bool.or_false]
    | false => rfl

theorem Taken.eq {data got : Fin 5 → UInt8} (h : Taken data got 40) : got = data := by
  funext k
  refine UInt8.toBitVec_inj.mp (BitVec.eq_of_getLsbD_eq fun j hj => ?_)
  have hk := k.isLt
  rw [h k j hj, decide_eq_true (by omega), Bool.true_and]

/-- The bit loop takes the bits that are sent. -/
theorem readBits_of_sends (hlate : ∀ i, late i ≤ jitter) (hgap : 1000 + jitter ≤ gap)
    {data : Fin 5 → UInt8} (n i : ℕ) (hn : i + n = 40) {got : Fin 5 → UInt8}
    (htaken : Taken data got i) {t : ℕ}
    (hsends : Sends line jitter gap ((List.range' i n).map (frameBit data)) t)
    (hin : Entered gap t c) : ∃ c', readBits line late n i got c = (some data, c') := by
  induction n generalizing i got t c with
  | zero =>
    obtain rfl : i = 40 := hn
    exact ⟨c, by rw [readBits, htaken.eq]⟩
  | succ n ih =>
    rw [List.range'_succ, List.map_cons] at hsends
    obtain ⟨c', t', hrun, hrest, hin'⟩ := readBit_of_sends hlate hgap hsends hin
    obtain ⟨c'', hrun'⟩ := ih (i + 1) (by omega) htaken.setBit hrest hin'
    exact ⟨c'', by rw [readBits, hrun]; exact hrun'⟩

variable (diag) in
/-- **The bytes are read**: an answer within its times gives the bytes that were sent. -/
theorem dhtReadRaw_of_answers (hlate : ∀ i, late i ≤ jitter) {data : Fin 5 → UInt8}
    (hans : Answers line jitter gap (frameBits data) (delay late 2000000 c).now) :
    ∃ c', dhtReadRaw line late diag c =
      (some data, { diag with lastIdleLevel := (line c.now).toUInt8, lastFailPhase := 0 }, c') := by
  have hgap := hans.gap_ge
  obtain ⟨wait, low, high, hwait, hwaitLe, hlow, hlowGe, hlowLe, hhigh, hhighGe, hhighLe, hsends⟩ :=
    hans.preamble
  obtain ⟨c₁, hrun₁, hmin₁, hmax₁⟩ := waitWhile_of_holds (d := 1000) (n := 200)
    (c := delay late 2000000 c) hlate (by decide) hwait hlow (by omega) le_rfl (by omega) (by omega)
  obtain ⟨c₂, hrun₂, hmin₂, hmax₂⟩ := waitWhile_of_holds (d := 1000) (n := 300) (c := c₁) hlate
    (by decide) hlow hhigh (by omega) hmin₁ (by omega) (by omega)
  obtain ⟨c₃, hrun₃, hmin₃, hmax₃⟩ := waitWhile_of_holds (d := 1000) (n := 300) (c := c₂) hlate
    (by decide) hhigh (sends_low hsends) (by omega) hmin₂ (by omega) (by omega)
  obtain ⟨c₄, hrun₄⟩ := readBits_of_sends hlate hgap 40 0 rfl (taken_zero data) hsends
    (c := c₃) ⟨hmin₃, by omega⟩
  exact ⟨c₄, by simp [dhtReadRaw, dhtCritical, hrun₁, hrun₂, hrun₃, hrun₄]⟩

-- ════════════════════════════════════════════════════════════════════════
-- The time with the interrupts off
-- ════════════════════════════════════════════════════════════════════════

variable (line) in
theorem readBit_now_le (hlate : ∀ i, late i ≤ jitter) (c : Clock) :
    (readBit line late c).2.now ≤ c.now + 440000 + 401 * jitter := by
  have hlow := waitWhile_now_le line hlate false 1000 200 c
  rw [readBit]
  cases hrun : waitWhile line late false 1000 200 c with
  | mk ok c₁ =>
    rw [hrun] at hlow
    have hdelay := delay_now_le hlate 40000 c₁
    have hhigh := waitWhile_now_le line hlate true 1000 200 (delay late 40000 c₁)
    cases ok with
    | false =>
      dsimp only at hlow ⊢
      omega
    | true =>
      dsimp only at hlow ⊢
      by_cases hread : line (delay late 40000 c₁).now = true
      · rw [if_pos hread]
        cases hrun' : waitWhile line late true 1000 200 (delay late 40000 c₁) with
        | mk ok c₂ =>
          rw [hrun'] at hhigh
          cases ok <;> (dsimp only at hhigh ⊢; omega)
      · rw [if_neg hread]
        dsimp only
        omega

variable (line) in
theorem readBits_now_le (hlate : ∀ i, late i ≤ jitter) (n i : ℕ) (got : Fin 5 → UInt8) (c : Clock) :
    (readBits line late n i got c).2.now ≤ c.now + n * (440000 + 401 * jitter) := by
  induction n generalizing i got c with
  | zero => exact Nat.le_add_right _ _
  | succ n ih =>
    have hbit := readBit_now_le line hlate c
    rw [readBits, Nat.add_mul, Nat.one_mul]
    cases hrun : readBit line late c with
    | mk bit c₁ =>
      rw [hrun] at hbit
      cases bit with
      | none =>
        dsimp only at hbit ⊢
        omega
      | some b =>
        have hrest := ih (i + 1) (if b then setBit got i else got) c₁
        dsimp only at hbit ⊢
        omega

/-- **The interrupts are not off for long**: whatever the line does, the critical section ends
    within 18.4 ms and what its 16840 delays are longer by. -/
theorem critical_section_short (hlate : ∀ i, late i ≤ jitter) (c : Clock) :
    (dhtCritical line late c).2.now ≤ c.now + 18400000 + 16840 * jitter := by
  have h₁ := waitWhile_now_le line hlate true 1000 200 c
  rw [dhtCritical]
  cases hrun₁ : waitWhile line late true 1000 200 c with
  | mk ok₁ c₁ =>
    have h₂ := waitWhile_now_le line hlate false 1000 300 c₁
    rw [hrun₁] at h₁
    cases ok₁ with
    | false =>
      dsimp only at h₁ ⊢
      omega
    | true =>
      dsimp only at h₁ ⊢
      cases hrun₂ : waitWhile line late false 1000 300 c₁ with
      | mk ok₂ c₂ =>
        have h₃ := waitWhile_now_le line hlate true 1000 300 c₂
        rw [hrun₂] at h₂
        cases ok₂ with
        | false =>
          dsimp only at h₂ ⊢
          omega
        | true =>
          dsimp only at h₂ ⊢
          cases hrun₃ : waitWhile line late true 1000 300 c₂ with
          | mk ok₃ c₃ =>
            have h₄ := readBits_now_le line hlate 40 0 (fun _ => 0) c₃
            rw [hrun₃] at h₃
            cases ok₃ with
            | false =>
              dsimp only at h₃ ⊢
              omega
            | true =>
              dsimp only at h₃ ⊢
              cases hrun₄ : readBits line late 40 0 (fun _ => 0) c₃ with
              | mk data c₄ =>
                rw [hrun₄] at h₄
                cases data <;> (dsimp only at h₄ ⊢; omega)

theorem critical_section_short_stuck :
    (dhtCritical (fun _ => true) (fun _ => 300) ⟨0, 0⟩).2.now ≤ 0 + 18400000 + 16840 * 300 :=
  critical_section_short (fun _ => le_rfl) ⟨0, 0⟩

-- ════════════════════════════════════════════════════════════════════════
-- The values
-- ════════════════════════════════════════════════════════════════════════

/-- The times of the sensor, as the comments of the driver have them. -/
def nominalTimes (bits : List Bool) : List ℕ :=
  30000 :: 80000 :: 80000 ::
    (bits.flatMap (fun bit => [50000, if bit then 70000 else 28000]) ++ [50000])

theorem sends_of_follows (hjitter : jitter ≤ 14500) (bits : List Bool) {t : ℕ}
    (h : Follows line t (bits.flatMap (fun bit => [50000, if bit then 70000 else 28000]) ++ [50000])
      false) : Sends line jitter 50000 bits t := by
  induction bits generalizing t with
  | nil => exact .done h.holds
  | cons bit bits ih =>
    have hrest := ih h.tail.tail
    cases bit with
    | false =>
      have htimes : BitTimes jitter 50000 false 50000 28000 :=
        ⟨le_rfl, by decide, by omega, fun _ => ⟨by decide, by omega⟩, nofun⟩
      exact .bit htimes h.holds h.tail.holds hrest
    | true =>
      have htimes : BitTimes jitter 50000 true 50000 70000 :=
        ⟨le_rfl, by decide, by omega, nofun, fun _ => ⟨by omega, by decide⟩⟩
      exact .bit htimes h.holds h.tail.holds hrest

/-- With these times the delays may be longer by 14.5 us each. -/
theorem answers_of_nominal (hjitter : jitter ≤ 14500) (bits : List Bool) {t : ℕ}
    (h : Follows line t (nominalTimes bits) true) : Answers line jitter 50000 bits t where
  gap_ge := by omega
  preamble := ⟨30000, 80000, 80000, h.holds, by decide, h.tail.holds, by omega, by decide,
    h.tail.tail.holds, by omega, by decide, sends_of_follows hjitter bits h.tail.tail.tail⟩

/-- A line that is high until the start pulse ends at 2 ms, and has these times from there on. -/
def nominalLine (bits : List Bool) (t : ℕ) : Bool :=
  if t < 2000000 then true else levelAt (nominalTimes bits) true (t - 2000000)

theorem nominalLine_answers (bits : List Bool) :
    Answers (nominalLine bits) 14500 50000 bits 2000000 :=
  answers_of_nominal le_rfl bits fun _ ht => if_neg (not_lt.mpr ht)

theorem two_bytes {n : ℕ} (hn : n < 2 ^ 16) :
    (n / 256).toUInt8.toNat <<< 8 ||| n.toUInt8.toNat = n := by
  have hhigh : (n / 256).toUInt8.toNat = n / 256 := Nat.mod_eq_of_lt (by omega)
  have hlow : n.toUInt8.toNat = n % 256 := rfl
  rw [hhigh, hlow, ← Nat.shiftLeft_add_eq_or_of_lt (by omega), Nat.shiftLeft_eq]
  omega

/-- The sign is beside the upper bits of the temperature. -/
theorem sign_byte : ∀ negative : Bool, ∀ m < 128,
    ((if negative then 0x80 else 0) ||| m.toUInt8) &&& 0x7F = m.toUInt8 ∧
      decide (((if negative then 0x80 else 0) ||| m.toUInt8) &&& 0x80 ≠ 0) = negative := by
  decide

/-- The sensor's own bytes give its values. -/
theorem climateOf_sensorFrame (negative : Bool) (temperature : BitVec 15) (humidity : UInt16) :
    climateOf (sensorFrame negative temperature humidity) =
      some (if negative then -(Float32.ofNat temperature.toNat * 0.1)
          else Float32.ofNat temperature.toNat * 0.1,
        Float32.ofNat humidity.toNat * 0.1) := by
  have htemp := temperature.isLt
  obtain ⟨hmagnitude, hsign⟩ := sign_byte negative (temperature.toNat / 256) (by omega)
  have hhigh : (humidity >>> 8).toUInt8 = (humidity.toNat / 256).toUInt8 :=
    UInt8.toNat_inj.mp (by simp [Nat.shiftRight_eq_div_pow])
  have hhum : (humidity >>> 8).toUInt8.toNat <<< 8 ||| humidity.toUInt8.toNat = humidity.toNat := by
    rw [hhigh]
    exact two_bytes humidity.toNat_lt
  have htenths := two_bytes (show temperature.toNat < 2 ^ 16 by omega)
  unfold climateOf
  simp only [sensorFrame, ne_eq, not_true_eq_false, if_false, hhum, hmagnitude, htenths]
  cases negative with
  | false => rw [if_neg (of_decide_eq_false hsign), if_neg Bool.false_ne_true]
  | true => rw [if_pos (of_decide_eq_true hsign), if_pos rfl]

/-- The checksum does not miss a change of one byte. -/
theorem climateOf_changed {data data' : Fin 5 → UInt8} {i : Fin 5} (hdata : climateOf data ≠ none)
    (hi : data' i ≠ data i) (hrest : ∀ k, k ≠ i → data' k = data k) : climateOf data' = none := by
  have hsum : data 4 = data 0 + data 1 + data 2 + data 3 := by
    by_contra hne
    exact hdata (by rw [climateOf, if_pos hne])
  have hsum' : data' 4 ≠ data' 0 + data' 1 + data' 2 + data' 3 := by
    match i with
    | 0 =>
      rw [hrest 1 (by decide), hrest 2 (by decide), hrest 3 (by decide), hrest 4 (by decide)]
      grind
    | 1 =>
      rw [hrest 0 (by decide), hrest 2 (by decide), hrest 3 (by decide), hrest 4 (by decide)]
      grind
    | 2 =>
      rw [hrest 0 (by decide), hrest 1 (by decide), hrest 3 (by decide), hrest 4 (by decide)]
      grind
    | 3 =>
      rw [hrest 0 (by decide), hrest 1 (by decide), hrest 2 (by decide), hrest 4 (by decide)]
      grind
    | 4 =>
      rw [hrest 0 (by decide), hrest 1 (by decide), hrest 2 (by decide), hrest 3 (by decide)]
      grind
  rw [climateOf, if_pos hsum']

/-- **The climate sensor is understood**: whatever it measures, a temperature of either sign and a
    humidity in tenths, an answer within its times gives these values, for every length of the
    delays up to the bound that goes into the times. -/
theorem climate_read_roundtrip (hlate : ∀ i, late i ≤ jitter) (negative : Bool)
    (temperature : BitVec 15) (humidity : UInt16)
    (hans : Answers line jitter gap (frameBits (sensorFrame negative temperature humidity))
      (delay late 2000000 c).now) :
    ∃ c', am2302ClimateRead line late diag c =
      (some (if negative then -(Float32.ofNat temperature.toNat * 0.1)
          else Float32.ofNat temperature.toNat * 0.1,
        Float32.ofNat humidity.toNat * 0.1),
        { diag with lastIdleLevel := (line c.now).toUInt8, lastFailPhase := 0 }, c') := by
  obtain ⟨c', hrun⟩ := dhtReadRaw_of_answers diag hlate hans
  exact ⟨c', by rw [am2302ClimateRead, hrun, ← climateOf_sensorFrame]⟩

/-- A sensor at -5.2 degrees, and delays that are longer by up to 14.5 us. -/
theorem climate_read_roundtrip_nominal :
    ∃ c', am2302ClimateRead (nominalLine (frameBits (sensorFrame true 52 655)))
        (fun i => i * 7 % 14501) ⟨0, 0, 0⟩ ⟨0, 0⟩ =
      (some (-(Float32.ofNat 52 * 0.1), Float32.ofNat 655 * 0.1), ⟨0, 1, 0⟩, c') :=
  climate_read_roundtrip (fun i => by omega) true 52 655 (nominalLine_answers _)

/-- **A damaged answer is refused**: when one byte of an answer with the right checksum arrives as
    another one, in whichever of its bits, nothing is read. -/
theorem damaged_answer_refused (hlate : ∀ i, late i ≤ jitter)
    {data data' : Fin 5 → UInt8} {i : Fin 5}
    (hdata : climateOf data ≠ none) (hi : data' i ≠ data i) (hrest : ∀ k, k ≠ i → data' k = data k)
    (hans : Answers line jitter gap (frameBits data') (delay late 2000000 c).now) :
    (am2302ClimateRead line late diag c).1 = none := by
  obtain ⟨c', hrun⟩ := dhtReadRaw_of_answers diag hlate hans
  rw [am2302ClimateRead, hrun]
  exact climateOf_changed hdata hi hrest

/-- The sign of the temperature is lost on the way. -/
theorem damaged_answer_refused_sign :
    (am2302ClimateRead (nominalLine (frameBits (Function.update (sensorFrame true 52 655) 2 0)))
      (fun i => i * 7 % 14501) ⟨0, 0, 0⟩ ⟨0, 0⟩).1 = none :=
  damaged_answer_refused (fun i => by omega)
    (show climateOf (sensorFrame true 52 655) ≠ none by
      rw [climateOf_sensorFrame]; exact Option.some_ne_none _)
    (show Function.update (sensorFrame true 52 655) 2 0 2 ≠ sensorFrame true 52 655 2 by
      rw [Function.update_self]; decide)
    (fun _ hk => Function.update_of_ne hk _ _)
    (nominalLine_answers _)

end Fountainer.Device
