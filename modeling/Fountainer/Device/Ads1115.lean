import Fountainer.Lib.TrimmedMean

/-!
# The converter of the pressure sensor

The burst of `hal.c`: four conversions over I2C, each of which may fail at any transfer, and the
value that is taken from those that succeed.
-/

namespace Fountainer.Device

open TrimmedMean

/-- `ADS1115_BURST_N`. -/
abbrev ads1115BurstN : ℕ := 4

/-- `ADS1115_POLL_MAX`. -/
abbrev ads1115PollMax : ℕ := 14

section Burst

-- The two bytes that the transfers receive, in their order; `none` is a failed one.
variable (i2c : ℕ → Option (UInt8 × UInt8))

/-- The loop of `ads1115_convert_once`, and the number of the next transfer. -/
def pollReady : ℕ → ℕ → Bool × ℕ
  | 0, n => (false, n)
  | k + 1, n =>
    match i2c n with
    | none => (false, n + 1)
    | some buf => if buf.1 &&& 0x80 ≠ 0 then (true, n + 1) else pollReady k (n + 1)

/-- `ads1115_convert_once`. -/
def ads1115ConvertOnce (n : ℕ) : Option Int16 × ℕ :=
  match i2c n with
  | none => (none, n + 1)
  | some _ =>
    match pollReady i2c ads1115PollMax (n + 1) with
    | (false, n) => (none, n)
    | (true, n) =>
      match i2c n with
      | none => (none, n + 1)
      | some buf => (some (buf.1.toUInt16 <<< 8 ||| buf.2.toUInt16).toInt16, n + 1)

/-- The loop of `ads1115_read_raw`: the good samples of `k` conversions. -/
def ads1115Samples : ℕ → ℕ → List Int16
  | 0, _ => []
  | k + 1, n =>
    (ads1115ConvertOnce i2c n).1.toList ++ ads1115Samples k (ads1115ConvertOnce i2c n).2

/-- What `ads1115_read_raw` takes from the good samples: the value, and the spread in steps of the
    converter. -/
def ads1115Value (samples : List Int16) : Option (Int16 × ℤ) :=
  match samples.map Int16.toInt with
  | [] => none
  | x :: xs =>
    if xs = [] then none
    else
      let min := least x (x :: xs)
      let max := greatest x (x :: xs)
      let sum := (x :: xs).sum
      let n : ℤ := (x :: xs).length
      let mean := if n = ads1115BurstN then (sum - min - max).tdiv (n - 2) else sum.tdiv n
      some (Int16.ofInt mean, max - min)

/-- `ads1115_read_raw`. -/
def ads1115ReadRaw (n : ℕ) : Option (Int16 × ℤ) :=
  ads1115Value (ads1115Samples i2c ads1115BurstN n)

end Burst

-- ════════════════════════════════════════════════════════════════════════
-- The value of a burst
-- ════════════════════════════════════════════════════════════════════════

variable {samples : List Int16}

/-- The first sample is compared with itself as well. -/
theorem extremes_self (x : ℤ) (xs : List ℤ) :
    IsLeast {y | y ∈ x :: xs} (least x (x :: xs)) ∧
      IsGreatest {y | y ∈ x :: xs} (greatest x (x :: xs)) := by
  have hmin : least x (x :: xs) = least x xs := by simp [least]
  have hmax : greatest x (x :: xs) = greatest x xs := by simp [greatest]
  rw [hmin, hmax]
  exact ⟨least_isLeast x xs, greatest_isGreatest x xs⟩

/-- The samples that lie outside of the interval. -/
def wild (lo hi : Int16) (samples : List Int16) : ℕ :=
  outside lo.toInt hi.toInt (samples.map Int16.toInt)

/-- What is taken from two good samples or more. -/
theorem ads1115Value_eq (hlen : 2 ≤ samples.length) :
    ∃ a ∈ samples, ∃ b ∈ samples, ∃ value,
      ads1115Value samples = some (value, b.toInt - a.toInt) ∧
      (∀ x ∈ samples, a.toInt ≤ x.toInt ∧ x.toInt ≤ b.toInt) ∧
      ∀ lo hi, wild lo hi samples = 0 ∨ samples.length = 4 ∧ wild lo hi samples ≤ 1 →
        lo.toInt ≤ value.toInt ∧ value.toInt ≤ hi.toInt := by
  have hlength : (samples.map Int16.toInt).length = samples.length := List.length_map _
  have hmem (z : ℤ) : z ∈ samples.map Int16.toInt ↔ ∃ y ∈ samples, y.toInt = z := List.mem_map
  unfold ads1115Value wild
  cases hzs : samples.map Int16.toInt with
  | nil =>
    rw [hzs, List.length_nil] at hlength
    omega
  | cons x xs =>
    rw [hzs] at hlength hmem
    obtain ⟨hleast, hgreatest⟩ := extremes_self x xs
    obtain ⟨a, ha, hax⟩ := (hmem _).mp hleast.1
    obtain ⟨b, hb, hbx⟩ := (hmem _).mp hgreatest.1
    have hab (y : Int16) (hy : y ∈ samples) : a.toInt ≤ y.toInt ∧ y.toInt ≤ b.toInt := by
      have hy' := (hmem y.toInt).mpr ⟨y, hy, rfl⟩
      rw [hax, hbx]
      exact ⟨hleast.2 hy', hgreatest.2 hy'⟩
    have hxs : xs ≠ [] := by
      rintro rfl
      rw [List.length_singleton] at hlength
      omega
    dsimp only
    rw [if_neg hxs, ← hax, ← hbx]
    generalize hmean : (if ((x :: xs).length : ℤ) = ads1115BurstN then
      ((x :: xs).sum - a.toInt - b.toInt).tdiv ((x :: xs).length - 2)
      else (x :: xs).sum.tdiv (x :: xs).length) = mean
    have hbounds (lo hi : ℤ) (h : outside lo hi (x :: xs) = 0 ∨
        samples.length = 4 ∧ outside lo hi (x :: xs) ≤ 1) : lo ≤ mean ∧ mean ≤ hi := by
      rw [← hmean, hax, hbx]
      by_cases hfour : samples.length = 4
      · rw [if_pos (by rw [hlength, hfour])]
        exact trimmed_bounds hleast hgreatest (by omega) (by omega)
      · have hall := outside_eq_zero.mp (h.resolve_right fun hr => hfour hr.1)
        obtain ⟨hlow, hhigh⟩ := plain_bounds hleast hgreatest
        rw [if_neg (by rw [hlength]; exact fun hn => hfour (Int.ofNat_inj.mp hn))]
        exact ⟨(hall _ hleast.1).1.trans hlow, hhigh.trans (hall _ hgreatest.1).2⟩
    -- The mean lies between two samples, so it fits.
    have hfit : (Int16.ofInt mean).toInt = mean := by
      obtain ⟨hlow, hhigh⟩ := hbounds a.toInt b.toInt (.inl (outside_eq_zero.mpr fun z hz => by
        rw [hax, hbx]
        exact ⟨hleast.2 hz, hgreatest.2 hz⟩))
      have := a.le_toInt
      have := b.toInt_lt
      exact Int16.toInt_ofInt_of_le (by omega) (by omega)
    refine ⟨a, ha, b, hb, _, rfl, hab, fun lo hi h => ?_⟩
    rw [hfit]
    exact hbounds _ _ h

/-- **The value of a burst**: with fewer than two good samples there is none; otherwise it comes
    with their spread, and lies within every interval that has all of them, or with four samples
    three of them, wherever the fourth is. -/
theorem ads1115_value_robust (i2c : ℕ → Option (UInt8 × UInt8)) (n : ℕ) (samples : List Int16)
    (hburst : ads1115Samples i2c ads1115BurstN n = samples) :
    (samples.length < 2 → ads1115ReadRaw i2c n = none) ∧
    (2 ≤ samples.length → ∃ a ∈ samples, ∃ b ∈ samples, ∃ value,
      ads1115ReadRaw i2c n = some (value, b.toInt - a.toInt) ∧
      (∀ x ∈ samples, a.toInt ≤ x.toInt ∧ x.toInt ≤ b.toInt) ∧
      ∀ lo hi, wild lo hi samples = 0 ∨ samples.length = 4 ∧ wild lo hi samples ≤ 1 →
        lo.toInt ≤ value.toInt ∧ value.toInt ≤ hi.toInt) := by
  rw [ads1115ReadRaw, hburst]
  refine ⟨fun hshort => ?_, fun hlen => ads1115Value_eq hlen⟩
  cases samples with
  | nil => rfl
  | cons x xs =>
    rw [List.length_cons] at hshort
    obtain rfl : xs = [] := List.eq_nil_of_length_eq_zero (by omega)
    rfl

/-- A bus on which each conversion is ready at once, with these high bytes. -/
def readyBus (his : List UInt8) (n : ℕ) : Option (UInt8 × UInt8) :=
  if n % 3 = 2 then (his[n / 3]?).map fun hi => (hi, 0) else some (0x80, 0)

/-- Three samples around 0x1000, and one far off. -/
theorem ads1115_value_robust_wild :
    ads1115Samples (readyBus [0x10, 0x7F, 0x11, 0x10]) ads1115BurstN 0 =
      [0x1000, 0x7F00, 0x1100, 0x1000] ∧
    ∃ value spread, ads1115ReadRaw (readyBus [0x10, 0x7F, 0x11, 0x10]) 0 = some (value, spread) ∧
      (0x1000 : Int16).toInt ≤ value.toInt ∧ value.toInt ≤ (0x1100 : Int16).toInt := by
  have hsamples : ads1115Samples (readyBus [0x10, 0x7F, 0x11, 0x10]) ads1115BurstN 0 =
      [0x1000, 0x7F00, 0x1100, 0x1000] := by decide
  obtain ⟨a, -, b, -, value, hread, -, hbounds⟩ :=
    (ads1115_value_robust (readyBus [0x10, 0x7F, 0x11, 0x10]) 0 _ hsamples).2 (by decide)
  exact ⟨hsamples, value, _, hread, hbounds 0x1000 0x1100 (.inr (by decide))⟩

end Fountainer.Device
