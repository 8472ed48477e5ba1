import Fountainer.Lib.FloatArith
import Fountainer.Lib.Runs
import Fountainer.Lib.TokenBucket
import Mathlib.Data.List.Chain

/-!
# The rate limit of a local session

`local_rate_limit.c` and its use in `ws_handler`: every frame takes a token, a frame without one is
a violation, and three violations close the session. With exact arithmetic the tokens are those of
a token bucket. Violations are counted in windows, the next of which opens with the first violation
after the end of the last; so a burst across that end is counted in two parts.
-/

namespace Fountainer.Network

open FloatArith (ofSigned ofSigned_of_nonneg)

section Constants

variable {F : Type*} [FloatArith F]

/-- `LOCAL_RATE_CAPACITY`. -/
def localRateCapacity : F := 20.0

/-- `LOCAL_RATE_REFILL_PER_S`. -/
def localRateRefillPerS : F := 5.0

end Constants

/-- `LOCAL_RATE_STRIKE_WINDOW_US`. -/
def localRateStrikeWindowUs : ℤ := 10 * 1000 * 1000

/-- `LOCAL_RATE_STRIKES_MAX`. -/
def localRateStrikesMax : UInt32 := 3

/-- `local_rate_limit_t`. Times are those of `esp_timer_get_time`, in microseconds. -/
structure LocalRateLimit (F : Type*) where
  tokens : F
  lastRefillUs : ℤ
  violations : UInt32
  windowStartUs : ℤ

section Functions

variable {F : Type*} [FloatArith F]

/-- `local_rate_limit_reset`. -/
def localRateLimitReset (now : ℤ) : LocalRateLimit F where
  tokens := localRateCapacity
  lastRefillUs := now
  violations := 0
  windowStartUs := 0

/-- The tokens with what has flowed in since the last call. -/
def LocalRateLimit.flow (rl : LocalRateLimit F) (now : ℤ) : F :=
  let delta : F := ofSigned (now - rl.lastRefillUs) / 1e6
  rl.tokens + delta * localRateRefillPerS

/-- The refill of `local_rate_allow`. -/
def LocalRateLimit.refill (rl : LocalRateLimit F) (now : ℤ) : F :=
  if rl.flow now > localRateCapacity then localRateCapacity else rl.flow now

/-- `local_rate_allow`. -/
def localRateAllow (rl : LocalRateLimit F) (now : ℤ) (cost : F) : Bool × LocalRateLimit F :=
  let rl := { rl with tokens := rl.refill now, lastRefillUs := now }
  if rl.tokens < cost then (false, rl) else (true, { rl with tokens := rl.tokens - cost })

/-- `local_rate_violation_note`. -/
def localRateViolationNote (rl : LocalRateLimit F) (now : ℤ) : Bool × LocalRateLimit F :=
  let rl :=
    if rl.windowStartUs = 0 ∨ now - rl.windowStartUs > localRateStrikeWindowUs then
      { rl with windowStartUs := now, violations := 0 }
    else rl
  let rl := { rl with violations := rl.violations + 1 }
  (rl.violations ≥ localRateStrikesMax, rl)

/-- A call on the limit of a session, at its time. `ws_handler` notes a violation where a frame is
    not allowed. -/
inductive RateCall where
  | allow (now : ℤ)
  | note (now : ℤ)

/-- The time of the call. -/
def RateCall.time : RateCall → ℤ
  | .allow now => now
  | .note now => now

/-- A call; a frame costs one token. -/
def rateStep (rl : LocalRateLimit F) : RateCall → LocalRateLimit F
  | .allow now => (localRateAllow rl now 1.0).2
  | .note now => (localRateViolationNote rl now).2

/-- The time of a call that is allowed. -/
def allowedAt (rl : LocalRateLimit F) (c : RateCall) (_ : LocalRateLimit F) : Option ℤ :=
  match c with
  | .allow now => if (localRateAllow rl now 1.0).1 then some now else none
  | .note _ => none

/-- The limit after a reset and the calls. -/
def rateRun (start : ℤ) (calls : List RateCall) : LocalRateLimit F :=
  Machine.run rateStep (localRateLimitReset start) calls

/-- The times of the allowed calls. -/
def allowedTimes (F : Type*) [FloatArith F] (start : ℤ) (calls : List RateCall) : List ℤ :=
  Machine.collect rateStep allowedAt (localRateLimitReset start : LocalRateLimit F) calls

end Functions

/-- The times do not run backwards from `start` on. -/
def TimedCalls (start : ℤ) (calls : List RateCall) : Prop :=
  List.IsChain (· ≤ ·) (start :: calls.map RateCall.time)

instance (start : ℤ) (calls : List RateCall) : Decidable (TimedCalls start calls) :=
  inferInstanceAs (Decidable (List.IsChain _ _))

theorem timedCalls_cons {start : ℤ} {c : RateCall} {calls : List RateCall} :
    TimedCalls start (c :: calls) ↔ start ≤ c.time ∧ TimedCalls c.time calls :=
  List.isChain_cons_cons

theorem TimedCalls.take {start : ℤ} {calls : List RateCall} (h : TimedCalls start calls) (n : ℕ) :
    TimedCalls start (calls.take n) := by
  rw [TimedCalls, List.map_take]
  exact List.IsChain.take h (n + 1)

-- ════════════════════════════════════════════════════════════════════════
-- The tokens
-- ════════════════════════════════════════════════════════════════════════

section Tokens

open TokenBucket

/-- The time in seconds. -/
def seconds (us : ℤ) : ℚ := us / 10 ^ 6

/-- The tokens as a bucket. -/
def LocalRateLimit.bucket (rl : LocalRateLimit ℚ) : Bucket ℚ := ⟨rl.tokens, seconds rl.lastRefillUs⟩

/-- The requests that the calls make. -/
def requests (calls : List RateCall) : List (Request ℚ) :=
  calls.filterMap fun c =>
    match c with
    | .allow now => some ⟨seconds now, 1⟩
    | .note _ => none

variable {rl : LocalRateLimit ℚ} {now : ℤ}

theorem seconds_mono {t u : ℤ} (h : t ≤ u) : seconds t ≤ seconds u :=
  div_le_div_of_nonneg_right (Int.cast_le.mpr h) (by norm_num)

theorem localRateCapacity_eq : (localRateCapacity : ℚ) = 20 :=
  show (OfScientific.ofScientific 200 true 1 : ℚ) = 20 by norm_num

theorem flow_eq (h : rl.lastRefillUs ≤ now) :
    rl.flow now = rl.bucket.level + 5 * (seconds now - rl.bucket.last) := by
  have hdelta : (ofSigned (now - rl.lastRefillUs) : ℚ) = (now : ℚ) - rl.lastRefillUs := by
    rw [ofSigned_of_nonneg (sub_nonneg.mpr h), Int.cast_sub]
  show rl.tokens + ofSigned (now - rl.lastRefillUs) / (OfScientific.ofScientific 1 false 6 : ℚ) *
    (OfScientific.ofScientific 50 true 1 : ℚ) = _
  rw [hdelta, LocalRateLimit.bucket, seconds, seconds]
  norm_num
  ring

/-- With exact arithmetic the refill is that of a bucket. -/
theorem refill_eq (h : rl.lastRefillUs ≤ now) :
    rl.refill now = refilled 20 5 rl.bucket (seconds now) := by
  have hfull : FloatArith.lt localRateCapacity (rl.flow now) = true ↔ 20 < rl.flow now := by
    rw [localRateCapacity_eq]
    exact decide_eq_true_iff
  rw [LocalRateLimit.refill, refilled, ← flow_eq h]
  split_ifs with hlt
  · rw [min_eq_right (hfull.mp hlt).le, localRateCapacity_eq]
  · exact (min_eq_left (not_lt.mp fun hlt' => hlt (hfull.mpr hlt'))).symm

/-- A call is granted as the request is. -/
theorem localRateAllow_eq (h : rl.lastRefillUs ≤ now) :
    ((localRateAllow rl now 1.0).1 = true ↔ Grants 20 5 rl.bucket ⟨seconds now, 1⟩) ∧
      (localRateAllow rl now 1.0).2.bucket = request 20 5 rl.bucket ⟨seconds now, 1⟩ := by
  have hcost : ((1.0 : ℚ)) = 1 := by norm_num
  have hshort : FloatArith.lt (rl.refill now) (1.0 : ℚ) = true ↔
      ¬ Grants 20 5 rl.bucket ⟨seconds now, 1⟩ := by
    rw [Grants, not_le, ← refill_eq h, hcost]
    exact decide_eq_true_iff
  by_cases hgrant : Grants 20 5 rl.bucket ⟨seconds now, 1⟩
  · have hallow : localRateAllow rl now 1.0 = (true,
        { rl with tokens := rl.refill now - 1.0, lastRefillUs := now }) :=
      if_neg fun hlt => hshort.mp hlt hgrant
    rw [hallow, request, if_pos hgrant, ← refill_eq h, hcost]
    exact ⟨iff_of_true rfl hgrant, rfl⟩
  · have hallow : localRateAllow rl now 1.0 = (false,
        { rl with tokens := rl.refill now, lastRefillUs := now }) :=
      if_pos (hshort.mpr hgrant)
    rw [hallow, request, if_neg hgrant, ← refill_eq h, sub_zero]
    exact ⟨iff_of_false Bool.false_ne_true hgrant, rfl⟩

theorem lastRefillUs_allow (cost : ℚ) : (localRateAllow rl now cost).2.lastRefillUs = now := by
  rw [localRateAllow]
  split <;> rfl

theorem lastRefillUs_note :
    (localRateViolationNote rl now).2.lastRefillUs = rl.lastRefillUs := by
  rw [localRateViolationNote]
  split_ifs <;> rfl

theorem bucket_note : (localRateViolationNote rl now).2.bucket = rl.bucket := by
  rw [localRateViolationNote]
  split_ifs <;> rfl

variable {start : ℤ} {c : RateCall} {calls : List RateCall}

/-- The calls of a run are requests to its bucket, in order. -/
theorem requests_ordered (h : TimedCalls start calls) :
    Ordered (seconds start) (requests calls) := by
  induction calls generalizing start with
  | nil => exact trivial
  | cons c calls ih =>
    obtain ⟨htime, hcalls⟩ := timedCalls_cons.mp h
    cases c with
    | allow now => exact ⟨seconds_mono htime, zero_le_one, ih hcalls⟩
    | note now => exact (ih hcalls).mono (seconds_mono htime)

/-- The level stays between zero and the capacity. -/
theorem filled_run (hrl : Filled 20 rl.bucket) (hlast : rl.lastRefillUs ≤ start)
    (h : TimedCalls start calls) : Filled 20 (Machine.run rateStep rl calls).bucket := by
  induction calls generalizing rl start with
  | nil => exact hrl
  | cons c calls ih =>
    obtain ⟨htime, hcalls⟩ := timedCalls_cons.mp h
    cases c with
    | allow now =>
      refine ih ?_ (lastRefillUs_allow 1.0).le hcalls
      have hle : rl.lastRefillUs ≤ now := hlast.trans htime
      show Filled 20 (localRateAllow rl now 1.0).2.bucket
      rw [(localRateAllow_eq hle).2]
      exact hrl.request (by norm_num) (seconds_mono hle) zero_le_one
    | note now =>
      refine ih ?_ (lastRefillUs_note.le.trans (hlast.trans htime)) hcalls
      show Filled 20 (localRateViolationNote rl now).2.bucket
      rw [bucket_note]
      exact hrl

/-- What the requests of a run spend in an interval is the number of its allowed calls there. -/
theorem count_allowed (a b : ℚ) (hlast : rl.lastRefillUs ≤ start) (h : TimedCalls start calls) :
    (((Machine.collect rateStep allowedAt rl calls).countP fun t =>
        a ≤ seconds t ∧ seconds t ≤ b : ℕ) : ℚ) =
      spent 20 5 a b rl.bucket (requests calls) := by
  induction calls generalizing rl start with
  | nil => rfl
  | cons c calls ih =>
    obtain ⟨htime, hcalls⟩ := timedCalls_cons.mp h
    rw [Machine.collect, List.countP_append, Nat.cast_add]
    cases c with
    | allow now =>
      have hle : rl.lastRefillUs ≤ now := hlast.trans htime
      obtain ⟨hgrant, hbucket⟩ := localRateAllow_eq hle
      have hrest := @ih (localRateAllow rl now 1.0).2 now (lastRefillUs_allow 1.0).le hcalls
      rw [hbucket] at hrest
      have hnow : (((allowedAt rl (.allow now) (rateStep rl (.allow now))).toList.countP fun t =>
          a ≤ seconds t ∧ seconds t ≤ b : ℕ) : ℚ) =
          if Grants 20 5 rl.bucket ⟨seconds now, 1⟩ ∧ a ≤ seconds now ∧ seconds now ≤ b then 1
          else 0 := by
        by_cases hin : Grants 20 5 rl.bucket ⟨seconds now, 1⟩
        · have hat : allowedAt rl (.allow now) (rateStep rl (.allow now)) = some now :=
            if_pos (hgrant.mpr hin)
          rw [hat]
          by_cases hab : a ≤ seconds now ∧ seconds now ≤ b <;> simp [hin, hab]
        · have hat : allowedAt rl (.allow now) (rateStep rl (.allow now)) = none :=
            if_neg fun h => hin (hgrant.mp h)
          rw [hat]
          simp [hin]
      exact congrArg₂ (· + ·) hnow hrest
    | note now =>
      have hrest := @ih (localRateViolationNote rl now).2 now
        (lastRefillUs_note.le.trans (hlast.trans htime)) hcalls
      rw [bucket_note] at hrest
      exact (zero_add _).trans hrest

/-- **Token bucket bound**: with exact arithmetic and times that do not run backwards, at most
    20 + 5 (b - a) calls are allowed from `a` to `b`, and the tokens stay between 0 and 20. -/
theorem allowed_le (start : ℤ) (calls : List RateCall) (h : TimedCalls start calls) :
    (∀ a b : ℚ, a ≤ b → (((allowedTimes ℚ start calls).countP fun t =>
        a ≤ seconds t ∧ seconds t ≤ b : ℕ) : ℚ) ≤ 20 + 5 * (b - a)) ∧
      ∀ n, 0 ≤ (rateRun start (calls.take n) : LocalRateLimit ℚ).tokens ∧
        (rateRun start (calls.take n) : LocalRateLimit ℚ).tokens ≤ 20 := by
  have hfilled : Filled 20 (localRateLimitReset start : LocalRateLimit ℚ).bucket := by
    have hlevel : (localRateLimitReset start : LocalRateLimit ℚ).bucket.level = 20 :=
      localRateCapacity_eq
    exact ⟨hlevel ▸ by norm_num, hlevel.le⟩
  refine ⟨fun a b hab => ?_, fun n => ?_⟩
  · rw [allowedTimes, count_allowed a b le_rfl h]
    exact spent_le (by norm_num) hfilled (requests_ordered h) hab
  · have hrun := filled_run hfilled le_rfl (h.take n)
    exact ⟨hrun.nonneg, hrun.le_capacity⟩

end Tokens

/-- A burst of 25 frames. -/
theorem allowed_le_burst :
    (((allowedTimes ℚ 0 (List.replicate 25 (.allow 0))).countP fun t =>
      0 ≤ seconds t ∧ seconds t ≤ 0 : ℕ) : ℚ) ≤ 20 + 5 * (0 - 0) :=
  (allowed_le 0 (List.replicate 25 (.allow 0)) (by decide)).1 0 0 le_rfl

-- ════════════════════════════════════════════════════════════════════════
-- The strikes
-- ════════════════════════════════════════════════════════════════════════

section Strikes

variable {F : Type*}

/-- The limit of a session, and whether a note of a violation has been answered with true. -/
structure Strikes (F : Type*) where
  limit : LocalRateLimit F
  struck : Bool

/-- A violation at the time. -/
def Strikes.note (s : Strikes F) (now : ℤ) : Strikes F :=
  let r := localRateViolationNote s.limit now
  ⟨r.2, s.struck || r.1⟩

/-- The violations `ts` after a reset. -/
def strikeRun (F : Type*) [FloatArith F] (start : ℤ) (ts : List ℤ) : Strikes F :=
  Machine.run Strikes.note ⟨localRateLimitReset start, false⟩ ts

/-- Of three violations within the window of each other, the third finds the answer given. -/
def StrikeRule (F : Type*) [FloatArith F] (start : ℤ) (ts : List ℤ) : Prop :=
  ∀ i j k t u, i < j → j < k → ts[i]? = some t → ts[k]? = some u →
    u - t ≤ localRateStrikeWindowUs → (strikeRun F start (ts.take (k + 1))).struck = true

/-- The violations of one window: the one that opens it and the later ones. -/
structure StrikeWindow where
  first : ℤ
  later : List ℤ
  deriving DecidableEq

/-- The windows with one more violation, the newest window in front. -/
def addViolation : List StrikeWindow → ℤ → List StrikeWindow
  | [], t => [⟨t, []⟩]
  | w :: ws, t =>
    if t - w.first ≤ localRateStrikeWindowUs then ⟨w.first, w.later ++ [t]⟩ :: ws
    else ⟨t, []⟩ :: w :: ws

/-- The windows of violations: each opens with the first violation behind the last one. -/
def windows (ts : List ℤ) : List StrikeWindow := ts.foldl addViolation []

/-- As long as no window has a third violation, the second ones of two successive windows are not
    within a window of each other. -/
def ApartSeconds (ts : List ℤ) : Prop :=
  ∀ newer w' w older r r', windows ts = newer ++ w' :: w :: older →
    (∀ v ∈ older, v.later.length ≤ 1) → w.later = [r] → w'.later.head? = some r' →
      localRateStrikeWindowUs < r' - r

theorem windows_concat (ts : List ℤ) (t : ℤ) :
    windows (ts ++ [t]) = addViolation (windows ts) t := List.foldl_concat ..

/-- What the code keeps of the windows. -/
structure Counted (s : Strikes F) (ws : List StrikeWindow) : Prop where
  struck : s.struck = true ↔ ∃ w ∈ ws, 2 ≤ w.later.length
  none : ws = [] → s.limit.windowStartUs = 0
  start : ∀ w ∈ ws.head?, s.limit.windowStartUs = w.first ∧ 0 < w.first ∧
    (w.later.length ≤ 1 → s.limit.violations.toNat = w.later.length + 1)

theorem note_opens {rl : LocalRateLimit F} {now : ℤ}
    (h : rl.windowStartUs = 0 ∨ localRateStrikeWindowUs < now - rl.windowStartUs) :
    localRateViolationNote rl now =
      (false, { rl with windowStartUs := now, violations := 1 }) := by
  rw [localRateViolationNote, if_pos h]
  rfl

theorem note_counts {rl : LocalRateLimit F} {now : ℤ} (hstart : rl.windowStartUs ≠ 0)
    (hnow : now - rl.windowStartUs ≤ localRateStrikeWindowUs) :
    localRateViolationNote rl now =
      (decide (rl.violations + 1 ≥ localRateStrikesMax),
        { rl with violations := rl.violations + 1 }) := by
  rw [localRateViolationNote, if_neg fun h => h.elim hstart (not_lt.mpr hnow)]

/-- A violation that opens a window. -/
theorem Counted.opens {s : Strikes F} {ws : List StrikeWindow} (h : Counted s ws) {t : ℤ}
    (ht : 0 < t) (hopen : s.limit.windowStartUs = 0 ∨
      localRateStrikeWindowUs < t - s.limit.windowStartUs) :
    Counted (s.note t) (⟨t, []⟩ :: ws) := by
  have hnote : s.note t = ⟨{ s.limit with windowStartUs := t, violations := 1 }, s.struck⟩ := by
    rw [Strikes.note, note_opens hopen, Bool.or_false]
  rw [hnote]
  refine ⟨?_, nofun, ?_⟩
  · rw [h.struck]
    simp
  · intro w hw
    cases hw
    exact ⟨rfl, ht, fun _ => rfl⟩

/-- **Violation**: the counter and the windows go on together. -/
theorem Counted.note {s : Strikes F} {ws : List StrikeWindow} (h : Counted s ws) {t : ℤ}
    (ht : 0 < t) : Counted (s.note t) (addViolation ws t) := by
  cases ws with
  | nil => exact h.opens ht (.inl (h.none rfl))
  | cons w ws =>
    obtain ⟨hstart, hfirst, hcount⟩ := h.start w rfl
    have hnext : w.later.length ≤ 1 →
        (s.limit.violations + 1).toNat = w.later.length + 2 := by
      intro hlen
      rw [UInt32.toNat_add, hcount hlen]
      exact Nat.mod_eq_of_lt (by change _ + 1 + 1 < 2 ^ 32; omega)
    by_cases hin : t - w.first ≤ localRateStrikeWindowUs
    · have hnote := @note_counts F s.limit t (by omega) (by omega)
      have hlength : (w.later ++ [t]).length = w.later.length + 1 := List.length_append
      rw [addViolation, if_pos hin, Strikes.note, hnote]
      refine ⟨?_, nofun, ?_⟩
      · rw [Bool.or_eq_true, decide_eq_true_iff, h.struck, List.exists_mem_cons_iff,
          List.exists_mem_cons_iff, hlength]
        by_cases hlen : w.later.length ≤ 1
        · have hthird : s.limit.violations + 1 ≥ localRateStrikesMax ↔ 1 ≤ w.later.length := by
            rw [ge_iff_le, UInt32.le_iff_toNat_le, hnext hlen]
            change 3 ≤ _ ↔ _
            omega
          rw [hthird]
          by_cases hone : 1 ≤ w.later.length
          · exact iff_of_true (.inr hone) (.inl (by omega))
          · have hold : ¬ 2 ≤ w.later.length := by omega
            have hnew : ¬ 2 ≤ w.later.length + 1 := by omega
            rw [or_iff_left hone, or_iff_right hold, or_iff_right hnew]
        · exact iff_of_true (.inl (.inl (by omega))) (.inl (by omega))
      · intro v hv
        cases hv
        refine ⟨hstart, hfirst, fun hlen => ?_⟩
        rw [hlength] at hlen ⊢
        exact hnext (by omega)
    · rw [addViolation, if_neg hin]
      exact h.opens ht (.inr (by omega))

theorem counted_run (F : Type*) [FloatArith F] (start : ℤ) {ts : List ℤ} (hpos : ∀ t ∈ ts, 0 < t) :
    Counted (strikeRun F start ts) (windows ts) := by
  induction ts using List.reverseRecOn with
  | nil => exact ⟨iff_of_false Bool.false_ne_true (by simp [windows]), fun _ => rfl, nofun⟩
  | append_singleton ts t ih =>
    rw [strikeRun, Machine.run_concat, windows_concat]
    exact (ih fun u hu => hpos u (List.mem_append_left _ hu)).note (hpos t (by simp))

-- ════════════════════════════════════════════════════════════════════════
-- The windows
-- ════════════════════════════════════════════════════════════════════════

variable {ts : List ℤ} {newer older tail : List StrikeWindow} {w w' : StrikeWindow} {r : ℤ}

/-- A violation goes to the newest window or opens one. -/
theorem addViolation_cases (w : StrikeWindow) (ws : List StrikeWindow) (t : ℤ) :
    addViolation (w :: ws) t = ⟨w.first, w.later ++ [t]⟩ :: ws ∨
      localRateStrikeWindowUs < t - w.first ∧ addViolation (w :: ws) t = ⟨t, []⟩ :: w :: ws := by
  rw [addViolation]
  split_ifs with h
  · exact .inl rfl
  · exact .inr ⟨not_le.mp h, rfl⟩

/-- The violations of a window, in order. -/
def StrikeWindow.times (w : StrikeWindow) : List ℤ := w.first :: w.later

/-- The windows hold the violations in order. -/
theorem flatMap_windows (ts : List ℤ) : (windows ts).reverse.flatMap StrikeWindow.times = ts := by
  induction ts using List.reverseRecOn with
  | nil => rfl
  | append_singleton ts t ih =>
    rw [windows_concat]
    cases hws : windows ts with
    | nil =>
      rw [hws] at ih
      rw [← ih]
      rfl
    | cons w ws =>
      rw [hws, List.reverse_cons, List.flatMap_append] at ih
      obtain hadd | ⟨-, hadd⟩ := addViolation_cases w ws t
      · rw [hadd, List.reverse_cons, List.flatMap_append, ← ih, List.append_assoc]
        simp [StrikeWindow.times]
      · rw [hadd, List.reverse_cons, List.flatMap_append, List.reverse_cons,
          List.flatMap_append, ih]
        rfl

theorem isChain_first (ts : List ℤ) : ((windows ts).map StrikeWindow.first).IsChain fun a b =>
    localRateStrikeWindowUs < a - b := by
  induction ts using List.reverseRecOn with
  | nil => exact .nil
  | append_singleton ts t ih =>
    rw [windows_concat]
    cases hws : windows ts with
    | nil => exact List.isChain_singleton t
    | cons w ws =>
      rw [hws] at ih
      obtain hadd | ⟨hgap, hadd⟩ := addViolation_cases w ws t
      · rw [hadd]
        exact ih
      · rw [hadd]
        exact List.isChain_cons_cons.mpr ⟨hgap, ih⟩

/-- A window opens after the end of the one before it. -/
theorem windows_gap (h : windows ts = newer ++ w' :: w :: older) :
    localRateStrikeWindowUs < w'.first - w.first := by
  have hchain := isChain_first ts
  rw [h, List.map_append, List.map_cons, List.map_cons] at hchain
  exact (List.isChain_append_cons_cons.mp hchain).2.1

/-- Later violations leave the older windows alone, and the second one of the newest. -/
theorem windows_append {f : ℤ} (h : windows ts = ⟨f, [r]⟩ :: tail) (us : List ℤ) :
    ∃ newer l, windows (ts ++ us) = newer ++ ⟨f, r :: l⟩ :: tail := by
  induction us using List.reverseRecOn with
  | nil => exact ⟨[], [], by rw [List.append_nil, h]; rfl⟩
  | append_singleton us u ih =>
    obtain ⟨newer, l, ih⟩ := ih
    rw [← List.append_assoc, windows_concat, ih]
    cases newer with
    | nil =>
      obtain hadd | ⟨-, hadd⟩ := addViolation_cases ⟨f, r :: l⟩ tail u
      · exact ⟨[], l ++ [u], hadd⟩
      · exact ⟨[⟨u, []⟩], l, hadd⟩
    | cons v vs =>
      obtain hadd | ⟨-, hadd⟩ := addViolation_cases v (vs ++ ⟨f, r :: l⟩ :: tail) u
      · exact ⟨⟨v.first, v.later ++ [u]⟩ :: vs, l, hadd⟩
      · exact ⟨⟨u, []⟩ :: v :: vs, l, hadd⟩

/-- A window with a second violation was the newest one when that violation came. -/
theorem exists_second {f : ℤ} {l : List ℤ} (h : windows ts = newer ++ ⟨f, r :: l⟩ :: tail) :
    ∃ p us, p ++ us = ts ∧ windows p = ⟨f, [r]⟩ :: tail := by
  induction ts using List.reverseRecOn generalizing newer l with
  | nil => exact absurd h (by simp [windows])
  | append_singleton ts t ih =>
    have hearlier : ∀ {newer' l'}, windows ts = newer' ++ ⟨f, r :: l'⟩ :: tail →
        ∃ p us, p ++ us = ts ++ [t] ∧ windows p = ⟨f, [r]⟩ :: tail := by
      intro newer' l' h'
      obtain ⟨p, us, rfl, hp⟩ := ih h'
      exact ⟨p, us ++ [t], (List.append_assoc ..).symm, hp⟩
    have hts := windows_concat ts t
    cases hws : windows ts with
    | nil =>
      rw [hws, h, addViolation] at hts
      cases newer with
      | nil => cases hts
      | cons v vs => exact absurd hts (by simp)
    | cons v vs =>
      rw [hws, h] at hts
      obtain hadd | ⟨-, hadd⟩ := addViolation_cases v vs t
      · rw [hadd] at hts
        cases newer with
        | nil =>
          obtain ⟨hv, rfl⟩ := List.cons.inj hts
          obtain ⟨rfl, hlater⟩ := StrikeWindow.mk.inj hv
          cases hl : v.later with
          | nil =>
            rw [hl] at hlater
            obtain ⟨rfl, rfl⟩ := List.cons.inj hlater
            exact ⟨ts ++ [r], [], List.append_nil _, h⟩
          | cons r' l' =>
            rw [hl] at hlater
            obtain ⟨rfl, -⟩ := List.cons.inj hlater
            exact @hearlier [] l' (hws.trans (by rw [← hl]; rfl))
        | cons n ns =>
          obtain ⟨-, rfl⟩ := List.cons.inj hts
          exact @hearlier (v :: ns) l hws
      · rw [hadd] at hts
        cases newer with
        | nil => cases hts
        | cons n ns =>
          obtain ⟨-, hrest⟩ := List.cons.inj hts
          exact hearlier (hws.trans hrest.symm)

/-- In a list that does not decrease, nothing up to a place is above what stands there. -/
theorem le_of_sorted {q rest : List ℤ} {x t : ℤ} {i : ℕ}
    (hsorted : (q ++ x :: rest).Pairwise (· ≤ ·)) (hi : i ≤ q.length)
    (ht : (q ++ x :: rest)[i]? = some t) : t ≤ x := by
  obtain hlt | rfl := Nat.lt_or_eq_of_le hi
  · rw [List.getElem?_append_left hlt] at ht
    exact (List.pairwise_append.mp hsorted).2.2 t (List.mem_of_getElem? ht) x List.mem_cons_self
  · rw [List.getElem?_append_right le_rfl, Nat.sub_self] at ht
    exact (Option.some.inj ht).ge

/-- Two windows with two violations each are the last four violations. -/
theorem windows_last {f f' r' : ℤ} (h : windows ts = ⟨f', [r']⟩ :: ⟨f, [r]⟩ :: older) :
    ∃ q, ts = q ++ [f, r, f', r'] := by
  refine ⟨older.reverse.flatMap StrikeWindow.times, ?_⟩
  rw [← flatMap_windows ts, h]
  simp [StrikeWindow.times]

/-- Where the third of a burst finds no answer, the burst straddles the end of a window: it starts
    with the second violation of one window and ends with the second of the next. -/
theorem straddles {p : List ℤ} (hsorted : p.Pairwise (· ≤ ·))
    (hfew : ∀ w ∈ windows p, w.later.length ≤ 1) {i k : ℕ} {t u : ℤ} (hik : i + 2 ≤ k)
    (hk : p.length = k + 1) (ht : p[i]? = some t) (hu : p[k]? = some u)
    (hnear : u - t ≤ localRateStrikeWindowUs) :
    ∃ w older r f, windows p = ⟨f, [u]⟩ :: w :: older ∧ w.later = [r] ∧
      u - r ≤ localRateStrikeWindowUs := by
  have hflat := flatMap_windows p
  cases hws : windows p with
  | nil =>
    rw [hws] at hflat
    rw [← hflat] at hk
    simp at hk
  | cons w' ws =>
    cases ws with
    | nil =>
      rw [hws] at hflat hfew
      have hone := hfew w' (by simp)
      have hlen : p.length = w'.later.length + 1 := by
        rw [← hflat]
        simp [StrikeWindow.times]
      omega
    | cons w older =>
      have hgap := @windows_gap p [] older w w' hws
      rw [hws, List.reverse_cons, List.reverse_cons, List.append_assoc,
        List.flatMap_append] at hflat
      obtain ⟨q, hq⟩ : ∃ q, older.reverse.flatMap StrikeWindow.times = q := ⟨_, rfl⟩
      replace hflat : q ++ (w.first :: w.later ++ (w'.first :: w'.later)) = p := by
        rw [← hflat, hq]
        simp [StrikeWindow.times]
      have hw := hfew w (by simp [hws])
      have hw' := hfew w' (by simp [hws])
      obtain ⟨f, l⟩ := w
      obtain ⟨f', l'⟩ := w'
      dsimp only at hflat hgap hw hw'
      have hlen : k + 1 = q.length + (l.length + 1) + (l'.length + 1) := by
        rw [← hk, ← hflat]
        simp only [List.length_append, List.length_cons]
        omega
      have hlast : (f' :: l').getLast? = some u := by
        have hlast : p.getLast? = some u := by
          rw [List.getLast?_eq_getElem?, hk]
          exact hu
        rwa [← hflat, List.getLast?_append_of_ne_nil _ (by simp),
          List.getLast?_append_of_ne_nil _ (by simp)] at hlast
      rw [← hflat] at ht hsorted
      have hopen : f' ≤ u := by
        have htail := (List.pairwise_append.mp (List.pairwise_append.mp hsorted).2.1).2.1
        obtain rfl | hmem := List.mem_cons.mp (List.mem_of_getLast? hlast)
        · exact le_rfl
        · exact List.rel_of_pairwise_cons htail hmem
      -- so the burst does not reach back to the first violation of the older window
      have hback : q.length < i := by
        by_contra hi
        have hle : t ≤ f := le_of_sorted hsorted (not_lt.mp hi) ht
        omega
      obtain ⟨r, rfl⟩ : ∃ r, l = [r] := List.length_eq_one_iff.mp (by omega)
      obtain ⟨z, rfl⟩ : ∃ z, l' = [z] := List.length_eq_one_iff.mp (by omega)
      have hz : z = u := by simpa using hlast
      have hle : t ≤ r := by
        have hq' : q ++ ([f, r] ++ [f', z]) = (q ++ [f]) ++ r :: [f', z] := by simp
        rw [hq'] at ht hsorted
        refine le_of_sorted hsorted ?_ ht
        rw [List.length_append]
        simp only [List.length_cons, List.length_nil] at hlen ⊢
        omega
      exact ⟨⟨f, [r]⟩, older, r, f', by rw [hz], rfl, by omega⟩

/-- **Strike rule**: for violations at positive times that do not run backwards, the third of three
    within a window of each other finds the answer given exactly when, as long as no window has a
    third violation, the second ones of two successive windows are not within a window of each
    other. -/
theorem strikeRule_iff (F : Type*) [FloatArith F] (start : ℤ) (ts : List ℤ)
    (hsorted : ts.Pairwise (· ≤ ·)) (hpos : ∀ t ∈ ts, 0 < t) :
    StrikeRule F start ts ↔ ApartSeconds ts := by
  constructor
  · intro hrule newer w' w older r r' hws holder hw hw'
    obtain ⟨f', later'⟩ := w'
    obtain ⟨l, rfl⟩ : ∃ l, later' = r' :: l := by
      cases later' with
      | nil => cases hw'
      | cons x l => exact ⟨l, by cases hw'; rfl⟩
    by_contra hnear
    obtain ⟨p, us, rfl, hp⟩ := exists_second hws
    obtain ⟨f, later⟩ := w
    obtain rfl : later = [r] := hw
    obtain ⟨q, hflat⟩ := windows_last hp
    have hlen : p.length = q.length + 3 + 1 := by
      rw [hflat, List.length_append]
      rfl
    have hat : ∀ n x, [f, r, f', r'][n]? = some x → (p ++ us)[q.length + n]? = some x := by
      intro n x hx
      rw [hflat, List.append_assoc, List.getElem?_append_right (Nat.le_add_right ..),
        Nat.add_sub_cancel_left, List.getElem?_append_left (List.getElem?_eq_some_iff.mp hx).1]
      exact hx
    have hstruck : (strikeRun F start p).struck = true := by
      have hthird := hrule (q.length + 1) (q.length + 2) (q.length + 3) r r' (by omega) (by omega)
        (hat 1 r rfl) (hat 3 r' rfl) (not_lt.mp hnear)
      rwa [← hlen, List.take_left] at hthird
    obtain ⟨v, hv, htwo⟩ :=
      (counted_run F start fun t ht => hpos t (List.mem_append_left _ ht)).struck.mp hstruck
    rw [hp] at hv
    obtain rfl | hv := List.mem_cons.mp hv
    · exact absurd htwo (by simp)
    · obtain rfl | hv := List.mem_cons.mp hv
      · exact absurd htwo (by simp)
      · exact absurd htwo (by have := holder v hv; omega)
  · intro hapart i j k t u hij hjk ht hu hnear
    by_contra hstruck
    obtain ⟨p, us, rfl, hk⟩ : ∃ p us, p ++ us = ts ∧ p.length = k + 1 := by
      refine ⟨ts.take (k + 1), ts.drop (k + 1), List.take_append_drop .., ?_⟩
      exact List.length_take_of_le (List.getElem?_eq_some_iff.mp hu).1
    rw [← hk, List.take_left] at hstruck
    rw [List.getElem?_append_left (by omega)] at ht hu
    have hcounted := counted_run F start fun t ht => hpos t (List.mem_append_left us ht)
    have hfew : ∀ v ∈ windows p, v.later.length ≤ 1 := by
      intro v hv
      by_contra htwo
      exact hstruck (hcounted.struck.mpr ⟨v, hv, by omega⟩)
    obtain ⟨w, older, r, f, hws, hw, hclose⟩ :=
      straddles (List.pairwise_append.mp hsorted).1 hfew (by omega) hk ht hu hnear
    obtain ⟨newer, l, hall⟩ := windows_append hws us
    have hold : ∀ v ∈ older, v.later.length ≤ 1 := fun v hv => hfew v (by simp [hws, hv])
    exact absurd hclose (not_le.mpr (hapart newer ⟨f, u :: l⟩ w older r u hall hold hw rfl))

/-- Three violations in a row. -/
theorem strikeRule_iff_row : StrikeRule ℚ 0 [1, 2, 3] := by
  refine (strikeRule_iff ℚ 0 [1, 2, 3] (by decide) (by simp)).mpr ?_
  intro newer w' w older r r' hws
  have hone : windows [1, 2, 3] = [⟨1, [2, 3]⟩] := rfl
  rw [hone] at hws
  have hlen := congrArg List.length hws
  exact absurd hlen (by simp; omega)

/-- The second to the fourth of these violations come within half a second, but the window of the
    first ends between them. -/
theorem strikeRule_straddled :
    ¬ ∀ ts : List ℤ, ts.Pairwise (· ≤ ·) → (∀ t ∈ ts, 0 < t) → StrikeRule ℚ 0 ts := by
  intro h
  have hstruck := h [1000000, 10900000, 11100000, 11300000] (by decide) (by simp) 1 2 3 10900000
    11300000 (by omega) (by omega) rfl rfl (by decide)
  exact Bool.false_ne_true hstruck

end Strikes

end Fountainer.Network
