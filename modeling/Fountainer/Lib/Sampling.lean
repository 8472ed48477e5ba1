import Mathlib.Order.Monotone.Basic
import Mathlib.Tactic.Common

/-!
# Reading a line by polling

A program reads the level of a line and delays in between. A delay lasts at least as long as asked
for, and how much longer each one lasts is not known beforehand. What the program learns of the
line is then a matter of how long its levels hold.
-/

namespace Sampling

/-- The time, and the number of delays so far. -/
structure Clock where
  now : ℕ
  calls : ℕ
  deriving DecidableEq, Repr

section Program

variable (line : ℕ → Bool) (late : ℕ → ℕ)

/-- A delay; `late` is by how much the delays are longer than asked for. -/
def delay (d : ℕ) (c : Clock) : Clock := ⟨c.now + d + late c.calls, c.calls + 1⟩

/-- Polls every `d` while the level is `v`, and gives up when it is still so after `n` delays. -/
def waitWhile (v : Bool) (d : ℕ) : ℕ → Clock → Bool × Clock
  | 0, c => (line c.now != v, c)
  | n + 1, c => if line c.now = v then waitWhile v d n (delay late d c) else (true, c)

/-- Polls every `d` while the level is `v`, at most `n` times; the number of delays. -/
def countWhile (v : Bool) (d : ℕ) : ℕ → Clock → ℕ × Clock
  | 0, c => (0, c)
  | n + 1, c =>
    if line c.now = v then ((countWhile v d n (delay late d c)).1 + 1,
      (countWhile v d n (delay late d c)).2)
    else (0, c)

end Program

variable {line : ℕ → Bool} {late : ℕ → ℕ} {v : Bool} {a b d n jitter : ℕ} {c : Clock}

variable (line) in
/-- The level is `v` from time `a` to before time `b`. -/
def Holds (v : Bool) (a b : ℕ) : Prop := ∀ t, a ≤ t → t < b → line t = v

theorem Holds.mono {a' b' : ℕ} (h : Holds line v a b) (ha : a ≤ a') (hb : b' ≤ b) :
    Holds line v a' b' := fun t hat htb => h t (ha.trans hat) (htb.trans_le hb)

theorem le_delay_now (d : ℕ) (c : Clock) : c.now + d ≤ (delay late d c).now := Nat.le_add_right _ _

theorem delay_now_le (hlate : ∀ i, late i ≤ jitter) (d : ℕ) (c : Clock) :
    (delay late d c).now ≤ c.now + d + jitter := Nat.add_le_add_left (hlate _) _

/-- **The edge is met**: a wait that starts while the level holds ends with the next one, less than
    one delay behind the edge, when the next level lasts at least as long as a delay and the polls
    suffice to get there. -/
theorem waitWhile_of_holds (hlate : ∀ i, late i ≤ jitter) (hd : 0 < d) {e : ℕ}
    (hnow : Holds line v a b) (hnext : Holds line (!v) b e) (hlong : b + d + jitter ≤ e)
    (ha : a ≤ c.now) (hb : c.now ≤ b) (hn : b ≤ c.now + n * d) :
    ∃ c', waitWhile line late v d n c = (true, c') ∧ b ≤ c'.now ∧ c'.now < b + d + jitter := by
  induction n generalizing c with
  | zero =>
    have hedge : c.now = b := by omega
    refine ⟨c, ?_, hedge.ge, by omega⟩
    rw [waitWhile, hnext c.now hedge.ge (by omega)]
    cases v <;> rfl
  | succ n ih =>
    rcases hb.lt_or_eq with hbefore | hedge
    · have hlow : c.now + d ≤ (delay late d c).now := le_delay_now d c
      have hhigh := delay_now_le hlate d c
      rw [waitWhile, if_pos (hnow c.now ha hbefore)]
      by_cases hafter : b < (delay late d c).now
      · -- The first reading behind the edge ends the wait.
        have hread := hnext (delay late d c).now hafter.le (by omega)
        refine ⟨delay late d c, ?_, hafter.le, by omega⟩
        cases n with
        | zero =>
          rw [waitWhile, hread]
          cases v <;> rfl
        | succ n =>
          rw [waitWhile, hread, if_neg (by cases v <;> exact nofun)]
      · refine ih (by omega) (by omega) ?_
        rw [Nat.add_mul, Nat.one_mul] at hn
        omega
    · refine ⟨c, ?_, hedge.ge, by omega⟩
      rw [waitWhile, hnext c.now hedge.ge (by omega), if_neg (by cases v <;> exact nofun)]

variable (line) in
/-- **A wait ends**, on whatever line. -/
theorem waitWhile_now_le (hlate : ∀ i, late i ≤ jitter) (v : Bool) (d n : ℕ) (c : Clock) :
    (waitWhile line late v d n c).2.now ≤ c.now + n * (d + jitter) := by
  induction n generalizing c with
  | zero => exact Nat.le_add_right _ _
  | succ n ih =>
    have hdelay := delay_now_le hlate d c
    have hrest := ih (delay late d c)
    rw [waitWhile, Nat.add_mul, Nat.one_mul]
    by_cases hv : line c.now = v
    · rw [if_pos hv]
      omega
    · rw [if_neg hv]
      exact Nat.le_add_right _ _

/-- The levels of a line that changes after each of the durations `ds`. -/
def levelAt : List ℕ → Bool → ℕ → Bool
  | [], v, _ => v
  | d :: ds, v, t => if t < d then v else levelAt ds (!v) (t - d)

variable (line) in
/-- From time `a` on the line has the levels of the durations `ds`. -/
def Follows (a : ℕ) (ds : List ℕ) (v : Bool) : Prop := ∀ t, a ≤ t → line t = levelAt ds v (t - a)

theorem Follows.holds {ds : List ℕ} (h : Follows line a (d :: ds) v) : Holds line v a (a + d) := by
  intro t hat htd
  rw [h t hat, levelAt, if_pos (by omega)]

theorem Follows.tail {ds : List ℕ} (h : Follows line a (d :: ds) v) :
    Follows line (a + d) ds (!v) := by
  intro t hat
  rw [h t (by omega), levelAt, if_neg (by omega), Nat.sub_add_eq]

end Sampling
