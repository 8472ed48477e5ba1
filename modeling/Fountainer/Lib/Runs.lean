import Mathlib.Data.List.Basic
import Mathlib.Data.List.Infix
import Mathlib.Order.Monotone.Basic

/-!
# Runs of a deterministic machine

A machine is a step function `step : σ → α → σ`; a run folds it over a list of
inputs. This file has the invariant rules for runs and `collect`, which lists
what an observer notes along a run. The rules are stated for inputs appended at
the end, the way a system takes step after step.
-/

namespace Machine

variable {σ α β : Type*} (step : σ → α → σ)

/-- The state after the inputs `as`. -/
def run (s : σ) (as : List α) : σ := as.foldl step s

@[simp] theorem run_nil (s : σ) : run step s [] = s := rfl

@[simp] theorem run_cons (s : σ) (a : α) (as : List α) :
    run step s (a :: as) = run step (step s a) as := rfl

theorem run_append (s : σ) (as bs : List α) :
    run step s (as ++ bs) = run step (run step s as) bs :=
  List.foldl_append

@[simp] theorem run_concat (s : σ) (as : List α) (a : α) :
    run step s (as ++ [a]) = step (run step s as) a := by
  rw [run_append]; rfl

theorem run_take_succ {s : σ} {as : List α} {i : ℕ} {a : α} (h : as[i]? = some a) :
    run step s (as.take (i + 1)) = step (run step s (as.take i)) a := by
  rw [List.take_add_one, h, Option.toList_some, run_concat]

/-- A measure that no step lowers is monotone along a run. -/
theorem run_take_mono {γ : Type*} [Preorder γ] {f : σ → γ} (hstep : ∀ s a, f s ≤ f (step s a))
    (s : σ) (as : List α) : Monotone fun i => f (run step s (as.take i)) := by
  refine monotone_nat_of_le_succ fun i => ?_
  cases h : as[i]? with
  | none => rw [List.take_add_one, h, Option.toList_none, List.append_nil]
  | some a => exact (run_take_succ step h).symm ▸ hstep _ a

/-- **Invariant rule**: what every step preserves holds after every run. -/
theorem run_invariant {P : σ → Prop} (hstep : ∀ s a, P s → P (step s a))
    {s : σ} (hs : P s) (as : List α) : P (run step s as) := by
  induction as generalizing s with
  | nil => exact hs
  | cons a as ih => exact ih (hstep s a hs)

/-- **Guarded invariant rule**: the steps of the run need only preserve `P`
    where the guard `G` on state and input holds, and the run stays inside `G`. -/
theorem run_invariant_of_guard {P : σ → Prop} {G : σ → α → Prop}
    (hstep : ∀ s a, G s a → P s → P (step s a)) {s : σ} (hs : P s) (as : List α)
    (hG : ∀ pre a post, as = pre ++ a :: post → G (run step s pre) a) :
    P (run step s as) := by
  induction as using List.reverseRecOn with
  | nil => exact hs
  | append_singleton as a ih =>
    rw [run_concat]
    refine hstep _ a (hG as a [] rfl) (ih ?_)
    intro pre b post h
    exact hG pre b (post ++ [a]) (by rw [h]; simp)

/-- **Rank rule**: outside `P` every step reaches `P` or lowers the rank, and no
    step leaves `P`; so a run that is not in `P` yet has used up rank. -/
theorem run_rank {I P : σ → Prop} {G : α → Prop} {rank : σ → ℕ}
    (hinv : ∀ s a, I s → I (step s a)) (hkeep : ∀ s a, G a → P s → P (step s a))
    (hdrop : ∀ s a, I s → G a → ¬ P (step s a) → rank (step s a) < rank s)
    {s : σ} (hs : I s) (as : List α) (has : ∀ a ∈ as, G a) :
    P (run step s as) ∨ rank (run step s as) + as.length ≤ rank s := by
  induction as using List.reverseRecOn with
  | nil => exact .inr (Nat.le_refl _)
  | append_singleton as a ih =>
    have ha : G a := has a (by simp)
    rw [run_concat]
    rcases ih fun b hb => has b (List.mem_append_left _ hb) with hP | hrank
    · exact .inl (hkeep _ a ha hP)
    · by_cases hP : P (step (run step s as) a)
      · exact .inl hP
      · have hlt := hdrop _ a (run_invariant step hinv hs as) ha hP
        rw [List.length_append, List.length_singleton]
        exact .inr (by omega)

/-- **Counted rank rule**: under an invariant no step raises the rank outside `P` or leaves `P`, and
    the steps marked by `D` lower it; so a run with as many of these as the rank reaches `P`. -/
theorem run_rank_of_count {I P : σ → Prop} {D : α → Bool} {rank : σ → ℕ}
    (hinv : ∀ s a, I s → I (step s a)) (hkeep : ∀ s a, I s → P s → P (step s a))
    (hle : ∀ s a, I s → ¬ P (step s a) → rank (step s a) ≤ rank s)
    (hdrop : ∀ s a, I s → D a → ¬ P (step s a) → rank (step s a) < rank s)
    {s : σ} (hs : I s) (as : List α) :
    P (run step s as) ∨ rank (run step s as) + as.countP D ≤ rank s := by
  induction as using List.reverseRecOn with
  | nil => exact .inr (Nat.le_refl _)
  | append_singleton as a ih =>
    have hI := run_invariant step hinv hs as
    rw [run_concat]
    rcases ih with hP | hrank
    · exact .inl (hkeep _ a hI hP)
    · by_cases hP : P (step (run step s as) a)
      · exact .inl hP
      · right
        rw [List.countP_append, List.countP_singleton]
        by_cases hD : D a
        · have hlt := hdrop _ a hI hD hP
          rw [if_pos hD]
          omega
        · have := hle _ a hI hP
          rw [if_neg hD]
          omega

/-- Every step of the run meets the guard in the state it starts from. -/
def Guarded (G : σ → α → Prop) : σ → List α → Prop
  | _, [] => True
  | s, a :: as => G s a ∧ Guarded G (step s a) as

instance Guarded.decidable (G : σ → α → Prop) [∀ s a, Decidable (G s a)] :
    ∀ s as, Decidable (Guarded step G s as)
  | _, [] => inferInstanceAs (Decidable True)
  | s, a :: as =>
    have := Guarded.decidable G (step s a) as
    inferInstanceAs (Decidable (G s a ∧ Guarded step G (step s a) as))

/-- The guarded invariant rule for a run whose steps all meet the guard. -/
theorem Guarded.invariant {P : σ → Prop} {G : σ → α → Prop}
    (hstep : ∀ s a, G s a → P s → P (step s a)) {s : σ} {as : List α}
    (hG : Guarded step G s as) (hs : P s) : P (run step s as) := by
  induction as generalizing s with
  | nil => exact hs
  | cons a as ih => exact ih hG.2 (hstep s a hG.1 hs)

theorem guarded_append (G : σ → α → Prop) (s : σ) (as bs : List α) :
    Guarded step G s (as ++ bs) ↔ Guarded step G s as ∧ Guarded step G (run step s as) bs := by
  induction as generalizing s with
  | nil => simp [Guarded]
  | cons a as ih => simp [Guarded, ih, and_assoc]

/-- A guarded run, input by input. -/
theorem guarded_iff_forall {G : σ → α → Prop} {s : σ} {as : List α} :
    Guarded step G s as ↔ ∀ i a, as[i]? = some a → G (run step s (as.take i)) a := by
  induction as generalizing s with
  | nil => simp [Guarded]
  | cons a as ih =>
    rw [Guarded, ih]
    constructor
    · rintro ⟨ha, has⟩ i b hb
      cases i with
      | zero => rwa [← Option.some.inj hb]
      | succ i => exact has i b hb
    · intro h
      exact ⟨h 0 a rfl, fun i b hb => h (i + 1) b hb⟩

/-- Two guards that agree where an invariant holds are met by the same runs. -/
theorem Guarded.congr {P : σ → Prop} {G G' : σ → α → Prop} (hstep : ∀ s a, P s → P (step s a))
    (hG : ∀ s a, P s → (G s a ↔ G' s a)) {s : σ} (hs : P s) (as : List α) :
    Guarded step G s as ↔ Guarded step G' s as := by
  induction as generalizing s with
  | nil => exact Iff.rfl
  | cons a as ih => exact and_congr (hG s a hs) (ih (hstep s a hs))

/-- Under an invariant, a run inside one guard is inside the guards that it implies. -/
theorem Guarded.imp {P : σ → Prop} {G H : σ → α → Prop}
    (hstep : ∀ s a, G s a → P s → P (step s a)) (himp : ∀ s a, G s a → P s → H s a)
    {s : σ} {as : List α} (hG : Guarded step G s as) (hs : P s) : Guarded step H s as := by
  induction as generalizing s with
  | nil => exact trivial
  | cons a as ih => exact ⟨himp s a hG.1 hs, ih hG.2 (hstep s a hG.1 hs)⟩

/-- What the observer `note` records along the run, in order. -/
def collect (note : σ → α → σ → Option β) : σ → List α → List β
  | _, [] => []
  | s, a :: as => (note s a (step s a)).toList ++ collect note (step s a) as

@[simp] theorem collect_nil (note : σ → α → σ → Option β) (s : σ) :
    collect step note s [] = [] := rfl

theorem collect_append (note : σ → α → σ → Option β) (s : σ) (as bs : List α) :
    collect step note s (as ++ bs) =
      collect step note s as ++ collect step note (run step s as) bs := by
  induction as generalizing s with
  | nil => rfl
  | cons a as ih => simp [collect, ih]

@[simp] theorem collect_concat (note : σ → α → σ → Option β) (s : σ) (as : List α) (a : α) :
    collect step note s (as ++ [a]) = collect step note s as ++
      (note (run step s as) a (step (run step s as) a)).toList := by
  simp [collect_append, collect]

/-- **Traced invariant rule**: an invariant on the state and what has been noted so far. -/
theorem Guarded.invariant_collect {note : σ → α → σ → Option β} {P : σ → List β → Prop}
    {G : σ → α → Prop}
    (hstep : ∀ s bs a, G s a → P s bs → P (step s a) (bs ++ (note s a (step s a)).toList))
    {s : σ} (hs : P s []) (as : List α) (hG : Guarded step G s as) :
    P (run step s as) (collect step note s as) := by
  induction as using List.reverseRecOn with
  | nil => exact hs
  | append_singleton as a ih =>
    obtain ⟨hG, hGa, -⟩ := (guarded_append step G s as [a]).mp hG
    rw [run_concat, collect_concat]
    exact hstep _ _ a hGa (ih hG)

end Machine
