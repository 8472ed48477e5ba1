import Mathlib.Tactic.Common

/-!
# Programs that can be stopped half-way

A program `EStateM ε σ α` changes a state and returns a value, or it stops for a reason `ε` and
leaves the state as it is at that moment: a power loss between two writes, a fault.
`Wp x Q E s` says that from `s` the program returns with `Q` or stops with `E`; what `E` says
about the durable part of the state is what the next start finds. The rules compute `Wp` along
the program, so that a proof meets its primitive operations only.
-/

namespace Outage

variable {ε σ α β : Type}

/-- From the state, the program returns with `Q` or stops with `E`. -/
def Wp (x : EStateM ε σ α) (Q : α → σ → Prop) (E : ε → σ → Prop) (s : σ) : Prop :=
  match x s with
  | .ok a s' => Q a s'
  | .error e s' => E e s'

variable {Q Q' : α → σ → Prop} {R : β → σ → Prop} {E E' : ε → σ → Prop} {s : σ}

/-- **Consequence rule.** -/
theorem Wp.mono {x : EStateM ε σ α} (h : Wp x Q E s) (hpost : ∀ a s, Q a s → Q' a s)
    (hstop : ∀ e s, E e s → E' e s) : Wp x Q' E' s := by
  rw [Wp] at h ⊢
  split at h
  · exact hpost _ _ h
  · exact hstop _ _ h

/-- **Conjunction rule.** -/
theorem Wp.and {x : EStateM ε σ α} (h : Wp x Q E s) (h' : Wp x Q' E' s) :
    Wp x (fun a s => Q a s ∧ Q' a s) (fun e s => E e s ∧ E' e s) s := by
  rw [Wp] at h h' ⊢
  cases hx : x s <;> (rw [hx] at h h'; exact ⟨h, h'⟩)

@[simp] theorem wp_pure (a : α) : Wp (pure a) Q E s ↔ Q a s := Iff.rfl

/-- **Sequence rule**: a stop of the first part is a stop of the whole. -/
@[simp] theorem wp_bind (x : EStateM ε σ α) (f : α → EStateM ε σ β) :
    Wp (x >>= f) R E s ↔ Wp x (fun a => Wp (f a) R E) E s := by
  rw [Wp, Wp, show (x >>= f) s = match x s with
    | .ok a s' => f a s'
    | .error e s' => .error e s' from rfl]
  cases x s <;> rfl

@[simp] theorem wp_map (f : α → β) (x : EStateM ε σ α) :
    Wp (f <$> x) R E s ↔ Wp x (fun a => R (f a)) E s := by
  rw [Wp, Wp, show (f <$> x) s = match x s with
    | .ok a s' => .ok (f a) s'
    | .error e s' => .error e s' from rfl]
  cases x s <;> rfl

@[simp] theorem wp_get {Q : σ → σ → Prop} : Wp (get : EStateM ε σ σ) Q E s ↔ Q s s := Iff.rfl

@[simp] theorem wp_modify {Q : Unit → σ → Prop} (f : σ → σ) :
    Wp (modify f : EStateM ε σ Unit) Q E s ↔ Q () (f s) := Iff.rfl

@[simp] theorem wp_throw (e : ε) : Wp (throw e : EStateM ε σ α) Q E s ↔ E e s := Iff.rfl

@[simp] theorem wp_ite {c : Prop} [Decidable c] (x y : EStateM ε σ α) :
    Wp (if c then x else y) Q E s ↔ if c then Wp x Q E s else Wp y Q E s := by
  split_ifs <;> rfl

/-- A program that stops does not return. -/
theorem error_ne_ok {e : ε} {a : α} {s s' : σ} :
    (EStateM.Result.error e s : EStateM.Result ε σ α) ≠ .ok a s' := by
  intro h
  cases h

/-- What the program returns, when it does. -/
theorem Wp.of_ok {x : EStateM ε σ α} (h : Wp x Q E s) {a : α} {s' : σ} (hrun : x s = .ok a s') :
    Q a s' := by
  rwa [Wp, hrun] at h

/-- What the program leaves behind, when it stops. -/
theorem Wp.of_error {x : EStateM ε σ α} (h : Wp x Q E s) {e : ε} {s' : σ}
    (hrun : x s = .error e s') : E e s' := by
  rwa [Wp, hrun] at h

/-- A program that cannot stop returns. -/
theorem Wp.exists_ok {x : EStateM ε σ α} (h : Wp x Q (fun _ _ => False) s) :
    ∃ a s', x s = .ok a s' ∧ Q a s' := by
  rw [Wp] at h
  split at h
  · next a s' hrun => exact ⟨a, s', hrun, h⟩
  · exact h.elim

/-- A program that cannot return stops. -/
theorem Wp.exists_error {x : EStateM ε σ α} (h : Wp x (fun _ _ => False) E s) :
    ∃ e s', x s = .error e s' ∧ E e s' := by
  rw [Wp] at h
  split at h
  · exact h.elim
  · next e s' hrun => exact ⟨e, s', hrun, h⟩

end Outage
