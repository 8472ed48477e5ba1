import Mathlib.Data.List.Basic

/-!
# Growing traces

A system that records what it does appends to a trace. `Grows P xs ys` says that `ys`
is `xs` with entries behind it that all satisfy `P`; the relation composes, so what a
call records follows from what its parts record.
-/

namespace Traces

variable {α β : Type*} {P Q : α → Prop} {xs ys zs : List α}

/-- `ys` is `xs` followed by entries that satisfy `P`. -/
def Grows (P : α → Prop) (xs ys : List α) : Prop := ∃ new, ys = xs ++ new ∧ ∀ a ∈ new, P a

theorem Grows.refl (P : α → Prop) (xs : List α) : Grows P xs xs :=
  ⟨[], by simp, by simp⟩

theorem Grows.of_eq (h : ys = xs) : Grows P xs ys := h ▸ Grows.refl P xs

theorem Grows.trans (h : Grows P xs ys) (h' : Grows P ys zs) : Grows P xs zs := by
  obtain ⟨new, rfl, hnew⟩ := h
  obtain ⟨new', rfl, hnew'⟩ := h'
  refine ⟨new ++ new', List.append_assoc _ _ _, fun a ha => ?_⟩
  rcases List.mem_append.mp ha with ha | ha
  · exact hnew a ha
  · exact hnew' a ha

theorem Grows.mono (h : Grows P xs ys) (hPQ : ∀ a, P a → Q a) : Grows Q xs ys := by
  obtain ⟨new, rfl, hnew⟩ := h
  exact ⟨new, rfl, fun a ha => hPQ a (hnew a ha)⟩

/-- Entries appended one by one. -/
theorem Grows.append (h : Grows P xs ys) {new : List α} (hnew : ∀ a ∈ new, P a) :
    Grows P xs (ys ++ new) :=
  h.trans ⟨new, rfl, hnew⟩

theorem Grows.concat (h : Grows P xs ys) {a : α} (ha : P a) : Grows P xs (ys ++ [a]) :=
  h.append (by simpa using ha)

/-- From the empty trace every entry satisfies `P`. -/
theorem Grows.forall_mem (h : Grows P [] ys) : ∀ a ∈ ys, P a := by
  obtain ⟨new, rfl, hnew⟩ := h
  simpa using hnew

/-- A loop records what its turns record, as long as an invariant `I` holds. -/
theorem Grows.foldl {σ : Type*} (out : σ → List α) {f : σ → β → σ} (I : σ → Prop) {bs : List β}
    (hf : ∀ s b, I s → I (f s b) ∧ Grows P (out s) (out (f s b))) {s : σ} (hs : I s) :
    I (bs.foldl f s) ∧ Grows P (out s) (out (bs.foldl f s)) := by
  induction bs generalizing s with
  | nil => exact ⟨hs, Grows.refl P _⟩
  | cons b bs ih =>
    obtain ⟨hI, hgrow⟩ := hf s b hs
    obtain ⟨hI', hgrow'⟩ := ih hI
    exact ⟨hI', hgrow.trans hgrow'⟩

end Traces
