import Mathlib.Data.List.Basic
import Mathlib.Data.List.Forall2
import Mathlib.Data.List.TakeWhile
import Mathlib.Algebra.GroupWithZero.Nat

/-!
# Self-delimiting codes

A code `enc : α → List β` delimits a value when its word can be told apart from every other word
whatever follows, and where it ends. The values are those of a domain `D`. What may follow is
restricted by `E`, for words that are told to end by the symbol behind them only. Values are told
apart up to a relation `R`, for codes that write several values alike on purpose.

Texts that are only joined by a separator are no such code: it can stand in the texts as well.
They are told apart where each has as many separators in it as its counterpart.
-/

namespace Delimited

variable {α α' β : Type*}

/-- The word of `a` is met with a rest behind it only where `a` has been written, up to `R`. -/
def Delimits (D : α → Prop) (E : List β → Prop) (R : α → α → Prop) (enc : α → List β) (a : α) :
    Prop :=
  ∀ b r s, D b → E r → E s → enc a ++ r = enc b ++ s → R a b ∧ r = s

/-- What follows does not start with a symbol of the alphabet `p`. -/
def Ends (p : β → Prop) (r : List β) : Prop := ∀ b ∈ r.head?, ¬ p b

/-- Any rest, and any value. -/
def Anything (_ : α) : Prop := True

theorem ends_nil (p : β → Prop) : Ends p [] := by
  intro b hb
  cases hb

theorem ends_cons {p : β → Prop} {b : β} (h : ¬ p b) (r : List β) : Ends p (b :: r) := by
  intro c hc
  cases hc
  exact h

section

variable {D : α → Prop} {E E' : List β → Prop} {R : α → α → Prop} {enc : α → List β} {a : α}

/-- A delimiting word with nothing behind it. -/
theorem Delimits.of_eq (h : Delimits D E R enc a) (hnil : E []) {b : α} (hb : D b)
    (heq : enc a = enc b) : R a b := (h b [] [] hb hnil hnil (by rw [heq])).1

/-- A symbol in front. -/
theorem Delimits.cons (h : Delimits D E R enc a) (c : β) :
    Delimits D E R (fun a => c :: enc a) a := by
  intro b r s hb hr hs heq
  exact h b r s hb hr hs (List.cons.inj heq).2

/-- One word behind another, which ends where the second starts. -/
theorem Delimits.pair {D' : α' → Prop} {R' : α' → α' → Prop} {enc' : α' → List β} {a' : α'}
    (h : Delimits D E R enc a) (h' : Delimits D' E' R' enc' a') (hE : ∀ b' r, E (enc' b' ++ r)) :
    Delimits (fun p => D p.1 ∧ D' p.2) E' (fun p q => R p.1 q.1 ∧ R' p.2 q.2)
      (fun p : α × α' => enc p.1 ++ enc' p.2) (a, a') := by
  rintro ⟨b, b'⟩ r s ⟨hb, hb'⟩ hr hs heq
  rw [List.append_assoc, List.append_assoc] at heq
  obtain ⟨hab, hrest⟩ := h b _ _ hb (hE a' r) (hE b' s) heq
  obtain ⟨hab', hrs⟩ := h' b' r s hb' hr hs hrest
  exact ⟨⟨hab, hab'⟩, hrs⟩

/-- Words over an alphabet end where a symbol outside it follows. -/
theorem delimits_of_alphabet {p : β → Prop} (halpha : ∀ a, D a → ∀ b ∈ enc a, p b) (ha : D a)
    (hinj : ∀ b, D b → enc a = enc b → R a b) : Delimits D (Ends p) R enc a := by
  classical
  intro b r s hb hr hs heq
  have htake : ∀ c t, D c → Ends p t →
      (enc c ++ t).takeWhile (fun x => decide (p x)) = enc c := by
    intro c t hc ht
    have hempty : t.takeWhile (fun x => decide (p x)) = [] := by
      cases t with
      | nil => rfl
      | cons x t => rw [List.takeWhile_cons_of_neg (by simpa using ht x rfl)]
    rw [List.takeWhile_append_of_pos (by simpa using halpha c hc), hempty, List.append_nil]
  have hwords : enc a = enc b := by rw [← htake a r ha hr, heq, htake b s hb hs]
  rw [hwords] at heq
  exact ⟨hinj b hb hwords, List.append_cancel_left heq⟩

/-- **Sequence**: words one after the other, up to a symbol that starts none of them. -/
theorem delimits_flatMap {close : β} {xs : List α} (h : ∀ x ∈ xs, Delimits D E R enc x)
    (hxs : ∀ x ∈ xs, D x) (hclose : ∀ r, E (close :: r)) (hnext : ∀ x r, D x → E (enc x ++ r))
    (hstart : ∀ x r, D x → (enc x ++ r).head? ≠ some close) :
    Delimits (fun ys => ∀ y ∈ ys, D y) Anything (List.Forall₂ R)
      (fun xs => xs.flatMap enc ++ [close]) xs := by
  intro ys r s hys _ _ heq
  rw [List.append_assoc, List.append_assoc] at heq
  induction xs generalizing ys with
  | nil =>
    cases ys with
    | nil => exact ⟨.nil, (List.cons.inj heq).2⟩
    | cons y ys =>
      have hhead := congrArg List.head? heq
      rw [List.flatMap_cons, List.append_assoc] at hhead
      exact absurd hhead.symm (hstart y _ (hys y List.mem_cons_self))
  | cons x xs ih =>
    obtain ⟨hx, hxs⟩ := List.forall_mem_cons.mp hxs
    cases ys with
    | nil =>
      have hhead := congrArg List.head? heq
      rw [List.flatMap_cons, List.append_assoc] at hhead
      exact absurd hhead (hstart x _ hx)
    | cons y ys =>
      obtain ⟨hy, hys⟩ := List.forall_mem_cons.mp hys
      have hE : ∀ (zs : List α) t, (∀ z ∈ zs, D z) → E (zs.flatMap enc ++ ([close] ++ t)) := by
        intro zs t hzs
        cases zs with
        | nil => exact hclose t
        | cons z zs =>
          rw [List.flatMap_cons, List.append_assoc]
          exact hnext z _ (hzs z List.mem_cons_self)
      rw [List.flatMap_cons, List.flatMap_cons, List.append_assoc, List.append_assoc] at heq
      obtain ⟨hxy, hrest⟩ := h x List.mem_cons_self y _ _ hy (hE xs r hxs) (hE ys s hys) heq
      obtain ⟨hxys, hrs⟩ := ih (fun z hz => h z (List.mem_cons_of_mem _ hz)) hxs ys hys hrest
      exact ⟨.cons hxy hxys, hrs⟩

theorem intercalate_cons (sep : β) (enc : α → List β) (x : α) (xs : List α) :
    [sep].intercalate ((x :: xs).map enc) = enc x ++ xs.flatMap fun y => sep :: enc y := by
  induction xs generalizing x with
  | nil => simp [List.intercalate]
  | cons y ys ih =>
    rw [List.flatMap_cons, List.cons_append, ← ih y]
    simp [List.intercalate]

/-- **Separated list**: words with a separator between them, up to a closing symbol. -/
theorem delimits_intercalate (sep close : β) {xs : List α}
    (h : ∀ x ∈ xs, Delimits D E R enc x) (hxs : ∀ x ∈ xs, D x) (hsep : ∀ r, E (sep :: r))
    (hclose : ∀ r, E (close :: r)) (hne : sep ≠ close)
    (hstart : ∀ x r, D x → (enc x ++ r).head? ≠ some close) :
    Delimits (fun ys => ∀ y ∈ ys, D y) Anything (List.Forall₂ R)
      (fun xs => [sep].intercalate (xs.map enc) ++ [close]) xs := by
  intro ys r s hys _ _ heq
  dsimp only at heq
  cases xs with
  | nil =>
    cases ys with
    | nil => exact ⟨.nil, (List.cons.inj heq).2⟩
    | cons y ys =>
      have hhead := congrArg List.head? heq
      simp only [intercalate_cons, List.map_nil, List.intercalate_nil, List.nil_append,
        List.append_assoc] at hhead
      exact (hstart y _ (hys y List.mem_cons_self) hhead.symm).elim
  | cons x xs =>
    obtain ⟨hx, hxs⟩ := List.forall_mem_cons.mp hxs
    cases ys with
    | nil =>
      have hhead := congrArg List.head? heq
      simp only [intercalate_cons, List.map_nil, List.intercalate_nil, List.nil_append,
        List.append_assoc] at hhead
      exact (hstart x _ hx hhead).elim
    | cons y ys =>
      obtain ⟨hy, hys⟩ := List.forall_mem_cons.mp hys
      have htail : Delimits (fun zs => ∀ z ∈ zs, D z) Anything (List.Forall₂ R)
          (fun zs : List α => zs.flatMap (fun z => sep :: enc z) ++ [close]) xs :=
        delimits_flatMap (fun z hz => (h z (List.mem_cons_of_mem _ hz)).cons sep) hxs hclose
          (fun z r _ => hsep _) fun z r _ hz => hne (Option.some.inj hz)
      have hE : ∀ (zs : List α) t,
          E ((zs.flatMap (fun z => sep :: enc z) ++ [close]) ++ t) := by
        intro zs t
        cases zs with
        | nil => exact hclose t
        | cons z zs => exact hsep _
      rw [intercalate_cons, intercalate_cons, List.append_assoc, List.append_assoc,
        List.append_assoc, List.append_assoc, ← List.append_assoc _ [close],
        ← List.append_assoc _ [close]] at heq
      obtain ⟨hxy, hrest⟩ := h x List.mem_cons_self y _ _ hy (hE xs r) (hE ys s) heq
      obtain ⟨hxys, hrs⟩ := htail ys r s hys trivial trivial hrest
      exact ⟨.cons hxy hxys, hrs⟩

end

theorem intercalate_cons_cons (sep : β) (x y : List β) (xs : List (List β)) :
    [sep].intercalate (x :: y :: xs) = x ++ sep :: [sep].intercalate (y :: xs) := by
  simp [List.intercalate]

section

variable [DecidableEq β] {sep : β}

/-- The first of two joined texts is found by the number of separators in it. -/
theorem append_sep_inj {x y r s : List β} (hcount : x.count sep = y.count sep)
    (h : x ++ sep :: r = y ++ sep :: s) : x = y ∧ r = s := by
  induction x generalizing y with
  | nil =>
    cases y with
    | nil => exact ⟨rfl, (List.cons.inj h).2⟩
    | cons b y =>
      obtain ⟨rfl, -⟩ := List.cons.inj h
      rw [List.count_nil, List.count_cons_self] at hcount
      omega
  | cons a x ih =>
    cases y with
    | nil =>
      obtain ⟨rfl, -⟩ := List.cons.inj h
      rw [List.count_nil, List.count_cons_self] at hcount
      omega
    | cons b y =>
      obtain ⟨rfl, htail⟩ := List.cons.inj h
      rw [List.count_cons, List.count_cons] at hcount
      obtain ⟨rfl, hrest⟩ := ih (by omega) htail
      exact ⟨rfl, hrest⟩

/-- **Joined texts**: texts that are joined alike are the same, if each has as many separators in
    it as its counterpart. -/
theorem intercalate_inj {xs ys : List (List β)}
    (hcount : xs.map (List.count sep) = ys.map (List.count sep))
    (h : [sep].intercalate xs = [sep].intercalate ys) : xs = ys := by
  induction xs generalizing ys with
  | nil => exact (List.map_eq_nil_iff.mp hcount.symm).symm
  | cons x xs ih =>
    cases ys with
    | nil => cases hcount
    | cons y ys =>
      obtain ⟨hxy, hcounts⟩ := List.cons.inj hcount
      cases xs with
      | nil =>
        obtain rfl : ys = [] := List.map_eq_nil_iff.mp hcounts.symm
        rw [List.intercalate_singleton, List.intercalate_singleton] at h
        rw [h]
      | cons x' xs =>
        cases ys with
        | nil => cases hcounts
        | cons y' ys =>
          rw [intercalate_cons_cons, intercalate_cons_cons] at h
          obtain ⟨rfl, hrest⟩ := append_sep_inj hxy h
          rw [ih hcounts hrest]

theorem count_intercalate (x : List β) (xs : List (List β)) :
    ([sep].intercalate (x :: xs)).count sep =
      ((x :: xs).map (List.count sep)).sum + xs.length := by
  induction xs generalizing x with
  | nil => simp
  | cons y xs ih =>
    rw [intercalate_cons_cons, List.count_append, List.count_cons_self, ih]
    simp only [List.map_cons, List.sum_cons, List.length_cons]
    omega

/-- Joined alike, as many texts as there are without a separator have none either. -/
theorem counts_eq_of_free {xs ys : List (List β)} (hlen : xs.length = ys.length)
    (hfree : ∀ x ∈ xs, sep ∉ x) (h : [sep].intercalate xs = [sep].intercalate ys) :
    xs.map (List.count sep) = ys.map (List.count sep) := by
  have hzero : ∀ zs : List (List β), (zs.map (List.count sep)).sum = 0 →
      zs.map (List.count sep) = List.replicate zs.length 0 := by
    intro zs hzs
    exact List.eq_replicate_iff.mpr
      ⟨List.length_map _, List.sum_eq_zero_iff_forall_eq_nat.mp hzs⟩
  cases xs with
  | nil => rw [List.eq_nil_of_length_eq_zero hlen.symm]
  | cons x xs =>
    cases ys with
    | nil => cases hlen
    | cons y ys =>
      have hx : ((x :: xs).map (List.count sep)).sum = 0 := by
        refine List.sum_eq_zero_iff_forall_eq_nat.mpr fun n hn => ?_
        obtain ⟨z, hz, rfl⟩ := List.mem_map.mp hn
        exact List.count_eq_zero.mpr (hfree z hz)
      have hcount := congrArg (List.count sep) h
      rw [count_intercalate, count_intercalate, hx] at hcount
      have hlen' : xs.length = ys.length := Nat.succ.inj hlen
      rw [hzero _ hx, hzero _ (by omega), hlen]

end

end Delimited
