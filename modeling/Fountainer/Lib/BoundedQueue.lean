import Mathlib.Data.List.Basic
import Mathlib.Data.List.Infix

/-!
# Bounded queues

A queue of at most `n` entries that refuses what comes while it is full. Senders and receivers use
it in any order; `Carries` says that what was received, and then what the queue has, is what was
sent: nothing is lost, doubled or overtaken on the way.
-/

namespace BoundedQueue

variable {α : Type*} {n : ℕ}

/-- A queue with room for `n` entries, the oldest first. -/
@[ext] structure Queue (α : Type*) (n : ℕ) where
  items : List α
  bounded : items.length ≤ n
  deriving DecidableEq

namespace Queue

def empty : Queue α n := ⟨[], Nat.zero_le n⟩

/-- The queue with the entry behind the others, unless it is full. -/
def send (q : Queue α n) (a : α) : Option (Queue α n) :=
  if h : q.items.length < n then
    some ⟨q.items ++ [a], by rw [List.length_append, List.length_singleton]; omega⟩
  else none

/-- The oldest entry, and the queue without it. -/
def receive (q : Queue α n) : Option (α × Queue α n) :=
  match h : q.items with
  | [] => none
  | a :: as => some (a, ⟨as, by have := h ▸ q.bounded; simp at this; omega⟩)

theorem send_eq_none_iff {q : Queue α n} {a : α} : q.send a = none ↔ q.items.length = n := by
  have := q.bounded
  simp only [send, dite_eq_right_iff, reduceCtorEq, imp_false]
  omega

theorem send_items {q q' : Queue α n} {a : α} (h : q.send a = some q') :
    q'.items = q.items ++ [a] := by
  rw [send] at h
  split at h
  · rw [← Option.some.inj h]
  · cases h

theorem receive_eq_none_iff {q : Queue α n} : q.receive = none ↔ q.items = [] := by
  rw [receive]
  split <;> simp_all

theorem receive_items {q q' : Queue α n} {a : α} (h : q.receive = some (a, q')) :
    q.items = a :: q'.items := by
  rw [receive] at h
  split at h
  · cases h
  · rename_i heq
    cases h
    exact heq

/-- What was received, and then what the queue has, is what was sent. -/
def Carries (q : Queue α n) (sent received : List α) : Prop := sent = received ++ q.items

variable {q q' : Queue α n} {a : α} {sent received : List α}

theorem carries_empty : (empty : Queue α n).Carries [] [] := rfl

theorem Carries.send (h : q.Carries sent received) (hsend : q.send a = some q') :
    q'.Carries (sent ++ [a]) received := by
  rw [Carries, send_items hsend, ← List.append_assoc, ← show sent = received ++ q.items from h]

theorem Carries.receive (h : q.Carries sent received) (hreceive : q.receive = some (a, q')) :
    q'.Carries sent (received ++ [a]) := by
  rw [Carries, List.append_assoc, List.singleton_append, ← receive_items hreceive]
  exact h

theorem Carries.isPrefix (h : q.Carries sent received) : received <+: sent := ⟨q.items, h.symm⟩

/-- At most `n` of the sent entries are not received yet. -/
theorem Carries.length_le (h : q.Carries sent received) : sent.length ≤ received.length + n := by
  have := q.bounded
  rw [show sent = received ++ q.items from h, List.length_append]
  omega

end Queue

end BoundedQueue
