import Fountainer.Lib.BoundedQueue
import Fountainer.Lib.Runs
import Fountainer.Protocol.Session
import Mathlib.Data.Multiset.Range

/-!
# The transmit path

The queue of `fp_task.c`: every task that sends hands its frame over with `tx_enqueue_owned`, and
`tx_task` alone ships the frames. The frame belongs to whoever has it, who frees it. A handing over,
the receipt of a frame and its shipping are one step each.
-/

namespace Fountainer.Protocol

open BoundedQueue (Queue)
open Datapoints (Json)

def FP_TXQ_DEPTH : ℕ := 8

/-- A frame in memory of its own, the `id`-th that was allocated. -/
structure TxFrame where
  id : ℕ
  json : Json

/-- The queue, the frame that `tx_task` has and the counters; for the statements also the number of
    the allocated frames, those that the queue took, those shipped with the answers of `fp_ws_send`,
    and those freed. -/
structure TxPath where
  txq : Queue TxFrame FP_TXQ_DEPTH
  json : Option TxFrame
  txOk : UInt32
  txFail : UInt32
  frames : ℕ
  queued : List TxFrame
  shipped : List (TxFrame × Bool)
  freed : List ℕ

def txBoot : TxPath where
  txq := .empty
  json := none
  txOk := 0
  txFail := 0
  frames := 0
  queued := []
  shipped := []
  freed := []

/-- `tx_enqueue_owned` of a frame, or of the null pointer where there was no memory for it; `none`
    while it waits for room. `expired` tells whether its second of waiting is over. -/
def txEnqueueOwned (t : TxPath) (json : Option Json) (expired : Bool) : Option TxPath :=
  match json with
  | none => some t
  | some j =>
    let f : TxFrame := ⟨t.frames, j⟩
    match t.txq.send f with
    | some txq => some { t with txq := txq, frames := t.frames + 1, queued := t.queued ++ [f] }
    | none =>
      if expired then some { t with frames := t.frames + 1, freed := t.freed ++ [f.id] } else none

/-- The next step of `tx_task_fn`: `xQueueReceive`, or `fp_ws_send` with this answer and `free`. -/
def txTaskStep (t : TxPath) (sent : Bool) : TxPath :=
  match t.json with
  | none =>
    match t.txq.receive with
    | none => t
    | some (f, txq) => { t with txq := txq, json := some f }
  | some f =>
    { t with
      json := none
      txOk := if sent then t.txOk + 1 else t.txOk
      txFail := if sent then t.txFail else t.txFail + 1
      shipped := t.shipped ++ [(f, sent)]
      freed := t.freed ++ [f.id] }

/-- A step of a sender or of `tx_task`. -/
inductive TxOp where
  | enqueue (json : Option Json) (expired : Bool)
  | tx (sent : Bool)

/-- The step is one of `tx_task`. -/
def TxOp.isTx : TxOp → Bool
  | .tx _ => true
  | .enqueue _ _ => false

def txStep (t : TxPath) : TxOp → TxPath
  | .enqueue json expired => (txEnqueueOwned t json expired).getD t
  | .tx sent => txTaskStep t sent

/-- The transmit path after the steps of its senders and of `tx_task`. -/
def txRun (ops : List TxOp) : TxPath := Machine.run txStep txBoot ops

/-- How many frames have left the device. -/
def TxPath.oks (t : TxPath) : ℕ := t.shipped.countP Prod.snd

/-- How many frames could not be sent. -/
def TxPath.fails (t : TxPath) : ℕ := t.shipped.countP fun p => !p.2

-- ════════════════════════════════════════════════════════════════════════
-- Every frame
-- ════════════════════════════════════════════════════════════════════════

/-- Where every frame is: those that the queue took were shipped, or `tx_task` has them, or they
    wait, in the order in which they came; every allocated frame is freed once, unless it is one of
    those that are still there; and the counters count the answers. -/
structure TxPath.Accounted (t : TxPath) : Prop where
  fifo : t.queued = t.shipped.map Prod.fst ++ (t.json.toList ++ t.txq.items)
  freed : (t.freed : Multiset ℕ) + ((t.json.toList ++ t.txq.items).map TxFrame.id : List ℕ) =
    Multiset.range t.frames
  txOk : t.txOk = UInt32.ofNat t.oks
  txFail : t.txFail = UInt32.ofNat t.fails

theorem accounted_txBoot : txBoot.Accounted := ⟨rfl, rfl, rfl, rfl⟩

/-- What `tx_enqueue_owned` does. -/
theorem txEnqueueOwned_cases (t : TxPath) (json : Option Json) (expired : Bool) :
    (txEnqueueOwned t json expired = none ∧ expired = false) ∨
      txEnqueueOwned t json expired = some t ∨
      ∃ j, (∃ txq, t.txq.send ⟨t.frames, j⟩ = some txq ∧
          txEnqueueOwned t json expired = some
            { t with txq := txq, frames := t.frames + 1, queued := t.queued ++ [⟨t.frames, j⟩] }) ∨
        txEnqueueOwned t json expired =
          some { t with frames := t.frames + 1, freed := t.freed ++ [t.frames] } := by
  unfold txEnqueueOwned
  cases json with
  | none => exact .inr (.inl rfl)
  | some j =>
    cases hq : t.txq.send ⟨t.frames, j⟩ with
    | some txq => exact .inr (.inr ⟨j, .inl ⟨txq, hq, by simp [hq]⟩⟩)
    | none =>
      cases expired with
      | true => exact .inr (.inr ⟨j, .inr (by simp [hq])⟩)
      | false => exact .inl ⟨by simp [hq], rfl⟩

theorem TxPath.Accounted.enqueue {t t' : TxPath} (h : t.Accounted) {json : Option Json}
    {expired : Bool} (ht : txEnqueueOwned t json expired = some t') : t'.Accounted := by
  rcases txEnqueueOwned_cases t json expired with
    ⟨hnone, -⟩ | hsame | ⟨j, ⟨txq, hsend, hqueued⟩ | hdropped⟩
  · rw [hnone] at ht
    cases ht
  · rw [hsame] at ht
    exact Option.some.inj ht ▸ h
  · rw [hqueued] at ht
    rw [← Option.some.inj ht]
    have hitems := Queue.send_items hsend
    refine ⟨?_, ?_, h.txOk, h.txFail⟩
    · simp only [hitems, h.fifo, List.append_assoc]
    · simp only [hitems]
      rw [Multiset.range_succ, ← h.freed, ← List.append_assoc, List.map_append, ← Multiset.coe_add,
        List.map_singleton, Multiset.coe_singleton, ← add_assoc, Multiset.add_comm _ {t.frames},
        Multiset.singleton_add]
  · rw [hdropped] at ht
    rw [← Option.some.inj ht]
    refine ⟨h.fifo, ?_, h.txOk, h.txFail⟩
    simp only
    rw [Multiset.range_succ, ← h.freed, ← Multiset.coe_add, Multiset.coe_singleton,
      add_right_comm, Multiset.add_comm _ {t.frames}, Multiset.singleton_add]

theorem TxPath.Accounted.tx {t : TxPath} (h : t.Accounted) (sent : Bool) :
    (txTaskStep t sent).Accounted := by
  unfold txTaskStep
  have hfifo := h.fifo
  have hfreed := h.freed
  cases hjson : t.json with
  | none =>
    cases hreceive : t.txq.receive with
    | none => exact h
    | some p =>
      rw [hjson, Option.toList_none, List.nil_append, Queue.receive_items hreceive] at hfifo hfreed
      exact ⟨hfifo, hfreed, h.txOk, h.txFail⟩
  | some f =>
    rw [hjson, Option.toList_some, List.singleton_append] at hfifo hfreed
    refine ⟨?_, ?_, ?_, ?_⟩
    · simp [hfifo]
    · rw [← hfreed, ← Multiset.coe_add]
      simp [add_assoc]
    · cases sent <;> simp [TxPath.oks, h.txOk]
    · cases sent <;> simp [TxPath.fails, h.txFail]

theorem TxPath.Accounted.step {t : TxPath} (h : t.Accounted) (op : TxOp) :
    (txStep t op).Accounted := by
  cases op with
  | enqueue json expired =>
    rw [txStep]
    cases ht : txEnqueueOwned t json expired with
    | none => exact h
    | some t' => exact h.enqueue ht
  | tx sent => exact h.tx sent

theorem txRun_accounted (ops : List TxOp) : (txRun ops).Accounted :=
  Machine.run_invariant txStep (fun _ op h => h.step op) accounted_txBoot ops

/-- The frame that the queue took at the place `i` is there. -/
def TxPath.Took (i : ℕ) (t : TxPath) : Prop := t.Accounted ∧ i < t.queued.length

/-- The steps of `tx_task` before that frame is shipped. -/
def TxPath.toShip (i : ℕ) (t : TxPath) : ℕ := 2 * (i + 1 - t.shipped.length) - t.json.toList.length

theorem txRun_append (ops more : List TxOp) :
    txRun (ops ++ more) = Machine.run txStep (txRun ops) more :=
  Machine.run_append _ _ _ _

theorem txStep_queued (t : TxPath) (op : TxOp) : t.queued <+: (txStep t op).queued := by
  cases op with
  | enqueue json expired =>
    rw [txStep]
    rcases txEnqueueOwned_cases t json expired with ⟨h, -⟩ | h | ⟨j, ⟨txq, -, h⟩ | h⟩ <;> rw [h]
    · exact List.prefix_refl _
    · exact List.prefix_refl _
    · exact List.prefix_append _ _
    · exact List.prefix_refl _
  | tx sent =>
    rw [txStep, txTaskStep]
    cases t.json with
    | none => cases t.txq.receive <;> exact List.prefix_refl _
    | some f => exact List.prefix_refl _

theorem TxPath.Took.step {i : ℕ} {t : TxPath} (h : t.Took i) (op : TxOp) : (txStep t op).Took i :=
  ⟨h.1.step op, h.2.trans_le (txStep_queued t op).length_le⟩

/-- A sender leaves what `tx_task` has done. -/
theorem txStep_enqueue_frame (t : TxPath) (json : Option Json) (expired : Bool) :
    (txStep t (.enqueue json expired)).shipped = t.shipped ∧
      (txStep t (.enqueue json expired)).json = t.json := by
  rw [txStep]
  rcases txEnqueueOwned_cases t json expired with ⟨h, -⟩ | h | ⟨j, ⟨txq, -, h⟩ | h⟩ <;>
    rw [h] <;> exact ⟨rfl, rfl⟩

/-- A step of `tx_task` before the frame is shipped. -/
theorem TxPath.Took.tx_lt {i : ℕ} {t : TxPath} (h : t.Took i) (sent : Bool)
    (hnot : ¬ i < (txTaskStep t sent).shipped.length) :
    (txTaskStep t sent).toShip i < t.toShip i := by
  have hlength := congrArg List.length h.1.fifo
  rw [List.length_append, List.length_map, List.length_append] at hlength
  have htook := h.2
  unfold txTaskStep at hnot ⊢
  cases hjson : t.json with
  | none =>
    rw [hjson] at hnot hlength
    cases hreceive : t.txq.receive with
    | none =>
      rw [hreceive] at hnot
      rw [Queue.receive_eq_none_iff.mp hreceive] at hlength
      simp at hlength hnot
      omega
    | some p =>
      rw [hreceive] at hnot
      simp [TxPath.toShip, hjson] at hnot ⊢
      omega
  | some f =>
    rw [hjson] at hnot
    simp [TxPath.toShip, hjson] at hnot ⊢
    omega

/-- **A frame that the queue took is shipped within 18 steps** of `tx_task`, whatever the senders do
    in between, to the answer that `fp_ws_send` has for it. -/
theorem frame_shipped_soon (ops more : List TxOp) (i : ℕ) (f : TxFrame)
    (hi : (txRun ops).queued[i]? = some f) (hsteps : 18 ≤ more.countP TxOp.isTx) :
    ∃ sent, (txRun (ops ++ more)).shipped[i]? = some (f, sent) := by
  obtain ⟨hplace, hf⟩ := List.getElem?_eq_some_iff.mp hi
  have htook : (txRun ops).Took i := ⟨txRun_accounted ops, hplace⟩
  have hbound : (txRun ops).toShip i ≤ 18 := by
    have hlength := congrArg List.length htook.1.fifo
    have hwaiting : (txRun ops).txq.items.length ≤ 8 := (txRun ops).txq.bounded
    have hhand : (txRun ops).json.toList.length ≤ 1 := by cases (txRun ops).json <;> simp
    rw [List.length_append, List.length_map, List.length_append] at hlength
    unfold TxPath.toShip
    omega
  have hkeep (t) (op : TxOp) (h : t.Took i) (hlt : i < t.shipped.length) :
      i < (txStep t op).shipped.length := by
    cases op with
    | enqueue json expired => rwa [(txStep_enqueue_frame t json expired).1]
    | tx sent =>
      rw [txStep, txTaskStep]
      cases t.json with
      | none => cases t.txq.receive <;> exact hlt
      | some f => simpa using hlt.trans (Nat.lt_succ_self _)
  have hle (t) (op : TxOp) (h : t.Took i) (hnot : ¬ i < (txStep t op).shipped.length) :
      (txStep t op).toShip i ≤ t.toShip i := by
    cases op with
    | enqueue json expired =>
      obtain ⟨hshipped, hjson⟩ := txStep_enqueue_frame t json expired
      rw [TxPath.toShip, TxPath.toShip, hshipped, hjson]
    | tx sent => exact (h.tx_lt sent hnot).le
  have hdrop (t) (op : TxOp) (h : t.Took i) (hop : op.isTx = true)
      (hnot : ¬ i < (txStep t op).shipped.length) : (txStep t op).toShip i < t.toShip i := by
    cases op with
    | enqueue json expired => cases hop
    | tx sent => exact h.tx_lt sent hnot
  have hinv (t) (op : TxOp) (h : t.Took i) : (txStep t op).Took i := h.step op
  have htook' : (txRun (ops ++ more)).Took i := by
    rw [txRun_append]
    exact Machine.run_invariant txStep hinv htook more
  have hshipped : i < (txRun (ops ++ more)).shipped.length := by
    rw [txRun_append]
    rcases Machine.run_rank_of_count txStep hinv hkeep hle hdrop htook more with hdone | hrank
    · exact hdone
    · -- The steps have used up the rank, which an unshipped frame does not let happen.
      by_contra hnot
      have hhand : (Machine.run txStep (txRun ops) more).json.toList.length ≤ 1 := by
        cases (Machine.run txStep (txRun ops) more).json <;> simp
      have hleft : 0 < (Machine.run txStep (txRun ops) more).toShip i := by
        unfold TxPath.toShip
        omega
      omega
  refine ⟨((txRun (ops ++ more)).shipped[i]).2, ?_⟩
  have hqueued : (txRun ops).queued <+: (txRun (ops ++ more)).queued := by
    rw [txRun_append]
    exact Machine.run_invariant (P := fun t => (txRun ops).queued <+: t.queued) txStep
      (fun t op h => h.trans (txStep_queued t op)) (List.prefix_refl _) more
  have hfirst : (txRun (ops ++ more)).shipped.map Prod.fst <+: (txRun (ops ++ more)).queued :=
    htook'.1.fifo ▸ List.prefix_append _ _
  have hi' : i < ((txRun (ops ++ more)).shipped.map Prod.fst).length := by rwa [List.length_map]
  have hsame : ((txRun (ops ++ more)).shipped[i]).1 = f := by
    rw [← hf, hqueued.getElem hplace, ← hfirst.getElem hi', List.getElem_map]
  rw [List.getElem?_eq_getElem hshipped, ← hsame]

/-- A frame that waits behind another one, on a connection that takes nothing. -/
theorem frame_shipped_soon_offline :
    ∃ sent, (txRun ([.enqueue (some .null) true, .tx true, .enqueue (some (.bool true)) true] ++
      List.replicate 18 (.tx false))).shipped[1]? = some (⟨1, .bool true⟩, sent) :=
  frame_shipped_soon _ _ 1 ⟨1, .bool true⟩ rfl (by decide)

end Fountainer.Protocol
