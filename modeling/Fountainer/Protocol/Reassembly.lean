import Fountainer.Lib.Runs
import Mathlib.Algebra.Order.BigOperators.Group.List
import Mathlib.Algebra.Order.Group.Nat
import Mathlib.Algebra.GroupWithZero.Nat

/-!
# Reassembly of text frames

`fp_ws.c`: the receive buffer of the WebSocket wrapper and its event handler. The client hands
over a frame in chunks, each with its offset in the frame and the length of the frame; a message
is one text frame, or a text frame and continuation frames.
-/

namespace Fountainer.Protocol

/-- The buffer of `struct fp_ws_s`: `rx` up to `rx_len`, and `rx_cap`. -/
structure WsRx where
  rx : List UInt8
  rxCap : ℕ
  deriving DecidableEq, Repr

/-- `esp_websocket_event_data_t`, with the answer of `realloc` if the chunk needs it. -/
structure WsData where
  opCode : UInt8
  payloadOffset : ℕ
  payloadLen : ℕ
  data : List UInt8
  alloc : Bool
  deriving DecidableEq, Repr

/-- The events of the client that `ws_event` distinguishes. -/
inductive WsEvent where
  | connected
  | disconnected
  | data (e : WsData)
  | other
  deriving DecidableEq, Repr

/-- `fp_ws_event_t`, with the payload of `FP_WS_DATA`. -/
inductive WsCallback where
  | connected
  | data (payload : List UInt8)
  | disconnected
  deriving DecidableEq, Repr

/-- `rx_reset`. -/
def rxReset (w : WsRx) : WsRx := { w with rx := [] }

/-- The doubling of the capacity in `rx_append`, up to `fuel` times. -/
def grownCap (need : ℕ) : ℕ → ℕ → ℕ
  | 0, cap => cap
  | fuel + 1, cap => if cap < need then grownCap need fuel (cap * 2) else cap

/-- `rx_append`. -/
def rxAppend (w : WsRx) (d : List UInt8) (alloc : Bool) : Bool × WsRx :=
  let need := w.rx.length + d.length + 1
  if w.rxCap < need then
    if alloc then
      let cap := if w.rxCap = 0 then 512 else w.rxCap
      (true, { rx := w.rx ++ d, rxCap := grownCap need need cap })
    else (false, w)
  else (true, { w with rx := w.rx ++ d })

/-- `ws_event`. -/
def wsEvent (w : WsRx) : WsEvent → WsRx × Option WsCallback
  | .connected => (w, some .connected)
  | .disconnected => (rxReset w, some .disconnected)
  | .data e =>
    if e.opCode = 0x08 then (w, none)
    else if e.opCode ≠ 0x01 ∧ e.opCode ≠ 0x00 then (w, none)
    else
      let w := if e.payloadOffset = 0 then rxReset w else w
      let w := if 0 < e.data.length then (rxAppend w e.data e.alloc).2 else w
      if e.payloadLen ≤ e.payloadOffset + e.data.length then
        (rxReset w, if 0 < w.rx.length then some (.data w.rx) else none)
      else (w, none)
  | .other => (w, none)

-- ════════════════════════════════════════════════════════════════════════
-- What the client delivers
-- ════════════════════════════════════════════════════════════════════════

/-- A piece of a frame as the client read it, and whether memory could be had for it. -/
structure Chunk where
  data : List UInt8
  alloc : Bool
  deriving DecidableEq, Repr

/-- The bytes of the chunks. -/
def chunkBytes (chunks : List Chunk) : List UInt8 := chunks.flatMap Chunk.data

/-- A frame. The client reads until it has all its bytes, and at least once. -/
structure Frame where
  chunks : List Chunk
  nonempty : chunks ≠ []
  until_complete : ∀ pre suf, chunks = pre ++ suf → pre ≠ [] → suf ≠ [] →
    (chunkBytes pre).length < (chunkBytes chunks).length

def Frame.payload (f : Frame) : List UInt8 := chunkBytes f.chunks

/-- A text message: a text frame, and continuation frames. -/
structure Message where
  first : Frame
  rest : List Frame

/-- The frames with their op codes. -/
def Message.parts (m : Message) : List (UInt8 × Frame) := (0x01, m.first) :: m.rest.map (0x00, ·)

def Message.content (m : Message) : List UInt8 := m.parts.flatMap fun p => p.2.payload

/-- The events of the chunks of a frame, from an offset on. -/
def chunkEvents (opCode : UInt8) (payloadLen : ℕ) : ℕ → List Chunk → List WsEvent
  | _, [] => []
  | offset, c :: cs =>
    .data ⟨opCode, offset, payloadLen, c.data, c.alloc⟩ ::
      chunkEvents opCode payloadLen (offset + c.data.length) cs

def partEvents (p : UInt8 × Frame) : List WsEvent :=
  chunkEvents p.1 p.2.payload.length 0 p.2.chunks

/-- What happens at the socket. Of a message `received` events arrive, all of them unless the
    connection is lost. -/
inductive WsOp where
  | connected
  | disconnected
  | other
  | message (m : Message) (received : ℕ)

def WsOp.events : WsOp → List WsEvent
  | .connected => [.connected]
  | .disconnected => [.disconnected]
  | .other => [.other]
  | .message m received => (m.parts.flatMap partEvents).take received

def wsStep (w : WsRx) (e : WsEvent) : WsRx := (wsEvent w e).1

/-- The payload that the event delivers, if any. -/
def delivered (w : WsRx) (e : WsEvent) (_ : WsRx) : Option (List UInt8) :=
  match (wsEvent w e).2 with
  | some (.data payload) => some payload
  | _ => none

/-- The payloads of `FP_WS_DATA` during the events. -/
def deliveries (w : WsRx) (events : List WsEvent) : List (List UInt8) :=
  Machine.collect wsStep delivered w events

/-- The buffer after the first operations, from `fp_ws_create` on. -/
def rxAt (ops : List WsOp) : WsRx := Machine.run wsStep ⟨[], 0⟩ (ops.flatMap WsOp.events)

/-- Only messages deliver payloads, and each at most once, and then it is the message. -/
def WholeMessages (ops : List WsOp) : Prop :=
  ∀ i op, ops[i]? = some op →
    deliveries (rxAt (ops.take i)) op.events = [] ∨
      ∃ m received, op = .message m received ∧
        deliveries (rxAt (ops.take i)) op.events = [m.content]

-- ════════════════════════════════════════════════════════════════════════
-- What a frame leaves in the buffer
-- ════════════════════════════════════════════════════════════════════════

/-- The chunk does not fit, and there is no memory for it. -/
def Lost (w : WsRx) (c : Chunk) : Prop :=
  c.data ≠ [] ∧ w.rxCap < w.rx.length + c.data.length + 1 ∧ c.alloc = false

instance (w : WsRx) (c : Chunk) : Decidable (Lost w c) := inferInstanceAs (Decidable (_ ∧ _))

/-- The chunk appended, if it can be. -/
def appendChunk (w : WsRx) (c : Chunk) : WsRx :=
  if 0 < c.data.length then (rxAppend w c.data c.alloc).2 else w

/-- No append of the chunks fails. -/
def NoneLost (w : WsRx) (chunks : List Chunk) : Prop :=
  Machine.Guarded appendChunk (fun w c => ¬ Lost w c) w chunks

/-- Every append of the chunks fails. -/
def AllLost (w : WsRx) (chunks : List Chunk) : Prop :=
  Machine.Guarded appendChunk (fun w c => c.data = [] ∨ Lost w c) w chunks

variable {w : WsRx} {c : Chunk} {cs : List Chunk}

theorem chunkBytes_cons (c : Chunk) (cs : List Chunk) :
    chunkBytes (c :: cs) = c.data ++ chunkBytes cs :=
  List.flatMap_cons

theorem appendChunk_lost (h : Lost w c) : appendChunk w c = w := by
  rw [appendChunk, if_pos (List.length_pos_of_ne_nil h.1), rxAppend]
  simp [h.2.1, h.2.2]

theorem appendChunk_kept (h : ¬ Lost w c) : (appendChunk w c).rx = w.rx ++ c.data := by
  by_cases hdata : c.data = []
  · simp [appendChunk, hdata]
  · rw [appendChunk, if_pos (List.length_pos_of_ne_nil hdata), rxAppend]
    by_cases hroom : w.rxCap < w.rx.length + c.data.length + 1
    · have halloc : c.alloc = true := by
        by_contra hno
        exact h ⟨hdata, hroom, by simpa using hno⟩
      simp [hroom, halloc]
    · simp [hroom]

/-- The buffer grows by a part of the bytes. -/
theorem run_appendChunk_sublist (w : WsRx) (cs : List Chunk) : ∃ kept : List UInt8,
    (Machine.run appendChunk w cs).rx = w.rx ++ kept ∧ kept.Sublist (chunkBytes cs) := by
  induction cs generalizing w with
  | nil => exact ⟨[], by simp, List.Sublist.refl _⟩
  | cons c cs ih =>
    obtain ⟨kept, hrx, hsub⟩ := ih (appendChunk w c)
    rw [Machine.run_cons, chunkBytes_cons]
    by_cases hlost : Lost w c
    · rw [appendChunk_lost hlost] at hrx ⊢
      exact ⟨kept, hrx, hsub.trans (List.sublist_append_right _ _)⟩
    · refine ⟨c.data ++ kept, ?_, (List.Sublist.refl _).append hsub⟩
      rw [hrx, appendChunk_kept hlost, List.append_assoc]

theorem noneLost_iff (w : WsRx) (cs : List Chunk) :
    NoneLost w cs ↔ (Machine.run appendChunk w cs).rx = w.rx ++ chunkBytes cs := by
  induction cs generalizing w with
  | nil => simp [NoneLost, Machine.Guarded, chunkBytes]
  | cons c cs ih =>
    rw [NoneLost, Machine.Guarded, Machine.run_cons]
    by_cases hlost : Lost w c
    · obtain ⟨kept, hrx, hsub⟩ := run_appendChunk_sublist (appendChunk w c) cs
      refine iff_of_false (fun h => h.1 hlost) fun heq => ?_
      -- Less than all the bytes has come in.
      rw [heq, appendChunk_lost hlost] at hrx
      have hlen := congrArg List.length hrx
      have hle := hsub.length_le
      have hpos := List.length_pos_of_ne_nil hlost.1
      simp only [chunkBytes_cons, List.length_append] at hlen hle
      omega
    · rw [← NoneLost, ih, appendChunk_kept hlost, chunkBytes_cons, List.append_assoc]
      exact and_iff_right hlost

theorem allLost_iff (w : WsRx) (cs : List Chunk) :
    AllLost w cs ↔ (Machine.run appendChunk w cs).rx = w.rx := by
  induction cs generalizing w with
  | nil => simp [AllLost, Machine.Guarded]
  | cons c cs ih =>
    rw [AllLost, Machine.Guarded, Machine.run_cons, ← AllLost]
    by_cases hlost : Lost w c
    · rw [ih, appendChunk_lost hlost]
      exact and_iff_right (.inr hlost)
    by_cases hdata : c.data = []
    · rw [ih, appendChunk_kept hlost, hdata, List.append_nil]
      exact and_iff_right (.inl rfl)
    · obtain ⟨kept, hrx, -⟩ := run_appendChunk_sublist (appendChunk w c) cs
      refine iff_of_false (fun h => h.1.elim hdata hlost) fun heq => ?_
      rw [heq, appendChunk_kept hlost, List.append_assoc] at hrx
      have hlen := congrArg List.length hrx
      have hpos := List.length_pos_of_ne_nil hdata
      simp only [List.length_append] at hlen
      omega

/-- The op code of a text or continuation frame. -/
def IsText (opCode : UInt8) : Prop := opCode = 0x01 ∨ opCode = 0x00

theorem wsEvent_chunk {opCode : UInt8} (hop : IsText opCode) (w : WsRx) (offset total : ℕ)
    (c : Chunk) : wsEvent w (.data ⟨opCode, offset, total, c.data, c.alloc⟩) =
      let w := appendChunk (if offset = 0 then rxReset w else w) c
      if total ≤ offset + c.data.length then
        (rxReset w, if 0 < w.rx.length then some (.data w.rx) else none)
      else (w, none) := by
  rcases hop with rfl | rfl <;> rfl

/-- The payload of the buffer, if there is one. -/
def WsRx.pending (w : WsRx) : List (List UInt8) := if 0 < w.rx.length then [w.rx] else []

theorem rxReset_of_nil {w : WsRx} (h : w.rx = []) : rxReset w = w := by
  cases w
  simp_all [rxReset]

/-- The chunks of the rest of a frame: the last one delivers what the buffer holds. -/
theorem chunkEvents_all {opCode : UInt8} (hop : IsText opCode) {total : ℕ} (offset : ℕ)
    (w : WsRx) (hstart : offset = 0 → w.rx = []) (hne : cs ≠ [])
    (htotal : total = offset + (chunkBytes cs).length)
    (hshort : ∀ pre suf, cs = pre ++ suf → pre ≠ [] → suf ≠ [] →
      (chunkBytes pre).length < (chunkBytes cs).length) :
    deliveries w (chunkEvents opCode total offset cs) = (Machine.run appendChunk w cs).pending ∧
      Machine.run wsStep w (chunkEvents opCode total offset cs)
        = rxReset (Machine.run appendChunk w cs) := by
  induction cs generalizing w offset with
  | nil => exact absurd rfl hne
  | cons c cs ih =>
    have hreset : (if offset = 0 then rxReset w else w) = w := by
      split
      · exact rxReset_of_nil (hstart ‹_›)
      · rfl
    have hevent := wsEvent_chunk hop w offset total c
    rw [hreset] at hevent
    rw [chunkEvents, deliveries, Machine.collect, ← deliveries, Machine.run_cons, Machine.run_cons,
      delivered, wsStep, hevent]
    cases cs with
    | nil =>
      have hlast : total ≤ offset + c.data.length := by
        rw [htotal]
        simp [chunkBytes]
      simp only [hlast, if_true, chunkEvents]
      refine ⟨?_, rfl⟩
      rw [Machine.run_nil, WsRx.pending]
      by_cases hpos : 0 < (appendChunk w c).rx.length
      · simp [hpos, deliveries]
      · simp [hpos, deliveries]
    | cons c' cs =>
      have hlt : ¬ total ≤ offset + c.data.length := by
        have hpre := hshort [c] (c' :: cs) rfl (by simp) (by simp)
        simp only [chunkBytes, List.flatMap_cons, List.flatMap_nil, List.append_nil,
          List.length_append] at hpre htotal
        omega
      simp only [hlt, if_false, Option.toList_none, List.nil_append]
      refine ih (offset + c.data.length) (appendChunk w c) (fun hzero => ?_) (by simp) ?_ ?_
      · have hdata : c.data = [] := List.length_eq_zero_iff.mp (by omega)
        rw [appendChunk_kept (by simp [Lost, hdata]), hdata, List.append_nil]
        exact hstart (by omega)
      · rw [htotal]
        simp [chunkBytes, Nat.add_assoc]
      · intro pre suf hsplit hpre hsuf
        have := hshort (c :: pre) suf (by rw [hsplit]; rfl) (by simp) hsuf
        simpa [chunkBytes] using this

/-- A frame that has not all its bytes delivers nothing. -/
theorem chunkEvents_short {opCode : UInt8} (hop : IsText opCode) {total : ℕ} (offset : ℕ) (w : WsRx)
    (hshort : offset + (chunkBytes cs).length < total) :
    deliveries w (chunkEvents opCode total offset cs) = [] := by
  induction cs generalizing w offset with
  | nil => rfl
  | cons c cs ih =>
    rw [chunkBytes_cons, List.length_append] at hshort
    have hlt : ¬ total ≤ offset + c.data.length := by omega
    rw [chunkEvents, deliveries, Machine.collect, ← deliveries, delivered, wsStep,
      wsEvent_chunk hop]
    simp only [hlt, if_false, Option.toList_none, List.nil_append]
    exact ih _ _ (by omega)

theorem chunkEvents_take (opCode : UInt8) (total offset k : ℕ) (cs : List Chunk) :
    (chunkEvents opCode total offset cs).take k = chunkEvents opCode total offset (cs.take k) := by
  induction cs generalizing offset k with
  | nil => simp [chunkEvents]
  | cons c cs ih =>
    cases k with
    | zero => rfl
    | succ k => simp [chunkEvents, ih]

theorem chunkEvents_length (opCode : UInt8) (total offset : ℕ) (cs : List Chunk) :
    (chunkEvents opCode total offset cs).length = cs.length := by
  induction cs generalizing offset with
  | nil => rfl
  | cons c cs ih => simp [chunkEvents, ih]

/-- The first chunk of a frame empties the buffer. -/
theorem partEvents_reset (p : UInt8 × Frame) (hop : IsText p.1) (w : WsRx) :
    deliveries w (partEvents p) = deliveries (rxReset w) (partEvents p) ∧
      Machine.run wsStep w (partEvents p) = Machine.run wsStep (rxReset w) (partEvents p) := by
  cases hchunks : p.2.chunks with
  | nil => exact absurd hchunks p.2.nonempty
  | cons c cs =>
    have hevent : wsEvent w (.data ⟨p.1, 0, p.2.payload.length, c.data, c.alloc⟩) =
        wsEvent (rxReset w) (.data ⟨p.1, 0, p.2.payload.length, c.data, c.alloc⟩) := by
      rw [wsEvent_chunk hop, wsEvent_chunk hop]
      rfl
    rw [partEvents, hchunks, chunkEvents]
    simp only [deliveries, Machine.collect, Machine.run_cons, delivered, wsStep, hevent, and_self]

/-- A complete frame delivers what its chunks leave in an empty buffer. -/
theorem partEvents_all (p : UInt8 × Frame) (hop : IsText p.1) (w : WsRx) :
    deliveries w (partEvents p) = (Machine.run appendChunk (rxReset w) p.2.chunks).pending := by
  rw [(partEvents_reset p hop w).1]
  refine (chunkEvents_all hop 0 (rxReset w) (fun _ => rfl) p.2.nonempty ?_ p.2.until_complete).1
  exact (Nat.zero_add _).symm

theorem partEvents_partial (p : UInt8 × Frame) (hop : IsText p.1) (w : WsRx) {k : ℕ}
    (hk : k < p.2.chunks.length) : deliveries w ((partEvents p).take k) = [] := by
  rw [partEvents, chunkEvents_take]
  by_cases hzero : k = 0
  · subst hzero
    rfl
  · refine chunkEvents_short hop 0 w ?_
    rw [Nat.zero_add]
    refine p.2.until_complete _ (p.2.chunks.drop k) (List.take_append_drop k _).symm ?_ ?_
    · exact List.ne_nil_of_length_pos (by rw [List.length_take]; omega)
    · exact List.ne_nil_of_length_pos (by rw [List.length_drop]; omega)

-- ════════════════════════════════════════════════════════════════════════
-- Messages
-- ════════════════════════════════════════════════════════════════════════

/-- The frames that arrive completely, each with the empty buffer that it finds. -/
def arrived : WsRx → List (UInt8 × Frame) → ℕ → List (WsRx × Frame)
  | _, [], _ => []
  | w, p :: ps, received =>
    if p.2.chunks.length ≤ received then
      (rxReset w, p.2) ::
        arrived (Machine.run wsStep w (partEvents p)) ps (received - p.2.chunks.length)
    else []

theorem deliveries_append (w : WsRx) (es es' : List WsEvent) : deliveries w (es ++ es') =
    deliveries w es ++ deliveries (Machine.run wsStep w es) es' :=
  Machine.collect_append _ _ _ _ _

theorem deliveries_parts (w : WsRx) (ps : List (UInt8 × Frame)) (hps : ∀ p ∈ ps, IsText p.1)
    (received : ℕ) : deliveries w ((ps.flatMap partEvents).take received) =
      (arrived w ps received).flatMap fun q =>
      (Machine.run appendChunk q.1 q.2.chunks).pending := by
  induction ps generalizing w received with
  | nil => simp [arrived, deliveries]
  | cons p ps ih =>
    have hop := hps p List.mem_cons_self
    have hlen : (partEvents p).length = p.2.chunks.length := chunkEvents_length _ _ _ _
    rw [List.flatMap_cons, List.take_append, hlen, arrived, deliveries_append]
    by_cases hall : p.2.chunks.length ≤ received
    · rw [if_pos hall, List.flatMap_cons, List.take_of_length_le (hlen ▸ hall),
        partEvents_all p hop, ih _ (fun p hp => hps p (List.mem_cons_of_mem _ hp))]
    · rw [if_neg hall, partEvents_partial p hop w (by omega),
        Nat.sub_eq_zero_of_le (Nat.le_of_not_le hall)]
      rfl

/-- A frame that arrives finds the buffer empty, and its bytes are part of the parts' bytes. -/
theorem arrived_bytes (w : WsRx) (ps : List (UInt8 × Frame)) (received : ℕ) :
    (∀ q ∈ arrived w ps received, q.1.rx = []) ∧
      ((arrived w ps received).map fun q => q.2.payload.length).sum ≤
        (ps.flatMap fun p => p.2.payload).length := by
  induction ps generalizing w received with
  | nil => simp [arrived]
  | cons p ps ih =>
    rw [arrived, List.flatMap_cons, List.length_append]
    split
    · obtain ⟨hempty, hsum⟩ := ih (Machine.run wsStep w (partEvents p))
        (received - p.2.chunks.length)
      refine ⟨?_, by simpa using hsum⟩
      rintro q (_ | ⟨_, hq⟩)
      · rfl
      · exact hempty q hq
    · simp

/-- Payloads that are all the same, with no room for two of them, are at most one. -/
theorem eq_nil_or_singleton {content : List UInt8} {qs : List (WsRx × Frame)}
    (hsum : (qs.map fun q => q.2.payload.length).sum ≤ content.length)
    (hqs : ∀ q ∈ qs, (Machine.run appendChunk q.1 q.2.chunks).pending = [] ∨
      (Machine.run appendChunk q.1 q.2.chunks).pending = [content] ∧
        q.2.payload = content ∧ content ≠ []) :
    (qs.flatMap fun q => (Machine.run appendChunk q.1 q.2.chunks).pending) = [] ∨
      (qs.flatMap fun q => (Machine.run appendChunk q.1 q.2.chunks).pending) = [content] := by
  induction qs with
  | nil => exact .inl rfl
  | cons q qs ih =>
    rw [List.map_cons, List.sum_cons] at hsum
    have hrest := ih (by omega) fun q hq => hqs q (List.mem_cons_of_mem _ hq)
    rw [List.flatMap_cons]
    rcases hqs q List.mem_cons_self with hnone | ⟨hone, hpayload, hne⟩
    · rwa [hnone, List.nil_append]
    · -- The frame is the whole message: the frames behind it are empty.
      refine .inr ?_
      rw [hone, List.singleton_append, List.cons_eq_cons]
      refine ⟨rfl, List.flatMap_eq_nil_iff.mpr fun q' hq' => ?_⟩
      rcases hqs q' (List.mem_cons_of_mem _ hq') with hnone | ⟨-, hpayload', -⟩
      · exact hnone
      · have hmem := List.le_sum_of_mem
          (List.mem_map_of_mem (f := fun q : WsRx × Frame => q.2.payload.length) hq')
        rw [hpayload] at hsum
        rw [hpayload'] at hmem
        have hpos := List.length_pos_of_ne_nil hne
        omega

theorem Message.isText (m : Message) : ∀ p ∈ m.parts, IsText p.1 := by
  intro p hp
  rcases List.mem_cons.mp hp with rfl | hp
  · exact .inl rfl
  · obtain ⟨f, -, rfl⟩ := List.mem_map.mp hp
    exact .inr rfl

/-- One message: nothing or the whole message is delivered exactly when every frame that arrives
    is lost as a whole, or has no loss and is the whole message. -/
theorem message_deliveries_iff (w : WsRx) (m : Message) (received : ℕ) :
    (deliveries w ((m.parts.flatMap partEvents).take received) = [] ∨
        deliveries w ((m.parts.flatMap partEvents).take received) = [m.content]) ↔
      ∀ q ∈ arrived w m.parts received, AllLost q.1 q.2.chunks ∨
        NoneLost q.1 q.2.chunks ∧ q.2.payload = m.content := by
  rw [deliveries_parts w m.parts m.isText]
  obtain ⟨hempty, hsum⟩ := arrived_bytes w m.parts received
  constructor
  · intro hwhole q hq
    by_cases hlost : AllLost q.1 q.2.chunks
    · exact .inl hlost
    refine .inr ?_
    have hrx : (Machine.run appendChunk q.1 q.2.chunks).rx ≠ [] := by
      rwa [Ne, ← hempty q hq, ← allLost_iff]
    have hmem : (Machine.run appendChunk q.1 q.2.chunks).rx ∈
        (arrived w m.parts received).flatMap fun q =>
          (Machine.run appendChunk q.1 q.2.chunks).pending := by
      refine List.mem_flatMap.mpr ⟨q, hq, ?_⟩
      simp [WsRx.pending, List.length_pos_of_ne_nil hrx]
    have hcontent : (Machine.run appendChunk q.1 q.2.chunks).rx = m.content := by
      rcases hwhole with hnone | hone
      · rw [hnone] at hmem
        cases hmem
      · rw [hone] at hmem
        exact List.mem_singleton.mp hmem
    -- What has come in is part of the frame, and the frame is part of the message.
    obtain ⟨kept, hkept, hsub⟩ := run_appendChunk_sublist q.1 q.2.chunks
    rw [hempty q hq, List.nil_append] at hkept
    have hle : q.2.payload.length ≤ m.content.length :=
      (List.le_sum_of_mem (List.mem_map_of_mem (f := fun q : WsRx × Frame => q.2.payload.length)
        hq)).trans hsum
    have hkept' : kept = q.2.payload :=
      hsub.eq_of_length_le (by rw [← hkept, hcontent]; exact hle)
    refine ⟨(noneLost_iff _ _).mpr ?_, ?_⟩
    · rw [hempty q hq, List.nil_append, hkept, hkept']
      rfl
    · rw [← hkept', ← hkept, hcontent]
  · intro hframes
    refine eq_nil_or_singleton hsum fun q hq => ?_
    rcases hframes q hq with hlost | ⟨hnone, hpayload⟩
    · refine .inl ?_
      rw [WsRx.pending, (allLost_iff _ _).mp hlost, hempty q hq]
      rfl
    · have hrx := (noneLost_iff _ _).mp hnone
      rw [hempty q hq, List.nil_append] at hrx
      by_cases hne : m.content = []
      · refine .inl ?_
        rw [WsRx.pending, hrx, ← Frame.payload, hpayload, hne]
        rfl
      · refine .inr ⟨?_, hpayload, hne⟩
        rw [WsRx.pending, hrx, ← Frame.payload, hpayload]
        exact if_pos (List.length_pos_of_ne_nil hne)

/-- **Whole messages**: every payload is one message, delivered once, if and only if every frame
    that arrives completely has lost all its chunks, or has lost none and is its whole message. -/
theorem wholeMessages_iff (ops : List WsOp) :
    WholeMessages ops ↔ ∀ i m received, ops[i]? = some (.message m received) →
      ∀ q ∈ arrived (rxAt (ops.take i)) m.parts received, AllLost q.1 q.2.chunks ∨
        NoneLost q.1 q.2.chunks ∧ q.2.payload = m.content := by
  constructor
  · intro h i m received hop
    refine (message_deliveries_iff _ m received).mp ?_
    refine (h i _ hop).imp_right ?_
    rintro ⟨m', received', heq, hone⟩
    cases heq
    exact hone
  · intro h i op hop
    cases op with
    | message m received =>
      refine ((message_deliveries_iff _ m received).mpr (h i m received hop)).imp_right
        fun hone => ?_
      exact ⟨m, received, rfl, hone⟩
    | _ => exact .inl rfl

/-- A frame of one chunk. -/
def oneChunk (data : List UInt8) : Frame where
  chunks := [⟨data, true⟩]
  nonempty := by simp
  until_complete pre suf h hpre hsuf := by
    have hlen := congrArg List.length h
    have := List.length_pos_of_ne_nil hpre
    have := List.length_pos_of_ne_nil hsuf
    simp only [List.length_cons, List.length_nil, List.length_append] at hlen
    omega

/-- A message in a text frame and a continuation frame. -/
def twoFrames : List WsOp := [.connected, .message ⟨oneChunk [123], [oneChunk [125]]⟩ 2]

/-- The two frames of `twoFrames` are delivered one by one. -/
theorem twoFrames_delivered_apart : ¬ WholeMessages twoFrames := by
  intro h
  rcases h 1 _ rfl with hnone | ⟨m, received, -, hone⟩
  · exact absurd hnone (by decide)
  · have hlen : (deliveries _ _).length = 1 := congrArg List.length hone
    exact absurd hlen (by decide)

end Fountainer.Protocol
