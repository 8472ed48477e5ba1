import Fountainer.Canopen.Parts

/-!
# One request to the SDO server

What a single request does, whatever the state of the server: the one reply, the copies
before it, the write it makes to the object dictionary, and what it leaves of the node.
-/

namespace Fountainer.Canopen

open Traces (Grows)
open Bytes (leU16 leU32)

variable {σ : Type*} {A : App σ} {w : World σ}

/-- The frame of an action that sends one. -/
def Act.frame? : Act → Option CoFrame
  | .send _ f _ => some f
  | _ => none

/-- A call of `od_write`: index, sub-index, bytes. -/
structure OdCall where
  index : UInt16
  sub : UInt8
  bytes : List UInt8
  deriving DecidableEq, Repr

/-- The call of `od_write` that an action of the SDO server is. -/
def Act.sdoCall? : Act → Option OdCall
  | .write .sdo index sub bytes => some ⟨index, sub, bytes⟩
  | _ => none

/-- The calls of `od_write` that the SDO server made, in order. -/
def sdoCalls (es : List Effect) : List OdCall := es.filterMap (fun e => e.act.sdoCall?)

@[simp] theorem sdoCalls_append (es es' : List Effect) :
    sdoCalls (es ++ es') = sdoCalls es ++ sdoCalls es' :=
  List.filterMap_append

/-- The identifier of the replies of the SDO server. -/
def CoNode.sdoTxId (n : CoNode) : UInt16 := 0x580 + n.cfg.nodeId.toUInt16

/-- `od_read` stores no more bytes than it has room for. -/
def ReadFits (A : App σ) : Prop :=
  ∀ s index sub cap, ((A.odRead s index sub cap).1.bytes).length ≤ cap

/-- The indices of a running transfer stay inside the buffer. -/
structure SdoOk (s : CoSdo) : Prop where
  upload : s.state = .uploadSeg → s.pos < s.len ∧ s.len ≤ coSdoBufSize
  download : s.state = .downloadSeg → s.pos ≤ coSdoBufSize ∧ s.len ≤ coSdoBufSize

theorem SdoOk.idle {s : CoSdo} (h : s.state = .idle) : SdoOk s := by
  constructor <;> simp [h]

/-- The server without a transfer. -/
def CoSdo.stop (s : CoSdo) : CoSdo := { s with state := .idle }

/-- The running transfer has timed out. -/
def CoSdo.TimedOut (s : CoSdo) (nowMs : UInt32) : Prop :=
  s.state ≠ .idle ∧ coSdoTimeoutMs < nowMs - s.lastMs

instance (s : CoSdo) (nowMs : UInt32) : Decidable (s.TimedOut nowMs) :=
  inferInstanceAs (Decidable (_ ∧ _))

section Reads

variable {index : UInt16} {sub : UInt8} {cap : ℕ}

theorem OdRead.value_length (bytes : List UInt8) : (OdRead.value cap bytes).bytes.length ≤ cap := by
  rw [OdRead.value]
  split
  · exact Nat.zero_le _
  · next h => exact not_lt.mp h

theorem OdRead.single_length {r : OdRead} (h : r.bytes.length ≤ cap) :
    (OdRead.single sub r).bytes.length ≤ cap := by
  rw [OdRead.single]
  split
  · exact Nat.zero_le _
  · exact h

theorem readMap_length {count : UInt8} {map : Fin coPdoMapMax → UInt32} :
    (readMap cap sub count map).bytes.length ≤ cap := by
  rw [readMap]
  split
  · exact OdRead.value_length _
  split
  · exact OdRead.value_length _
  · exact Nat.zero_le _

theorem ite_length {c : Prop} [Decidable c] {r r' : OdRead} (h : r.bytes.length ≤ cap)
    (h' : r'.bytes.length ≤ cap) : (if c then r else r').bytes.length ≤ cap := by
  split
  · exact h
  · exact h'

theorem odInternalRead_length {n : CoNode} :
    (odInternalRead n index sub cap).bytes.length ≤ cap := by
  have habort : ∀ code, (OdRead.abort code).bytes.length ≤ cap := fun code => Nat.zero_le _
  have hvalue : ∀ bytes, (OdRead.value cap bytes).bytes.length ≤ cap := OdRead.value_length
  have hsingle : ∀ bytes, (OdRead.single sub (OdRead.value cap bytes)).bytes.length ≤ cap :=
    fun bytes => OdRead.single_length (hvalue bytes)
  simp only [odInternalRead, rdU8, rdU16, rdU32, rdStr]
  -- First the objects of fixed index, then the PDO records.
  repeat' with_reducible apply ite_length
  any_goals first | exact hsingle _ | exact hvalue _ | exact habort _
  split
  · repeat' with_reducible apply ite_length
    all_goals first | exact hvalue _ | exact habort _
  · exact readMap_length
  · repeat' with_reducible apply ite_length
    all_goals first | exact hvalue _ | exact habort _
  · exact readMap_length
  · exact habort _

theorem odRead_length (hfits : ReadFits A) : (odRead A w index sub cap).1.bytes.length ≤ cap := by
  simp only [odRead]
  split
  · exact odInternalRead_length
  · exact hfits _ _ _ _

end Reads

-- ════════════════════════════════════════════════════════════════════════
-- What comes before a reply
-- ════════════════════════════════════════════════════════════════════════

/-- The action is a copy into or out of the SDO buffer. -/
def Act.OnSdo : Act → Prop
  | .copy .sdo _ _ => True
  | _ => False

/-- An action of the server other than a reply. In the SDO buffer it stays inside the
    bounds if `safe`. -/
structure SdoAccess (safe : Prop) (nmt : NmtState) (e : Effect) : Prop where
  by_sdo : By nmt {.sdo} e
  silent : e.act.frame? = none
  inBounds : (e.act.OnSdo → safe) → e.act.InBounds

/-- The node after the calls of `od_write`, of which a request makes at most one. -/
def Wrote (n : CoNode) : List OdCall → CoNode → Prop
  | [], n' => n' = n
  | [c], n' => InternalWrite n c.index c.sub c.bytes n'
  | _, _ => False

theorem Wrote.spine {n n' : CoNode} {cs : List OdCall} (h : Wrote n cs n') :
    n'.spine = n.spine := by
  match cs, h with
  | [], h => exact congrArg CoNode.spine h
  | [_], h => exact InternalWrite.spine h

/-- The server made accesses, `cs` among them the calls of `od_write`. -/
structure Accesses (safe : Prop) (w w' : World σ) (cs : List OdCall) : Prop where
  node : ∃ n, Wrote w.node cs n ∧ w'.node = n.setSdo w'.node.sdo
  out : ∃ new, w'.out = w.out ++ new ∧ (∀ e ∈ new, SdoAccess safe w.node.nmt e) ∧ sdoCalls new = cs

section Accesses

variable {safe : Prop} {w₁ : World σ} {cs : List OdCall}

theorem Accesses.refl (safe : Prop) (w : World σ) : Accesses safe w w [] :=
  ⟨⟨w.node, rfl, rfl⟩, [], by simp, by simp, rfl⟩

theorem Accesses.nmt (h : Accesses safe w w₁ cs) : w₁.node.nmt = w.node.nmt := by
  obtain ⟨n, hn, heq⟩ := h.node
  have hnmt : n.nmt = w.node.nmt := CoNode.nmt_of_spine hn.spine
  rw [heq, ← hnmt]
  rfl

theorem Accesses.sdoTxId (h : Accesses safe w w₁ cs) : w₁.node.sdoTxId = w.node.sdoTxId := by
  obtain ⟨n, hn, heq⟩ := h.node
  have hid : n.cfg.nodeId = w.node.cfg.nodeId := CoNode.nodeId_of_spine hn.spine
  rw [heq, CoNode.sdoTxId, CoNode.sdoTxId, ← hid]
  rfl

theorem Accesses.setSdo (h : Accesses safe w w₁ cs) (s : CoSdo) :
    Accesses safe w { w₁ with node := w₁.node.setSdo s } cs := by
  obtain ⟨n, hn, heq⟩ := h.node
  refine ⟨⟨n, hn, ?_⟩, h.out⟩
  rw [heq]
  rfl

theorem Accesses.idle (h : Accesses safe w w₁ cs) : Accesses safe w (sdoIdle w₁) cs := h.setSdo _

/-- One more action behind the others. -/
theorem Accesses.concat (h : Accesses safe w w₁ cs) {w₂ : World σ} {act : Act}
    (hnode : w₂.node = w₁.node) (hout : w₂.out = w₁.out ++ [⟨w₁.node.nmt, act⟩])
    (hact : SdoAccess safe w.node.nmt ⟨w.node.nmt, act⟩) (hcall : act.sdoCall? = none) :
    Accesses safe w w₂ cs := by
  obtain ⟨new, hnew, hall, hcs⟩ := h.out
  refine ⟨?_, new ++ [⟨w.node.nmt, act⟩], ?_, ?_, ?_⟩
  · rw [hnode]
    exact h.node
  · rw [hout, hnew, h.nmt, List.append_assoc]
  · simpa [or_imp, forall_and] using ⟨hall, hact⟩
  · have hnone : sdoCalls [⟨w.node.nmt, act⟩] = [] := by simp [sdoCalls, hcall]
    rw [sdoCalls_append, hcs, hnone, List.append_nil]

theorem Accesses.copy (h : Accesses safe w w₁ cs) {b : Buffer} {k n : ℕ}
    (hsafe : ((Act.copy b k n).OnSdo → safe) → k + n ≤ b.size) :
    Accesses safe w (w₁.emit (.copy b k n)) cs :=
  h.concat rfl rfl ⟨⟨rfl, .sdo, rfl, trivial⟩, rfl, hsafe⟩ rfl

theorem Accesses.read (h : Accesses safe w w₁ cs) (index : UInt16) (sub : UInt8) (cap : ℕ) :
    Accesses safe w (odRead A w₁ index sub cap).2 cs :=
  h.concat odRead_node odRead_out ⟨⟨rfl, .sdo, rfl, trivial⟩, rfl, fun _ => trivial⟩ rfl

theorem odWrite_internalWrite {via : Writer} {index : UInt16} {sub : UInt8} {buf : List UInt8} :
    InternalWrite w.node index sub buf (odWrite A w via index sub buf).2.node := by
  cases h : isInternalIndex index with
  | true => exact odWrite_internal h
  | false =>
    rw [odWrite_external h]
    exact .refused

theorem InternalWrite.setSdo {n n' : CoNode} {index : UInt16} {sub : UInt8} {buf : List UInt8}
    {s : CoSdo} (h : InternalWrite (n.setSdo s) index sub buf n') :
    InternalWrite n index sub buf (n'.setSdo n.sdo) := by
  cases h with
  | refused => exact .refused
  | heartbeat ms => exact .heartbeat ms
  | rpdoComm i cobId transType => exact .rpdoComm i cobId transType
  | rpdoCount i v hindex hsub hbuf hv hmap => exact .rpdoCount i v hindex hsub hbuf hv hmap
  | rpdoEntry i k e hzero => exact .rpdoEntry i k e hzero
  | tpdoComm i p hcount hmap => exact .tpdoComm i p hcount hmap
  | tpdoCount i v hv hmap => exact .tpdoCount i v hv hmap
  | tpdoEntry i k e hzero => exact .tpdoEntry i k e hzero

theorem Accesses.write (h : Accesses safe w w₁ []) (c : OdCall) :
    Accesses safe w (odWrite A w₁ .sdo c.index c.sub c.bytes).2 [c] := by
  obtain ⟨n, rfl, hnode⟩ := h.node
  obtain ⟨new, hnew, hall, hcs⟩ := h.out
  obtain ⟨new', hnew', hall'⟩ :=
    @odWrite_grows _ A w₁ .sdo c.index c.sub c.bytes
  have hread : ∀ e ∈ new', SdoAccess safe w.node.nmt e ∧ e.act.sdoCall? = none := by
    rintro ⟨nmt, act⟩ he
    obtain ⟨hnmt, q, hq, hact⟩ := hall' _ he
    obtain rfl : q = .owner := hq
    rw [h.nmt] at hnmt
    cases act with
    | read index sub => exact ⟨⟨⟨hnmt, .sdo, rfl, trivial⟩, rfl, fun _ => trivial⟩, rfl⟩
    | send | write | apply | copy => exact absurd hact (by simp [Part.allows])
  constructor
  · refine ⟨(odWrite A w₁ .sdo c.index c.sub c.bytes).2.node.setSdo w.node.sdo, ?_, rfl⟩
    have hw : InternalWrite w₁.node c.index c.sub c.bytes
        (odWrite A w₁ .sdo c.index c.sub c.bytes).2.node := odWrite_internalWrite
    rw [hnode] at hw
    exact hw.setSdo
  · refine ⟨new ++ ⟨w.node.nmt, .write .sdo c.index c.sub c.bytes⟩ :: new', ?_, ?_, ?_⟩
    · rw [hnew', hnew, h.nmt]
      simp
    · intro e he
      rcases List.mem_append.mp he with he | he
      · exact hall e he
      rcases List.mem_cons.mp he with rfl | he
      · exact ⟨⟨rfl, .sdo, rfl, rfl⟩, rfl, fun _ => trivial⟩
      · exact (hread e he).1
    · have hnone : sdoCalls new' = [] := List.filterMap_eq_nil_iff.mpr (fun e he => (hread e he).2)
      rw [sdoCalls_append, hcs, List.nil_append, ← List.singleton_append, sdoCalls_append, hnone]
      rfl

end Accesses

-- ════════════════════════════════════════════════════════════════════════
-- The reply
-- ════════════════════════════════════════════════════════════════════════

@[simp] theorem sdoReply_node (d : List UInt8) : (sdoReply A w d).node = w.node := rfl

/-- The bytes of an abort reply. -/
def abortBytes (index : UInt16) (sub : UInt8) (code : UInt32) : List UInt8 :=
  [0x80] ++ leU16 index ++ [sub] ++ leU32 code

/-- The reply `d` in its frame. -/
def CoNode.sdoFrame (n : CoNode) (d : List UInt8) : CoFrame := CoFrame.ofBytes n.sdoTxId d

/-- The request was answered once, by `d`, after accesses with the calls `cs` of
    `od_write`. The server is idle after an abort. -/
structure Served (safe : Prop) (w w' : World σ) (cs : List OdCall) (d : List UInt8) : Prop where
  node : ∃ n, Wrote w.node cs n ∧ w'.node = n.setSdo w'.node.sdo
  out : ∃ new ok, w'.out = w.out ++ new ++ [⟨w.node.nmt, .send .sdo (w.node.sdoFrame d) ok⟩] ∧
    (∀ e ∈ new, SdoAccess safe w.node.nmt e) ∧ sdoCalls new = cs
  length : d.length = 8
  idle : d.head? = some 0x80 → w'.node.sdo.state = .idle

section Served

variable {safe : Prop} {w₁ : World σ} {cs : List OdCall}

theorem Accesses.reply (h : Accesses safe w w₁ cs) {d : List UInt8} (hlen : d.length = 8)
    (hcmd : d.head? = some 0x80 → w₁.node.sdo.state = .idle) :
    Served safe w (sdoReply A w₁ d) cs d := by
  have hcopy : Accesses safe w (w₁.emit (.copy .frame 0 (min d.length 8))) cs :=
    h.copy (fun _ => by simp [Buffer.size])
  obtain ⟨new, hnew, hall, hcs⟩ := hcopy.out
  refine ⟨h.node, ⟨new, (tx A w₁ .sdo w₁.node.sdoTxId d).1, ?_, hall, hcs⟩, hlen, hcmd⟩
  rw [← hnew, ← h.nmt, CoNode.sdoFrame, ← h.sdoTxId, World.emit_out, List.append_assoc]
  exact tx_out

theorem Accesses.abort (h : Accesses safe w w₁ cs) (index : UInt16) (sub : UInt8) (code : UInt32) :
    Served safe w (sdoAbort A w₁ index sub code) cs (abortBytes index sub code) := by
  -- The source replies before it leaves the transfer; the reply does not depend on it.
  have hrep := h.idle.reply (A := A) (d := abortBytes index sub code) rfl (fun _ => rfl)
  exact ⟨hrep.node, hrep.out, rfl, fun _ => rfl⟩

theorem Served.growsBy {d : List UInt8} (h : Served safe w w₁ cs d) :
    GrowsBy w.node.nmt {.sdo} w w₁ := by
  obtain ⟨new, ok, hnew, hall, -⟩ := h.out
  rw [GrowsBy, hnew, List.append_assoc]
  refine (Grows.refl _ _).append ?_
  intro e he
  rcases List.mem_append.mp he with he | he
  · exact (hall e he).by_sdo
  · obtain rfl := List.mem_singleton.mp he
    exact ⟨rfl, .sdo, rfl, rfl⟩

end Served

-- ════════════════════════════════════════════════════════════════════════
-- The requests
-- ════════════════════════════════════════════════════════════════════════

/-- The server works inside its buffers. -/
def Safe (A : App σ) (s : CoSdo) : Prop := ReadFits A ∧ SdoOk s

/-- The segment is the next one of a running download and fits the buffer. -/
def CoSdo.Accepts (s : CoSdo) (cmd : UInt8) : Prop :=
  s.state = .downloadSeg ∧ cmdToggle cmd = s.toggle ∧ s.pos + segmentLen cmd ≤ coSdoBufSize

instance (s : CoSdo) (cmd : UInt8) : Decidable (s.Accepts cmd) :=
  inferInstanceAs (Decidable (_ ∧ _ ∧ _))

/-- The call of `od_write` that a download segment makes. -/
def CoSdo.segmentCall (s : CoSdo) (cmd : UInt8) (payload : List UInt8) : List OdCall :=
  let n := segmentLen cmd
  if s.Accepts cmd ∧ cmd &&& 1 ≠ 0 ∧ ¬ (s.len ≠ 0 ∧ s.pos + n ≠ s.len) then
    [⟨s.index, s.sub, Bytes.read (Bytes.write s.buf s.pos (payload.take n)) 0 (s.pos + n)⟩]
  else []

/-- The call of `od_write` that a download initiate makes. -/
def initiateCall (cmd : UInt8) (index : UInt16) (sub : UInt8) (payload : List UInt8) :
    List OdCall :=
  if cmd &&& 0x02 ≠ 0 then [⟨index, sub, payload.take (expeditedLen cmd)⟩] else []

/-- The call of `od_write` that a request makes. -/
def SdoRequest.calls (q : SdoRequest) (s : CoSdo) : List OdCall :=
  match q.ccs with
  | 0 => s.segmentCall q.cmd q.data
  | 1 => initiateCall q.cmd q.index q.sub (q.data.drop 3)
  | _ => []

theorem expeditedLen_le (cmd : UInt8) : expeditedLen cmd ≤ 4 := by
  rw [expeditedLen]
  split <;> omega

theorem segmentLen_le (cmd : UInt8) : segmentLen cmd ≤ 7 := by
  rw [segmentLen]
  omega

theorem cmdToggle_lt (cmd : UInt8) : (cmdToggle cmd).toNat < 2 := by
  simp only [cmdToggle, UInt8.toNat_and, UInt8.toNat_one, Nat.and_one_is_mod]
  exact Nat.mod_lt _ (by decide)

/-- Nor is that of an upload segment. -/
theorem segmentCmd_ne (cmd : UInt8) {n last : ℕ} (hn : n ≤ 7) (hlast : last ≤ 1) :
    UInt8.ofNat ((cmdToggle cmd).toNat <<< 4 ||| (7 - n) <<< 1 ||| last) ≠ 0x80 := by
  have hall : ∀ (t : Fin 2) (k : Fin 8) (l : Fin 2),
      UInt8.ofNat (t.val <<< 4 ||| (7 - k.val) <<< 1 ||| l.val) ≠ 0x80 := by decide
  exact hall ⟨_, cmdToggle_lt cmd⟩ ⟨n, by omega⟩ ⟨last, by omega⟩

theorem sdoUploadInitiate_served (index : UInt16) (sub : UInt8) :
    ∃ d, Served (Safe A w.node.sdo) w (sdoUploadInitiate A w index sub) [] d := by
  have hread : Accesses (Safe A w.node.sdo) w (odRead A w index sub coSdoBufSize).2 [] :=
    (Accesses.refl _ w).read index sub coSdoBufSize
  have hfits : ((Act.copy .sdo 0 (odRead A w index sub coSdoBufSize).1.bytes.length).OnSdo →
      Safe A w.node.sdo) →
      0 + (odRead A w index sub coSdoBufSize).1.bytes.length ≤ Buffer.sdo.size := by
    intro h
    rw [Nat.zero_add]
    exact odRead_length (h trivial).1
  simp only [sdoUploadInitiate]
  split
  · exact ⟨_, ((hread.setSdo _).copy hfits).abort _ _ _⟩
  split
  · next hlen =>
    refine ⟨_, Accesses.reply ?_ ?_ ?_⟩
    · refine ((((hread.setSdo _).copy hfits).copy hfits).copy ?_).idle
      exact fun _ => by simp only [Buffer.size]; omega
    · simp only [replyHead, List.length_append, List.length_cons, List.length_nil,
        Bytes.length_leU16,
        Bytes.length_read, List.length_replicate]
      omega
    · exact fun _ => rfl
  · refine ⟨_, Accesses.reply ?_ ?_ ?_⟩
    · exact ((hread.setSdo _).copy hfits).setSdo _
    · rfl
    · simp [replyHead]

theorem sdoDownloadInitiate_served (cmd : UInt8) (index : UInt16) (sub : UInt8)
    (payload : List UInt8) :
    ∃ d, Served (Safe A w.node.sdo) w (sdoDownloadInitiate A w cmd index sub payload)
      (initiateCall cmd index sub payload) d := by
  have hrefl := Accesses.refl (Safe A w.node.sdo) w
  simp only [sdoDownloadInitiate, initiateCall]
  split
  · have hcopy := hrefl.copy (b := .frame) (k := 4) (n := expeditedLen cmd)
      (fun _ => by have := expeditedLen_le cmd; simp only [Buffer.size]; omega)
    have hwrite := hcopy.write (A := A) ⟨index, sub, payload.take (expeditedLen cmd)⟩
    split
    · exact ⟨_, hwrite.abort _ _ _⟩
    · exact ⟨_, hwrite.idle.reply rfl (fun _ => rfl)⟩
  · generalize (if cmd &&& 0x01 ≠ 0 then (coGetU32 payload).toNat else 0) = expected
    split
    · exact ⟨_, hrefl.abort _ _ _⟩
    · exact ⟨_, (hrefl.setSdo _).reply rfl (by simp [replyHead])⟩

theorem sdoUploadSegment_served (cmd : UInt8) :
    ∃ d, Served (Safe A w.node.sdo) w (sdoUploadSegment A w cmd) [] d := by
  have hrefl := Accesses.refl (Safe A w.node.sdo) w
  simp only [sdoUploadSegment]
  split
  · exact ⟨_, hrefl.abort _ _ _⟩
  next hstate =>
  split
  · exact ⟨_, hrefl.abort _ _ _⟩
  · set n := if 7 < w.node.sdo.len - w.node.sdo.pos then 7 else w.node.sdo.len - w.node.sdo.pos
      with hn
    have hle : n ≤ 7 ∧ n ≤ w.node.sdo.len - w.node.sdo.pos := by
      rw [hn]
      split <;> omega
    refine ⟨_, Accesses.reply (((hrefl.copy ?_).copy ?_).setSdo _) ?_ ?_⟩
    · intro h
      have hup := (h trivial).2.upload (not_not.mp hstate)
      simp only [Buffer.size]
      omega
    · intro _
      simp only [Buffer.size]
      omega
    · simp
      omega
    · intro hcmd
      refine absurd (Option.some.inj hcmd) (segmentCmd_ne _ hle.1 ?_)
      split <;> omega

/-- The reply to an accepted download segment is no abort either. -/
theorem ackCmd_ne (cmd : UInt8) : (0x20 : UInt8) ||| cmdToggle cmd <<< 4 ≠ 0x80 := by
  have hall : ∀ t : Fin 2, (0x20 : UInt8) ||| UInt8.ofNat t.val <<< 4 ≠ 0x80 := by decide
  have h := hall ⟨_, cmdToggle_lt cmd⟩
  rwa [UInt8.ofNat_toNat] at h

/-- The server with an accepted segment stored. -/
def CoSdo.store (s : CoSdo) (nowMs : UInt32) (cmd : UInt8) (payload : List UInt8) : CoSdo :=
  { s with
    buf := Bytes.write s.buf s.pos (payload.take (segmentLen cmd)), pos := s.pos + segmentLen cmd,
    lastMs := nowMs, toggle := s.toggle ^^^ 1 }

/-- The world with an accepted segment stored. -/
def segmentStored (w : World σ) (cmd : UInt8) (payload : List UInt8) : World σ :=
  let w' := (w.emit (.copy .frame 1 (segmentLen cmd))).emit
    (.copy .sdo w.node.sdo.pos (segmentLen cmd))
  { w' with node := w.node.setSdo (w.node.sdo.store w.node.nowMs cmd payload) }

/-- The reply to an accepted segment. -/
def ackBytes (cmd : UInt8) : List UInt8 :=
  [(0x20 : UInt8) ||| cmdToggle cmd <<< 4] ++ List.replicate 7 0

theorem sdoDownloadSegment_accepted {cmd : UInt8} {payload : List UInt8}
    (h : w.node.sdo.Accepts cmd) : sdoDownloadSegment A w cmd payload =
      let s := w.node.sdo.store w.node.nowMs cmd payload
      let w' := segmentStored w cmd payload
      if cmd &&& 1 ≠ 0 then
        if s.len ≠ 0 ∧ s.pos ≠ s.len then sdoAbort A w' s.index s.sub abortTypeMismatch
        else
          let r := odWrite A (w'.emit (.copy .sdo 0 s.pos)) .sdo s.index s.sub
            (Bytes.read s.buf 0 s.pos)
          if r.1 ≠ 0 then sdoAbort A (sdoIdle r.2) s.index s.sub r.1
          else sdoReply A (sdoIdle r.2) (ackBytes cmd)
      else sdoReply A w' (ackBytes cmd) := by
  obtain ⟨hstate, htoggle, hroom⟩ := h
  rw [sdoDownloadSegment, if_neg (not_not.mpr hstate), if_neg (not_not.mpr htoggle),
    if_neg (not_lt.mpr hroom)]
  rfl

theorem sdoDownloadSegment_refused {cmd : UInt8} (payload : List UInt8)
    (h : ¬ w.node.sdo.Accepts cmd) :
    ∃ index sub code, sdoDownloadSegment A w cmd payload = sdoAbort A w index sub code := by
  simp only [sdoDownloadSegment]
  split
  · exact ⟨_, _, _, rfl⟩
  next hstate =>
  split
  · exact ⟨_, _, _, rfl⟩
  next htoggle =>
  split
  · exact ⟨_, _, _, rfl⟩
  next hroom => exact absurd ⟨not_not.mp hstate, not_not.mp htoggle, not_lt.mp hroom⟩ h

theorem segmentStored_accesses {cmd : UInt8} (h : w.node.sdo.Accepts cmd) (payload : List UInt8) :
    Accesses (Safe A w.node.sdo) w (segmentStored w cmd payload) [] := by
  have hlen := segmentLen_le cmd
  refine (((Accesses.refl _ w).copy ?_).copy (fun _ => h.2.2)).setSdo _
  intro _
  simp only [Buffer.size]
  omega

theorem sdoDownloadSegment_served (cmd : UInt8) (payload : List UInt8) :
    ∃ d, Served (Safe A w.node.sdo) w (sdoDownloadSegment A w cmd payload)
      (w.node.sdo.segmentCall cmd payload) d := by
  by_cases h : w.node.sdo.Accepts cmd
  · have hstored := segmentStored_accesses (A := A) h payload
    have hack : (ackBytes cmd).head? ≠ some 0x80 := by simpa [ackBytes] using ackCmd_ne cmd
    rw [sdoDownloadSegment_accepted h]
    dsimp only
    split
    · next hlast =>
      split
      · next hlen =>
        have hnone : w.node.sdo.segmentCall cmd payload = [] := if_neg (fun hc => hc.2.2 hlen)
        rw [hnone]
        exact ⟨_, hstored.abort _ _ _⟩
      next hlen =>
      have hcall : w.node.sdo.segmentCall cmd payload = [_] := if_pos ⟨h, hlast, hlen⟩
      have hwrite := (hstored.copy (b := .sdo) (k := 0) (n := w.node.sdo.pos + segmentLen cmd)
        (fun _ => (Nat.zero_add _).trans_le h.2.2)).write (A := A)
        ⟨w.node.sdo.index, w.node.sdo.sub, Bytes.read
          (Bytes.write w.node.sdo.buf w.node.sdo.pos (payload.take (segmentLen cmd))) 0
          (w.node.sdo.pos + segmentLen cmd)⟩
      rw [hcall]
      split
      · exact ⟨_, hwrite.idle.abort _ _ _⟩
      · exact ⟨_, hwrite.idle.reply rfl (fun _ => rfl)⟩
    · next hlast =>
      have hnone : w.node.sdo.segmentCall cmd payload = [] := if_neg (fun hc => hlast hc.2.1)
      rw [hnone]
      exact ⟨_, hstored.reply rfl (fun hc => absurd hc hack)⟩
  · obtain ⟨index, sub, code, heq⟩ := sdoDownloadSegment_refused (A := A) payload h
    have hnone : w.node.sdo.segmentCall cmd payload = [] := if_neg (fun hc => h hc.1)
    rw [heq, hnone]
    exact ⟨_, (Accesses.refl _ w).abort _ _ _⟩

/-- Every request but a client abort is answered once. -/
theorem sdoServe_served {q : SdoRequest} (h : q.ccs ≠ 4) :
    ∃ d, Served (Safe A w.node.sdo) w (sdoServe A w q) (q.calls w.node.sdo) d := by
  rw [sdoServe, SdoRequest.calls]
  generalize hccs : q.ccs = ccs at h ⊢
  match ccs with
  | 0 => exact sdoDownloadSegment_served _ _
  | 1 => exact sdoDownloadInitiate_served _ _ _ _
  | 2 => exact sdoUploadInitiate_served _ _
  | 3 => exact sdoUploadSegment_served _
  | 4 => exact absurd rfl h
  | _ + 5 => exact ⟨_, (Accesses.refl _ w).abort _ _ _⟩

theorem sdoUploadInitiate_ok (hread : ReadFits A) (index : UInt16) (sub : UInt8) :
    SdoOk (sdoUploadInitiate A w index sub).node.sdo := by
  have hlen := @odRead_length _ A w index sub coSdoBufSize hread
  simp only [sdoUploadInitiate]
  split
  · exact SdoOk.idle rfl
  split
  · exact SdoOk.idle rfl
  · next hlong => exact ⟨fun _ => ⟨by simp [CoNode.setSdo]; omega, hlen⟩, nofun⟩

theorem sdoUploadSegment_ok (h : SdoOk w.node.sdo) (cmd : UInt8) :
    SdoOk (sdoUploadSegment A w cmd).node.sdo := by
  simp only [sdoUploadSegment]
  split
  · exact SdoOk.idle rfl
  next hstate =>
  obtain ⟨hpos, hlen⟩ := h.upload (not_not.mp hstate)
  split
  · exact SdoOk.idle rfl
  · simp only [sdoReply_node, CoNode.setSdo, World.emit_node]
    -- A segment shorter than seven bytes is the last one.
    by_cases hlast : 7 < w.node.sdo.len - w.node.sdo.pos
    · have hne : (7 == w.node.sdo.len - w.node.sdo.pos) = false := by
        simpa using Nat.ne_of_lt hlast
      simp only [hlast, if_true, hne, Bool.false_eq_true, if_false]
      exact ⟨fun _ => ⟨by dsimp only; omega, hlen⟩,
        fun hdown => absurd (hdown.symm.trans (not_not.mp hstate)) (by decide)⟩
    · simp only [hlast, if_false, BEq.rfl, if_true]
      exact SdoOk.idle rfl

theorem sdoDownloadInitiate_ok (cmd : UInt8) (index : UInt16) (sub : UInt8) (payload : List UInt8) :
    SdoOk (sdoDownloadInitiate A w cmd index sub payload).node.sdo := by
  simp only [sdoDownloadInitiate]
  split
  · split
    · exact SdoOk.idle rfl
    · exact SdoOk.idle rfl
  · generalize (if cmd &&& 0x01 ≠ 0 then (coGetU32 payload).toNat else 0) = expected
    split
    · exact SdoOk.idle rfl
    · next hfits => exact ⟨nofun, fun _ => ⟨Nat.zero_le _, not_lt.mp hfits⟩⟩

theorem sdoDownloadSegment_ok (h : SdoOk w.node.sdo) (cmd : UInt8) (payload : List UInt8) :
    SdoOk (sdoDownloadSegment A w cmd payload).node.sdo := by
  by_cases hacc : w.node.sdo.Accepts cmd
  · obtain ⟨hstate, -, hroom⟩ := id hacc
    rw [sdoDownloadSegment_accepted hacc]
    dsimp only
    split
    · split
      · exact SdoOk.idle rfl
      split
      · exact SdoOk.idle rfl
      · exact SdoOk.idle rfl
    · exact ⟨fun hup => absurd (hup.symm.trans hstate) (by decide),
        fun _ => ⟨hroom, (h.download hstate).2⟩⟩
  · obtain ⟨index, sub, code, heq⟩ := sdoDownloadSegment_refused (A := A) payload hacc
    rw [heq]
    exact SdoOk.idle rfl

/-- A request keeps the indices of the transfer inside the buffer. -/
theorem sdoServe_ok (h : Safe A w.node.sdo) (q : SdoRequest) : SdoOk (sdoServe A w q).node.sdo := by
  rw [sdoServe]
  match q.ccs with
  | 0 => exact sdoDownloadSegment_ok h.2 _ _
  | 1 => exact sdoDownloadInitiate_ok _ _ _ _
  | 2 => exact sdoUploadInitiate_ok h.1 _ _
  | 3 => exact sdoUploadSegment_ok h.2 _
  | 4 => exact SdoOk.idle rfl
  | _ + 5 => exact SdoOk.idle rfl

/-- A client abort ends the transfer and has no answer. -/
theorem sdoServe_clientAbort {q : SdoRequest} (h : q.ccs = 4) : sdoServe A w q = sdoIdle w := by
  simp [sdoServe, h]

/-- A request changes the node by its calls of `od_write` and in the server only. -/
theorem sdoServe_node (q : SdoRequest) : ∃ n, Wrote w.node (q.calls w.node.sdo) n ∧
    (sdoServe A w q).node = n.setSdo (sdoServe A w q).node.sdo := by
  by_cases h4 : q.ccs = 4
  · have hcalls : q.calls w.node.sdo = [] := by simp [SdoRequest.calls, h4]
    rw [sdoServe_clientAbort h4, hcalls]
    exact ⟨w.node, rfl, rfl⟩
  · obtain ⟨d, hserved⟩ := sdoServe_served (A := A) (w := w) h4
    exact hserved.node

theorem sdoServe_growsBy (q : SdoRequest) : GrowsBy w.node.nmt {.sdo} w (sdoServe A w q) := by
  by_cases h4 : q.ccs = 4
  · rw [sdoServe_clientAbort h4]
    exact Grows.refl _ _
  · obtain ⟨d, hserved⟩ := sdoServe_served (A := A) (w := w) h4
    exact hserved.growsBy

end Fountainer.Canopen
