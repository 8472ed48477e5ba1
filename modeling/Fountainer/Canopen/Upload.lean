import Fountainer.Canopen.Gating

/-!
# SDO uploads

A client that follows CiA 301 beside the server: it sends the initiate and then one
segment request after the other, and puts the object together from the size bits, the
announced length and the counts of unused bytes. It gets the object as it was at the
initiate, unless the object was empty.
-/

namespace Fountainer.Canopen

open Bytes (leU16 leU32)

variable {σ : Type*} {A : App σ} {w : World σ}

-- ════════════════════════════════════════════════════════════════════════
-- The client
-- ════════════════════════════════════════════════════════════════════════

/-- The states of the client. -/
inductive Client where
  | waiting
  | receiving (size : ℕ) (bytes : List UInt8) (toggle : Bool)
  | done (bytes : List UInt8)
  | failed
  deriving DecidableEq, Repr

/-- The command byte of a segment request. -/
def segmentRequest (toggle : Bool) : UInt8 := if toggle then 0x70 else 0x60

namespace Client

/-- The data of the next request. -/
def request (index : UInt16) (sub : UInt8) : Client → Option (List UInt8)
  | waiting => some ([0x40] ++ leU16 index ++ [sub] ++ List.replicate 4 0)
  | receiving _ _ toggle => some ([segmentRequest toggle] ++ List.replicate 7 0)
  | done _ | failed => none

/-- The reply to the initiate: expedited with or without a size, or segmented with a
    length. -/
def initiated (index : UInt16) (sub : UInt8) (d : List UInt8) : Client :=
  let cmd := (d.headD 0).toNat
  let unused := if cmd % 2 = 1 then cmd / 4 % 4 else 0
  if cmd / 32 ≠ 2 ∨ coGetU16 (d.drop 1) ≠ index ∨ d.getD 3 0 ≠ sub then failed
  else if cmd / 2 % 2 = 1 then done ((d.drop 4).take (4 - unused))
  else if cmd % 2 = 1 then receiving (coGetU32 (d.drop 4)).toNat [] false
  else failed

/-- A segment: the bytes that it uses, and the end of the transfer if it is the last. -/
def segment (size : ℕ) (bytes : List UInt8) (toggle : Bool) (d : List UInt8) : Client :=
  let cmd := (d.headD 0).toNat
  let bytes := bytes ++ (d.drop 1).take (7 - cmd / 2 % 8)
  if cmd / 32 ≠ 0 ∨ (cmd / 16 % 2 = 1) ≠ (toggle = true) then failed
  else if cmd % 2 = 1 then if bytes.length = size then done bytes else failed
  else receiving size bytes (!toggle)

/-- The client after a reply. -/
def receive (index : UInt16) (sub : UInt8) (d : List UInt8) : Client → Client
  | waiting => initiated index sub d
  | receiving size bytes toggle => segment size bytes toggle d
  | c => c

end Client

/-- The frame of a request. -/
def CoNode.requestFrame (n : CoNode) (data : List UInt8) : CoFrame := CoFrame.ofBytes n.sdoRxId data

/-- One exchange: the request of the client at time `t` and the reply that the node hands
    to its driver. -/
def exchange (A : App σ) (index : UInt16) (sub : UInt8) (w : World σ) (c : Client) (t : UInt32) :
    World σ × Client :=
  match c.request index sub with
  | none => (w, c)
  | some data =>
    let w' := coStep A w (.rx (w.node.requestFrame data) t)
    match sentOn w.node.sdoTxId w'.out with
    | [f] => (w', c.receive index sub f.data.toList)
    | _ => (w', .failed)

/-- The exchanges at the given times, each after other calls. -/
def upload (A : App σ) (index : UInt16) (sub : UInt8) :
    World σ → Client → List (List (CoCall σ) × UInt32) → Client
  | _, c, [] => c
  | w, c, (gap, t) :: rest =>
    let r := exchange A index sub (Machine.run (coStep A) w gap) c t
    upload A index sub r.1 r.2 rest

/-- A client that has the object asks for nothing more. -/
theorem upload_done (index : UInt16) (sub : UInt8) (w : World σ) (bytes : List UInt8)
    (rounds : List (List (CoCall σ) × UInt32)) :
    upload A index sub w (.done bytes) rounds = .done bytes := by
  induction rounds generalizing w with
  | nil => rfl
  | cons round rounds ih => exact ih _

/-- The call leaves a running transfer alone: no other request, no stop or reset, and no
    tick after the timeout. -/
def LeavesTransfer (w : World σ) : CoCall σ → Prop
  | .rx f _ => ¬ w.node.RequestIn f ∧ ∀ cmd ∈ w.node.command f, cmd.endsTransfer = false
  | .tick t => ¬ w.node.sdo.TimedOut t
  | _ => True

/-- The calls between the exchanges leave the transfer alone. -/
def Undisturbed (A : App σ) (index : UInt16) (sub : UInt8) :
    World σ → Client → List (List (CoCall σ) × UInt32) → Prop
  | _, _, [] => True
  | w, c, (gap, t) :: rest =>
    Machine.Guarded (coStep A) LeavesTransfer w gap ∧
      let r := exchange A index sub (Machine.run (coStep A) w gap) c t
      Undisturbed A index sub r.1 r.2 rest

-- ════════════════════════════════════════════════════════════════════════
-- Frames
-- ════════════════════════════════════════════════════════════════════════

section Frames

variable {data d : List UInt8} {t : UInt32}

theorem CoNode.requestFrame_in {n : CoNode} (hid : n.cfg.nodeId.toNat ≤ 127)
    (hlen : data.length = 8) :
    n.RequestIn (n.requestFrame data) := by
  refine ⟨CoFrame.ofBytes_id ?_ data, Fin.ext ?_, rfl⟩
  · rw [CoNode.sdoRxId, UInt16.toNat_add, UInt8.toNat_toUInt16]
    exact (Nat.mod_le _ _).trans_lt (by simp; omega)
  · simp [CoNode.requestFrame, CoFrame.ofBytes, hlen]

/-- The frame as the server takes it apart. -/
theorem CoNode.requestFrame_request {n : CoNode} (hlen : data.length = 8) :
    (n.requestFrame data).request =
      { cmd := data.getD 0 0, index := coGetU16 (data.drop 1), sub := data.getD 3 0,
        data := data.drop 1 } := by
  have hdata : (n.requestFrame data).data.toList = data := CoFrame.ofBytes_data hlen
  rw [CoFrame.request, hdata]
  simp [CoNode.requestFrame, CoFrame.ofBytes, CoFrame.cmd]

/-- What the bus carries of a reply. -/
theorem sentOn_sdoReply {n : CoNode} (hid : n.cfg.nodeId.toNat ≤ 127)
    (hn : w.node.cfg.nodeId = n.cfg.nodeId)
    (hsilent : w.out.filterMap (fun e => e.act.frame?) = []) :
    sentOn n.sdoTxId (sdoReply A w d).out = [n.sdoFrame d] := by
  have hout : (sdoReply A w d).out = _ := tx_out
  have hframe := CoNode.sdoFrame_id hid d
  rw [hout, sentOn, List.filterMap_append, hsilent, hn]
  simp only [CoNode.sdoFrame, CoNode.sdoTxId] at hframe ⊢
  simp [Act.frame?, hframe]

/-- The request as the node serves it. -/
theorem coStep_requestFrame (hnmt : w.node.nmt.Serving) (hid : w.node.cfg.nodeId.toNat ≤ 127)
    (hlen : data.length = 8) : coStep A w (.rx (w.node.requestFrame data) t) =
      sdoServe A (noted { w with out := [] } t)
        { cmd := data.getD 0 0, index := coGetU16 (data.drop 1), sub := data.getD 3 0,
          data := data.drop 1 } := by
  rw [← CoNode.requestFrame_request (n := w.node) hlen]
  exact coCall_request (w := { w with out := [] }) hnmt (CoNode.requestFrame_in hid hlen) t

end Frames

-- ════════════════════════════════════════════════════════════════════════
-- Segments
-- ════════════════════════════════════════════════════════════════════════

/-- The server is sending `bytes` in segments, the next one from `pos` on. -/
structure Uploading (w : World σ) (bytes : List UInt8) (pos : ℕ) (toggle : Bool) : Prop where
  nmt : w.node.nmt.Serving
  nodeId : w.node.cfg.nodeId.toNat ≤ 127
  state : w.node.sdo.state = .uploadSeg
  len : w.node.sdo.len = bytes.length
  pos : w.node.sdo.pos = pos
  buf : Bytes.Holds w.node.sdo.buf 0 bytes
  toggle : w.node.sdo.toggle = if toggle then 1 else 0

section Segments

variable {bytes : List UInt8} {pos : ℕ} {toggle : Bool}

/-- A call that leaves the transfer alone does not touch the server, whatever it does to
    the objects. -/
theorem Uploading.leaves (h : Uploading w bytes pos toggle) {c : CoCall σ}
    (hc : LeavesTransfer w c) :
    Uploading (coStep A w c) bytes pos toggle := by
  have hspine := coCall_spine A { w with out := [] } c
  have hkey : (coStep A w c).node.spine.nmt.Serving ∧
      (coStep A w c).node.spine.sdo = w.node.sdo := by
    change (coCall A { w with out := [] } c).node.spine.nmt.Serving ∧
      (coCall A { w with out := [] } c).node.spine.sdo = w.node.sdo
    generalize (coCall A { w with out := [] } c).node.spine = s at hspine
    cases hspine with
    | command f t cmd hcmd =>
      have hends := hc.2 cmd hcmd
      cases cmd <;> simp_all [NmtCmd.endsTransfer, NmtCmd.target, NmtState.Serving]
    | request f t hnmt hreq => exact absurd hreq hc.1
    | quiet => exact ⟨h.nmt, rfl⟩
    | tick t flag => exact ⟨h.nmt, if_neg hc⟩
    | other => exact ⟨h.nmt, rfl⟩
  have hsdo : (coStep A w c).node.sdo = w.node.sdo := hkey.2
  refine ⟨hkey.1, ?_, ?_, ?_, ?_, ?_, ?_⟩
  · rw [show (coStep A w c).node.cfg.nodeId = _ from coCall_nodeId c]
    exact h.nodeId
  · rw [hsdo, h.state]
  · rw [hsdo, h.len]
  · rw [hsdo, h.pos]
  · rw [hsdo]
    exact h.buf
  · rw [hsdo, h.toggle]

theorem Uploading.gap (h : Uploading w bytes pos toggle) {gap : List (CoCall σ)}
    (hgap : Machine.Guarded (coStep A) LeavesTransfer w gap) :
    Uploading (Machine.run (coStep A) w gap) bytes pos toggle :=
  hgap.invariant (P := fun w => Uploading w bytes pos toggle) (coStep A)
    (fun _ _ hc h => h.leaves hc) h

/-- The command byte of a segment reply as the client reads it. -/
theorem segmentCmd_toNat (toggle : Bool) {n : ℕ} (hn : n ≤ 7) (last : Bool) :
    (UInt8.ofNat ((if toggle then (1 : UInt8) else 0).toNat <<< 4 ||| (7 - n) <<< 1 |||
      (if last then 1 else 0))).toNat =
      (if toggle then 16 else 0) + 2 * (7 - n) + (if last then 1 else 0) := by
  have hall : ∀ (t : Bool) (k : Fin 8) (l : Bool),
      (UInt8.ofNat ((if t then (1 : UInt8) else 0).toNat <<< 4 ||| (7 - k.val) <<< 1 |||
        (if l then 1 else 0))).toNat =
        (if t then 16 else 0) + 2 * (7 - k.val) + (if l then 1 else 0) := by decide
  exact hall toggle ⟨n, by omega⟩ last

/-- The reply to a segment request with the toggle that the server expects. -/
theorem sdoUploadSegment_running {cmd : UInt8} (hstate : w.node.sdo.state = .uploadSeg)
    (htoggle : cmdToggle cmd = w.node.sdo.toggle) :
    let s := w.node.sdo
    let n := if 7 < s.len - s.pos then 7 else s.len - s.pos
    let last := n == s.len - s.pos
    sdoUploadSegment A w cmd = sdoReply A
      { ((w.emit (.copy .sdo s.pos n)).emit (.copy .frame 1 n)) with
        node := w.node.setSdo { s with
          pos := s.pos + n, toggle := s.toggle ^^^ 1, lastMs := w.node.nowMs
          state := if last then .idle else s.state } }
      ([UInt8.ofNat ((cmdToggle cmd).toNat <<< 4 ||| (7 - n) <<< 1 ||| if last then 1 else 0)] ++
        (Bytes.read s.buf s.pos n ++ List.replicate (7 - n) 0)) := by
  rw [sdoUploadSegment, if_neg (not_not.mpr hstate), if_neg (not_not.mpr htoggle)]
  rfl

theorem Client.segment_reply (toggle : Bool) (size : ℕ) (acc : List UInt8) {chunk : List UInt8}
    {last : Bool} {cmd : UInt8}
    (hchunk : chunk.length ≤ 7)
    (hcmd : cmd.toNat =
      (if toggle then 16 else 0) + 2 * (7 - chunk.length) + (if last then 1 else 0)) :
    Client.segment size acc toggle
        ([cmd] ++ (chunk ++ List.replicate (7 - chunk.length) 0)) =
      if last then if (acc ++ chunk).length = size then .done (acc ++ chunk) else .failed
      else .receiving size (acc ++ chunk) (!toggle) := by
  have hscs : cmd.toNat / 32 = 0 := by
    rw [hcmd]
    split <;> split <;> omega
  have htoggle : (cmd.toNat / 16 % 2 = 1) = (toggle = true) := by
    rw [hcmd]
    cases toggle <;> cases last <;> simp <;> omega
  have hunused : cmd.toNat / 2 % 8 = 7 - chunk.length := by
    rw [hcmd]
    split <;> split <;> omega
  have hlast : (cmd.toNat % 2 = 1) = (last = true) := by
    rw [hcmd, eq_iff_iff]
    cases last <;> simp only [Bool.false_eq_true, if_true, if_false, iff_true, iff_false] <;>
      split <;> omega
  have htake : (chunk ++ List.replicate (7 - chunk.length) (0 : UInt8)).take
      (7 - (7 - chunk.length)) = chunk := by
    rw [show 7 - (7 - chunk.length) = chunk.length by omega]
    exact List.take_left
  simp only [Client.segment, List.singleton_append, List.headD_cons, List.drop_succ_cons,
    List.drop_zero, hscs, htoggle, hunused, hlast, htake, ne_eq, not_true_eq_false,
    or_self, if_false]

/-- The bytes of one segment. -/
theorem Uploading.read_segment (h : Uploading w bytes pos toggle) {n : ℕ}
    (hn : pos + n ≤ bytes.length) :
    Bytes.read w.node.sdo.buf pos n = (bytes.drop pos).take n := by
  have hholds : Bytes.Holds w.node.sdo.buf pos ((bytes.drop pos).take n) := by
    intro i hi
    simp only [List.length_take, List.length_drop] at hi
    rw [List.getElem_take, List.getElem_drop, ← h.buf (pos + i) (by omega), Nat.zero_add]
  have hlen : ((bytes.drop pos).take n).length = n := by
    rw [List.length_take, List.length_drop]
    omega
  rw [← Bytes.read_eq_of_holds hholds, hlen]

theorem segmentRequest_toggle (toggle : Bool) :
    cmdToggle (segmentRequest toggle) = if toggle then 1 else 0 := by
  cases toggle <;> decide

/-- The segment that the server sends next. -/
def nextLen (bytes : List UInt8) (pos : ℕ) : ℕ :=
  if 7 < bytes.length - pos then 7 else bytes.length - pos

/-- The server has sent the segment: the frame it handed over, and where it stands. -/
theorem Uploading.segment (h : Uploading w bytes pos toggle) (t : UInt32) :
    ∃ cmd : UInt8,
      cmd.toNat = (if toggle then 16 else 0) + 2 * (7 - nextLen bytes pos) +
        (if nextLen bytes pos == bytes.length - pos then 1 else 0) ∧
      sentOn w.node.sdoTxId (sdoUploadSegment A (noted { w with out := [] } t)
        (segmentRequest toggle)).out = [w.node.sdoFrame ([cmd] ++
          (Bytes.read w.node.sdo.buf pos (nextLen bytes pos) ++
            List.replicate (7 - nextLen bytes pos) 0))] ∧
      (sdoUploadSegment A (noted { w with out := [] } t) (segmentRequest toggle)).node =
        (noted w t).node.setSdo { w.node.sdo with
          len := bytes.length, pos := pos + nextLen bytes pos
          toggle := w.node.sdo.toggle ^^^ 1, lastMs := t
          state := if nextLen bytes pos == bytes.length - pos then .idle else .uploadSeg } := by
  have htoggle : cmdToggle (segmentRequest toggle) = w.node.sdo.toggle := by
    rw [segmentRequest_toggle, h.toggle]
  have hrun := @sdoUploadSegment_running _ A (noted { w with out := [] } t) (segmentRequest toggle)
    h.state htoggle
  have hn : nextLen bytes pos ≤ 7 := by
    rw [nextLen]
    split <;> omega
  have hsdo : (noted { w with out := [] } t).node.sdo = w.node.sdo := rfl
  have hnext : (if 7 < bytes.length - pos then 7 else bytes.length - pos) = nextLen bytes pos := rfl
  simp only [hsdo, h.len, h.pos, segmentRequest_toggle, h.state, hnext] at hrun
  refine ⟨_, segmentCmd_toNat toggle hn _, ?_, ?_⟩
  · rw [hrun]
    exact sentOn_sdoReply h.nodeId rfl rfl
  · rw [hrun, sdoReply_node]
    rfl

/-- One segment: the client has the next seven bytes, or all of them. -/
theorem Uploading.exchange (h : Uploading w bytes pos toggle) (hpos : pos < bytes.length)
    (index : UInt16) (sub : UInt8) (t : UInt32) :
    let r := Canopen.exchange A index sub w (.receiving bytes.length (bytes.take pos) toggle) t
    if bytes.length - pos ≤ 7 then r.2 = .done bytes
    else r.2 = .receiving bytes.length (bytes.take (pos + 7)) (!toggle) ∧
      Uploading r.1 bytes (pos + 7) (!toggle) := by
  obtain ⟨cmd, hcmd, hsent, hnode⟩ := h.segment (A := A) t
  have hle : nextLen bytes pos ≤ 7 ∧ pos + nextLen bytes pos ≤ bytes.length := by
    rw [nextLen]
    split <;> omega
  have hserve :
    coStep A w (.rx (w.node.requestFrame ([segmentRequest toggle] ++ List.replicate 7 0)) t) =
      sdoUploadSegment A (noted { w with out := [] } t) (segmentRequest toggle) := by
    rw [coStep_requestFrame h.nmt h.nodeId (by simp)]
    cases toggle <;> rfl
  set chunk := (bytes.drop pos).take (nextLen bytes pos) with hchunk
  have hlen : chunk.length = nextLen bytes pos := by
    rw [hchunk, List.length_take, List.length_drop]
    omega
  have hacc : bytes.take pos ++ chunk = bytes.take (pos + nextLen bytes pos) := by
    rw [hchunk, List.take_add]
  rw [h.read_segment hle.2, ← hchunk, ← hlen] at hsent
  rw [← hlen] at hcmd
  have hclient := Client.segment_reply toggle bytes.length (bytes.take pos) (by omega) hcmd
  have hdata :
    (w.node.sdoFrame ([cmd] ++ (chunk ++ List.replicate (7 - chunk.length) 0))).data.toList =
      [cmd] ++ (chunk ++ List.replicate (7 - chunk.length) 0) := by
    apply CoFrame.ofBytes_data
    simp
    omega
  have hr : Canopen.exchange A index sub w (.receiving bytes.length (bytes.take pos) toggle) t =
      (sdoUploadSegment A (noted { w with out := [] } t) (segmentRequest toggle),
        Client.segment bytes.length (bytes.take pos) toggle
          ([cmd] ++ (chunk ++ List.replicate (7 - chunk.length) 0))) := by
    simp only [Canopen.exchange, Client.request, hserve, hsent, hdata, Client.receive]
  rw [hr]
  dsimp only
  rw [hclient]
  by_cases hlast : bytes.length - pos ≤ 7
  · have hn : nextLen bytes pos = bytes.length - pos := if_neg (not_lt.mpr hlast)
    have hall : bytes.take pos ++ chunk = bytes := by
      rw [hacc, hn, show pos + (bytes.length - pos) = bytes.length by omega, List.take_length]
    have hend : (chunk.length == bytes.length - pos) = true := by simp [hlen, hn]
    rw [if_pos hlast, if_pos hend, hall, if_pos rfl]
  · have hn : nextLen bytes pos = 7 := if_pos (not_le.mp hlast)
    have hmore : ¬ (chunk.length == bytes.length - pos) = true := by
      simp only [hlen, hn, beq_iff_eq]
      omega
    have hmore' : ¬ (nextLen bytes pos == bytes.length - pos) = true := by rwa [← hlen]
    rw [if_neg hlast, if_neg hmore, hacc, hn]
    rw [if_neg hmore', hn] at hnode
    refine ⟨rfl, ?_, ?_, ?_, ?_, ?_, ?_, ?_⟩
    · rw [hnode]
      exact h.nmt
    · rw [hnode]
      exact h.nodeId
    · rw [hnode]
      rfl
    · rw [hnode]
      rfl
    · rw [hnode]
      rfl
    · rw [hnode]
      exact h.buf
    · rw [hnode]
      change w.node.sdo.toggle ^^^ 1 = _
      rw [h.toggle]
      cases toggle <;> rfl

/-- The rest of the transfer: enough segment requests give the whole object. -/
theorem Uploading.upload (h : Uploading w bytes pos toggle) (hpos : pos < bytes.length)
    (index : UInt16) (sub : UInt8) {rounds : List (List (CoCall σ) × UInt32)}
    (hrounds : bytes.length - pos ≤ 7 * rounds.length)
    (hquiet : Undisturbed A index sub w (.receiving bytes.length (bytes.take pos) toggle) rounds) :
    Canopen.upload A index sub w (.receiving bytes.length (bytes.take pos) toggle) rounds =
      .done bytes := by
  induction rounds generalizing w pos toggle with
  | nil =>
    simp only [List.length_nil] at hrounds
    omega
  | cons round rounds ih =>
    obtain ⟨gap, t⟩ := round
    obtain ⟨hgap, hrest⟩ := hquiet
    have hstep := (h.gap hgap).exchange (A := A) hpos index sub t
    simp only [Canopen.upload]
    by_cases hlast : bytes.length - pos ≤ 7
    · simp only [hlast, if_true] at hstep
      rw [hstep]
      exact upload_done index sub _ bytes rounds
    · simp only [hlast, if_false] at hstep
      obtain ⟨hclient, hnext⟩ := hstep
      dsimp only at hrest
      rw [hclient] at hrest ⊢
      simp only [List.length_cons] at hrounds
      exact ih hnext (by omega) (by omega) hrest

end Segments

-- ════════════════════════════════════════════════════════════════════════
-- The initiate
-- ════════════════════════════════════════════════════════════════════════

section Initiate

variable {bytes : List UInt8} {index : UInt16} {sub : UInt8} {t : UInt32}

theorem Client.initiated_reply (cmd : UInt8) (tail : List UInt8) :
    Client.initiated index sub (replyHead cmd index sub ++ tail) =
      if cmd.toNat / 32 ≠ 2 then .failed
      else if cmd.toNat / 2 % 2 = 1 then
        .done (tail.take (4 - if cmd.toNat % 2 = 1 then cmd.toNat / 4 % 4 else 0))
      else if cmd.toNat % 2 = 1 then .receiving (coGetU32 tail).toNat [] false
      else .failed := by
  have hindex : coGetU16 ((replyHead cmd index sub ++ tail).drop 1) = index :=
    coGetU16_append index ([sub] ++ tail)
  have hsub : (replyHead cmd index sub ++ tail).getD 3 0 = sub := rfl
  simp only [Client.initiated, hindex, hsub, ne_eq, not_true_eq_false, or_false]
  rfl

/-- The size bits of an expedited reply have no room for the length 0. -/
theorem Client.initiated_expedited (hlen : bytes.length ≤ 4) :
    Client.initiated index sub
    (replyHead (UInt8.ofNat (0x43 ||| (4 - bytes.length) <<< 2)) index sub ++
      (bytes ++ List.replicate (4 - bytes.length) 0)) =
      if bytes = [] then .done [0, 0, 0, 0] else .done bytes := by
  rw [Client.initiated_reply]
  by_cases hnil : bytes = []
  · subst hnil
    rfl
  · have hpos : 0 < bytes.length := List.length_pos_iff.mpr hnil
    have hall : ∀ k : Fin 5, 0 < k.val →
        let cmd := (UInt8.ofNat (0x43 ||| (4 - k.val) <<< 2)).toNat
        cmd / 32 = 2 ∧ cmd / 2 % 2 = 1 ∧ cmd % 2 = 1 ∧ cmd / 4 % 4 = 4 - k.val := by decide
    obtain ⟨hscs, hexp, hsize, hunused⟩ := hall ⟨bytes.length, by omega⟩ hpos
    have htake : (bytes ++ List.replicate (4 - bytes.length) (0 : UInt8)).take
        (4 - (4 - bytes.length)) = bytes := by
      rw [show 4 - (4 - bytes.length) = bytes.length by omega]
      exact List.take_left
    simp only [hscs, hexp, hsize, hunused, htake, hnil, ne_eq, not_true_eq_false, if_false, if_true]

theorem coGetU32_leU32 (v : UInt32) : coGetU32 (leU32 v) = v := by
  apply Bytes.rdU32_of_holds
  intro i hi
  dsimp only
  rw [Nat.zero_add]
  exact List.getD_eq_getElem _ _ hi

theorem Client.initiated_segmented (hlen : bytes.length ≤ coSdoBufSize) :
    Client.initiated index sub (replyHead 0x41 index sub ++ leU32 (UInt32.ofNat bytes.length)) =
      .receiving bytes.length [] false := by
  have hsize : (UInt32.ofNat bytes.length).toNat = bytes.length := by
    rw [UInt32.toNat_ofNat']
    exact Nat.mod_eq_of_lt (Nat.lt_of_le_of_lt hlen (by decide))
  rw [Client.initiated_reply, coGetU32_leU32, hsize]
  rfl

theorem sdoServe_uploadInitiate {q : SdoRequest} (h : q.ccs = 2) :
    sdoServe A w q = sdoUploadInitiate A w q.index q.sub := by
  simp [sdoServe, h]

/-- The initiate: the client has a short object, and an empty one as four zeros; a long
    one the server starts to send, as it was when it was read. -/
theorem exchange_initiate (hnmt : w.node.nmt.Serving) (hid : w.node.cfg.nodeId.toNat ≤ 127)
    (hread : (odRead A (noted { w with out := [] } t) index sub coSdoBufSize).1 =
      { code := 0, bytes }) (hlen : bytes.length ≤ coSdoBufSize) :
    let r := exchange A index sub w .waiting t
    if bytes.length ≤ 4 then r.2 = if bytes = [] then .done [0, 0, 0, 0] else .done bytes
    else r.2 = .receiving bytes.length [] false ∧ Uploading r.1 bytes 0 false := by
  have hserve : coStep A w (.rx (w.node.requestFrame
      ([0x40] ++ leU16 index ++ [sub] ++ List.replicate 4 0)) t) =
        sdoUploadInitiate A (noted { w with out := [] } t) index sub := by
    rw [coStep_requestFrame hnmt hid rfl]
    have hindex :
      coGetU16 (([0x40] ++ leU16 index ++ [sub] ++ List.replicate 4 0).drop 1) = index :=
      coGetU16_append index ([sub] ++ List.replicate 4 0)
    rw [hindex]
    refine sdoServe_uploadInitiate ?_
    simp [SdoRequest.ccs]
  have hdata : ∀ d : List UInt8, d.length = 8 → (w.node.sdoFrame d).data.toList = d :=
    fun d hd => CoFrame.ofBytes_data hd
  simp only [exchange, Client.request, hserve]
  by_cases hshort : bytes.length ≤ 4
  · have hsent : sentOn w.node.sdoTxId
        (sdoUploadInitiate A (noted { w with out := [] } t) index sub).out =
        [w.node.sdoFrame (replyHead (UInt8.ofNat (0x43 ||| (4 - bytes.length) <<< 2)) index sub ++
          (bytes ++ List.replicate (4 - bytes.length) 0))] := by
      simp only [sdoUploadInitiate, hread, ne_eq, not_true_eq_false, if_false, hshort, if_true,
        Bytes.read_write_self]
      refine sentOn_sdoReply hid ?_ ?_
      · simp [sdoIdle, CoNode.setSdo, noted, masterNote, atTime]
      · simp [sdoIdle, Act.frame?, noted, masterNote, atTime]
    have hlen8 : (replyHead (UInt8.ofNat (0x43 ||| (4 - bytes.length) <<< 2)) index sub ++
        (bytes ++ List.replicate (4 - bytes.length) 0)).length = 8 := by
      simp [replyHead]
      omega
    rw [hsent]
    simp only [hshort, if_true, hdata _ hlen8, Client.receive]
    exact Client.initiated_expedited hshort
  · have hsent : sentOn w.node.sdoTxId
        (sdoUploadInitiate A (noted { w with out := [] } t) index sub).out =
        [w.node.sdoFrame (replyHead 0x41 index sub ++ leU32 (UInt32.ofNat bytes.length))] := by
      simp only [sdoUploadInitiate, hread, ne_eq, not_true_eq_false, if_false, hshort]
      refine sentOn_sdoReply hid ?_ ?_
      · simp [CoNode.setSdo, noted, masterNote, atTime]
      · simp [Act.frame?, noted, masterNote, atTime]
    rw [hsent]
    simp only [hshort, if_false,
      hdata (replyHead 0x41 index sub ++ leU32 (UInt32.ofNat bytes.length)) rfl, Client.receive]
    refine ⟨Client.initiated_segmented hlen, ?_⟩
    simp only [sdoUploadInitiate, hread, ne_eq, not_true_eq_false, if_false, hshort]
    constructor
    · simpa [CoNode.setSdo, noted, masterNote, atTime] using hnmt
    · simpa [CoNode.setSdo, noted, masterNote, atTime] using hid
    · rfl
    · rfl
    · rfl
    · exact Bytes.holds_write _ _ _
    · rfl

end Initiate

/-- **SDO uploads**: in every reachable state that serves requests, a client that follows
    the protocol with enough segment requests ends with exactly the bytes that `od_read`
    gave at the initiate, if and only if these are not empty. Between the requests the
    object and everything else may change. -/
theorem upload_obtains_iff (A : App σ) (cfg : CoConfig) (nowMs : UInt32) (app : σ)
    (calls : List (CoCall σ)) (index : UInt16) (sub : UInt8) (t : UInt32) (bytes : List UInt8)
    (rounds : List (List (CoCall σ) × UInt32)) :
    let w := coRun A cfg nowMs app calls
    w.node.nmt.Serving →
    (odRead A (noted w t) index sub coSdoBufSize).1 = { code := 0, bytes } →
    bytes.length ≤ coSdoBufSize →
    (4 < bytes.length → bytes.length ≤ 7 * rounds.length) →
    Undisturbed A index sub w .waiting (([], t) :: rounds) →
      (upload A index sub w .waiting (([], t) :: rounds) = .done bytes ↔ bytes ≠ []) := by
  intro w hnmt hread hlen hrounds hquiet
  have hid : w.node.cfg.nodeId.toNat ≤ 127 := by
    rw [show w.node.cfg.nodeId = _ from coRun_nodeId cfg nowMs app calls]
    exact validNodeId_le cfg.nodeId
  have hread' : (odRead A (noted { w with out := [] } t) index sub coSdoBufSize).1 =
      { code := 0, bytes } := by
    rw [← hread]
    exact (@odRead_congr _ A (noted w t) (noted { w with out := [] } t) index sub coSdoBufSize
      rfl rfl).1
  have hfirst := exchange_initiate hnmt hid hread' hlen
  obtain ⟨-, hrest⟩ := hquiet
  simp only [upload, Machine.run_nil] at hrest ⊢
  by_cases hshort : bytes.length ≤ 4
  · simp only [hshort, if_true] at hfirst
    rw [hfirst]
    by_cases hnil : bytes = []
    · rw [if_pos hnil, upload_done]
      simp [hnil]
    · rw [if_neg hnil, upload_done]
      simp [hnil]
  · simp only [hshort, if_false] at hfirst
    obtain ⟨hclient, hstart⟩ := hfirst
    have hlong := not_le.mp hshort
    rw [hclient] at hrest ⊢
    have hdone := hstart.upload (by omega) index sub (hrounds hlong) hrest
    rw [List.take_zero] at hdone
    rw [hdone]
    have hne : bytes ≠ [] := by
      rintro rfl
      simp at hlong
    simp [hne]

/-- An object of six bytes at 0x2000. -/
def sixByteObject (index : UInt16) : Option (List UInt8) :=
  if index = 0x2000 then some [1, 2, 3, 4, 5, 6] else none

theorem upload_obtains_six_bytes :
    upload (tableApp sixByteObject) 0x2000 0
      (coRun (tableApp sixByteObject) exampleConfig 0 () []) .waiting [([], 1), ([], 2)] =
        .done [1, 2, 3, 4, 5, 6] :=
  (upload_obtains_iff (tableApp sixByteObject) exampleConfig 0 () [] 0x2000 0 1 [1, 2, 3, 4, 5, 6]
    [([], 2)] (by decide) rfl (by decide) (by decide) ⟨trivial, trivial, trivial⟩).mpr (by decide)

/-- An empty object at 0x2000. -/
def emptyObject (index : UInt16) : Option (List UInt8) :=
  if index = 0x2000 then some [] else none

/-- The client takes an empty object for four zeros. -/
theorem upload_empty_object :
    (odRead (tableApp emptyObject) (noted (coRun (tableApp emptyObject) exampleConfig 0 () []) 1)
        0x2000 0 coSdoBufSize).1 = { code := 0, bytes := [] } ∧
      upload (tableApp emptyObject) 0x2000 0 (coRun (tableApp emptyObject) exampleConfig 0 () [])
        .waiting [([], 1)] ≠ .done [] := by
  constructor
  · rfl
  · decide

end Fountainer.Canopen
