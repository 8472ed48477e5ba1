import Fountainer.Canopen.Gating

/-!
# SDO downloads

The download protocol without a buffer: a transfer has the object it is for, the size the
client announced, if any, and the bytes accepted so far, and it ends in one write or in
none. The server does what this protocol says, but for one case: it keeps an announced
size of 0 as "no size announced".
-/

namespace Fountainer.Canopen

open Traces (Grows)

variable {σ : Type*} {A : App σ} {w : World σ}

-- ════════════════════════════════════════════════════════════════════════
-- The protocol
-- ════════════════════════════════════════════════════════════════════════

/-- A segmented download under way. -/
structure Transfer where
  index : UInt16
  sub : UInt8
  size : Option ℕ
  bytes : List UInt8
  toggle : UInt8
  lastMs : UInt32

namespace Transfer

/-- The segment is the next one and the server has room for it. -/
def Next (tr : Transfer) (cmd : UInt8) : Prop :=
  cmdToggle cmd = tr.toggle ∧ tr.bytes.length + segmentLen cmd ≤ coSdoBufSize

instance (tr : Transfer) (cmd : UInt8) : Decidable (tr.Next cmd) :=
  inferInstanceAs (Decidable (_ ∧ _))

/-- The bytes with those of the segment behind them. -/
def withSegment (tr : Transfer) (q : SdoRequest) : List UInt8 :=
  tr.bytes ++ q.data.take (segmentLen q.cmd)

/-- The transfer after a segment, if it goes on. -/
def afterSegment (tr : Transfer) (nowMs : UInt32) (q : SdoRequest) : Option Transfer :=
  if tr.Next q.cmd ∧ q.cmd &&& 1 = 0 then
    some { tr with bytes := tr.withSegment q, toggle := tr.toggle ^^^ 1, lastMs := nowMs }
  else none

/-- The write that a segment completes: all the bytes, if they are as many as announced. -/
def completed (tr : Transfer) (q : SdoRequest) : List OdCall :=
  if tr.Next q.cmd ∧ q.cmd &&& 1 ≠ 0 ∧ ∀ size ∈ tr.size, size = (tr.withSegment q).length then
    [⟨tr.index, tr.sub, tr.withSegment q⟩]
  else []

end Transfer

/-- The size that a segmented initiate announces. -/
def SdoRequest.size (q : SdoRequest) : Option ℕ :=
  if q.cmd &&& 0x01 ≠ 0 then some (coGetU32 (q.data.drop 3)).toNat else none

/-- The transfer after a request. -/
def SdoRequest.transfer (q : SdoRequest) (nowMs : UInt32) (tr : Option Transfer) :
    Option Transfer :=
  match q.ccs with
  | 0 => tr.bind (fun tr => tr.afterSegment nowMs q)
  | 1 =>
    if q.cmd &&& 0x02 ≠ 0 ∨ ∃ size ∈ q.size, coSdoBufSize < size then none
    else some
      { index := q.index, sub := q.sub, size := q.size, bytes := [], toggle := 0, lastMs := nowMs }
  | _ => none

/-- The writes that a request completes. -/
def SdoRequest.writes (q : SdoRequest) (tr : Option Transfer) : List OdCall :=
  match q.ccs with
  | 0 => (tr.map (fun tr => tr.completed q)).getD []
  | 1 =>
    if q.cmd &&& 0x02 ≠ 0 then [⟨q.index, q.sub, (q.data.drop 3).take (expeditedLen q.cmd)⟩] else []
  | _ => []

/-- The transfer after a call. A stop, a reset or the timeout ends it. -/
def transferAfter (n : CoNode) (tr : Option Transfer) : CoCall σ → Option Transfer
  | .rx f t =>
    if n.nmt.Serving ∧ n.RequestIn f then f.request.transfer t tr
    else
      match n.command f with
      | some cmd => if cmd.endsTransfer then none else tr
      | none => tr
  | .tick t => tr.filter (fun tr => ¬ coSdoTimeoutMs < t - tr.lastMs)
  | _ => tr

/-- The writes that a call completes. -/
def writesOf (n : CoNode) (tr : Option Transfer) : CoCall σ → List OdCall
  | .rx f _ => if n.nmt.Serving ∧ n.RequestIn f then f.request.writes tr else []
  | _ => []

/-- The last segment of a download that announced the size 0 brings it to some bytes. -/
def ZeroSizeEnd (n : CoNode) (tr : Option Transfer) : CoCall σ → Prop
  | .rx f _ => n.nmt.Serving ∧ n.RequestIn f ∧ f.request.ccs = 0 ∧
      ∃ x ∈ tr, x.size = some 0 ∧ x.Next f.request.cmd ∧ f.request.cmd &&& 1 ≠ 0 ∧
        x.withSegment f.request ≠ []
  | _ => False

-- ════════════════════════════════════════════════════════════════════════
-- The server keeps the transfer
-- ════════════════════════════════════════════════════════════════════════

/-- The server has stored this transfer: the size that was not announced is 0. -/
structure Stores (s : CoSdo) (tr : Transfer) : Prop where
  state : s.state = .downloadSeg
  index : s.index = tr.index
  sub : s.sub = tr.sub
  len : s.len = tr.size.getD 0
  pos : s.pos = tr.bytes.length
  buf : Bytes.Holds s.buf 0 tr.bytes
  toggle : s.toggle = tr.toggle
  lastMs : s.lastMs = tr.lastMs

/-- The server has stored the transfer, if there is one. -/
def Tracks (s : CoSdo) : Option Transfer → Prop
  | some tr => Stores s tr
  | none => s.state ≠ .downloadSeg

theorem Tracks.idle {s : CoSdo} (h : s.state = .idle) : Tracks s none := by
  simp [Tracks, h]

section Segment

variable {s : CoSdo} {tr : Transfer} {q : SdoRequest}

theorem Stores.accepts_iff (h : Stores s tr) (cmd : UInt8) : s.Accepts cmd ↔ tr.Next cmd := by
  rw [CoSdo.Accepts, Transfer.Next, h.toggle, h.pos]
  exact and_iff_right h.state

/-- Seven bytes of data are enough for every segment. -/
theorem Transfer.length_withSegment (tr : Transfer) (hdata : q.data.length = 7) :
    (tr.withSegment q).length = tr.bytes.length + segmentLen q.cmd := by
  have := segmentLen_le q.cmd
  rw [withSegment, List.length_append, List.length_take, hdata, min_eq_left (by omega)]

/-- The buffer with the segment stored holds the bytes accepted so far. -/
theorem Stores.holds_store (h : Stores s tr) :
    Bytes.Holds (Bytes.write s.buf s.pos (q.data.take (segmentLen q.cmd))) 0
    (tr.withSegment q) := by
  rw [Transfer.withSegment, Bytes.holds_append, Nat.zero_add, h.pos]
  exact ⟨h.buf.write_disjoint (.inl (by simp)), Bytes.holds_write _ _ _⟩

theorem Stores.read_store (h : Stores s tr) (hdata : q.data.length = 7) :
    Bytes.read (Bytes.write s.buf s.pos (q.data.take (segmentLen q.cmd))) 0
      (s.pos + segmentLen q.cmd) = tr.withSegment q := by
  rw [h.pos, ← tr.length_withSegment hdata]
  rw [← h.pos]
  exact Bytes.read_eq_of_holds h.holds_store

theorem Stores.store (h : Stores s tr) (hdata : q.data.length = 7) (nowMs : UInt32) :
    Stores (s.store nowMs q.cmd q.data)
      { tr with bytes := tr.withSegment q, toggle := tr.toggle ^^^ 1, lastMs := nowMs } where
  state := h.state
  index := h.index
  sub := h.sub
  len := h.len
  pos := by
    rw [tr.length_withSegment hdata, ← h.pos]
    rfl
  buf := h.holds_store
  toggle := congrArg (· ^^^ 1) h.toggle
  lastMs := rfl

end Segment

/-- A segment moves the server as it moves the transfer. -/
theorem sdoDownloadSegment_tracks {tr : Option Transfer} {q : SdoRequest}
    (h : Tracks w.node.sdo tr) (hdata : q.data.length = 7) :
    Tracks (sdoDownloadSegment A w q.cmd q.data).node.sdo
      (tr.bind (fun tr => tr.afterSegment w.node.nowMs q)) := by
  cases tr with
  | none =>
    obtain ⟨index, sub, code, heq⟩ := sdoDownloadSegment_refused (A := A) (w := w) q.data
      (fun hacc : w.node.sdo.Accepts q.cmd => h hacc.1)
    rw [heq]
    exact Tracks.idle rfl
  | some tr =>
    have hstores : Stores w.node.sdo tr := h
    rw [Option.bind_some, Transfer.afterSegment]
    by_cases hnext : tr.Next q.cmd
    · rw [sdoDownloadSegment_accepted ((hstores.accepts_iff _).mpr hnext)]
      dsimp only
      by_cases hlast : q.cmd &&& 1 = 0
      · rw [if_neg (not_not.mpr hlast), if_pos ⟨hnext, hlast⟩]
        exact hstores.store hdata _
      · have hend : ¬ (tr.Next q.cmd ∧ q.cmd &&& 1 = 0) := fun hc => hlast hc.2
        rw [if_pos hlast, if_neg hend]
        split
        · exact Tracks.idle rfl
        split
        · exact Tracks.idle rfl
        · exact Tracks.idle rfl
    · rw [if_neg (fun hc => hnext hc.1)]
      obtain ⟨index, sub, code, heq⟩ := sdoDownloadSegment_refused (A := A) (w := w) q.data
        (fun hacc : w.node.sdo.Accepts q.cmd => hnext ((hstores.accepts_iff _).mp hacc))
      rw [heq]
      exact Tracks.idle rfl

theorem sdoDownloadInitiate_tracks (q : SdoRequest) :
    Tracks (sdoDownloadInitiate A w q.cmd q.index q.sub (q.data.drop 3)).node.sdo
      (if q.cmd &&& 0x02 ≠ 0 ∨ ∃ size ∈ q.size, coSdoBufSize < size then none
        else some { index := q.index, sub := q.sub, size := q.size, bytes := [], toggle := 0,
                    lastMs := w.node.nowMs }) := by
  have hsize : (if q.cmd &&& 0x01 ≠ 0 then (coGetU32 (q.data.drop 3)).toNat else 0) =
      q.size.getD 0 := by
    rw [SdoRequest.size]
    split <;> rfl
  simp only [sdoDownloadInitiate, hsize]
  split
  · next hexp =>
    have hnone : q.cmd &&& 0x02 ≠ 0 ∨ ∃ size ∈ q.size, coSdoBufSize < size := .inl hexp
    rw [if_pos hnone]
    split
    · exact Tracks.idle rfl
    · exact Tracks.idle rfl
  next hexp =>
  cases hq : q.size with
  | none =>
    rw [if_neg (by simp [coSdoBufSize]), if_neg (by simp [hexp])]
    exact ⟨rfl, rfl, rfl, rfl, rfl, Bytes.holds_nil _ _, rfl, rfl⟩
  | some size =>
    by_cases hbig : coSdoBufSize < size
    · rw [if_pos (by simpa using hbig), if_pos (.inr ⟨size, rfl, hbig⟩)]
      exact Tracks.idle rfl
    · rw [if_neg (by simpa using hbig), if_neg (by simpa [hexp] using hbig)]
      exact ⟨rfl, rfl, rfl, rfl, rfl, Bytes.holds_nil _ _, rfl, rfl⟩

theorem sdoUploadInitiate_state (index : UInt16) (sub : UInt8) :
    (sdoUploadInitiate A w index sub).node.sdo.state ≠ .downloadSeg := by
  have hidle : SdoState.idle ≠ .downloadSeg := by decide
  have hupload : SdoState.uploadSeg ≠ .downloadSeg := by decide
  simp only [sdoUploadInitiate]
  split
  · exact hidle
  split
  · exact hidle
  · exact hupload

theorem sdoUploadSegment_state (cmd : UInt8) :
    (sdoUploadSegment A w cmd).node.sdo.state ≠ .downloadSeg := by
  have hidle : SdoState.idle ≠ .downloadSeg := by decide
  simp only [sdoUploadSegment]
  split
  · exact hidle
  next hstate =>
  split
  · exact hidle
  · simp only [sdoReply_node, CoNode.setSdo, not_not.mp hstate]
    have hboth : ∀ last : Bool, (if last then SdoState.idle else .uploadSeg) ≠ .downloadSeg := by
      decide
    exact hboth _

/-- A request moves the server as it moves the transfer. -/
theorem sdoServe_tracks {tr : Option Transfer} {q : SdoRequest} (h : Tracks w.node.sdo tr)
    (hdata : q.data.length = 7) :
    Tracks (sdoServe A w q).node.sdo (q.transfer w.node.nowMs tr) := by
  rw [sdoServe, SdoRequest.transfer]
  obtain _ | _ | _ | _ | _ | k := q.ccs
  · exact sdoDownloadSegment_tracks h hdata
  · exact sdoDownloadInitiate_tracks q
  · exact sdoUploadInitiate_state _ _
  · exact sdoUploadSegment_state _
  · exact Tracks.idle rfl
  · exact Tracks.idle rfl

/-- The write that a segment causes: the size 0 is not checked. -/
theorem Stores.segmentCall_eq {s : CoSdo} {tr : Transfer} {q : SdoRequest} (h : Stores s tr)
    (hdata : q.data.length = 7) : s.segmentCall q.cmd q.data =
      if tr.Next q.cmd ∧ q.cmd &&& 1 ≠ 0 ∧
        (tr.size.getD 0 = 0 ∨ (tr.withSegment q).length = tr.size.getD 0) then
        [⟨tr.index, tr.sub, tr.withSegment q⟩]
      else [] := by
  have hlen : ¬ (s.len ≠ 0 ∧ s.pos + segmentLen q.cmd ≠ s.len) ↔
      (tr.size.getD 0 = 0 ∨ (tr.withSegment q).length = tr.size.getD 0) := by
    rw [tr.length_withSegment hdata, h.len, h.pos, not_and_or, not_not, not_not]
  rw [CoSdo.segmentCall]
  simp only [h.read_store hdata, h.accepts_iff, h.index, h.sub, hlen]

/-- The writes are those of the protocol, unless some bytes come for a size of 0. -/
theorem Stores.segmentCall_iff {s : CoSdo} {tr : Transfer} {q : SdoRequest} (h : Stores s tr)
    (hdata : q.data.length = 7) : s.segmentCall q.cmd q.data = tr.completed q ↔
      ¬ (tr.size = some 0 ∧ tr.Next q.cmd ∧ q.cmd &&& 1 ≠ 0 ∧ tr.withSegment q ≠ []) := by
  rw [h.segmentCall_eq hdata, Transfer.completed]
  by_cases hend : tr.Next q.cmd ∧ q.cmd &&& 1 ≠ 0
  · obtain ⟨hnext, hlast⟩ := hend
    simp only [hnext, hlast, true_and, ne_eq, not_false_eq_true]
    cases hsize : tr.size with
    | none => simp
    | some size =>
      cases size with
      | zero =>
        by_cases hnil : tr.withSegment q = []
        · simp [hnil]
        · have hlen : 0 ≠ (tr.withSegment q).length :=
            fun h => hnil (List.length_eq_zero_iff.mp h.symm)
          simp [hnil, hlen]
      | succ k =>
        by_cases hlen : (tr.withSegment q).length = k + 1
        · simp [hlen]
        · simp [hlen, Ne.symm hlen]
  · have hcode : ∀ c, ¬ (tr.Next q.cmd ∧ q.cmd &&& 1 ≠ 0 ∧ c) := fun c hc => hend ⟨hc.1, hc.2.1⟩
    rw [if_neg (hcode _), if_neg (hcode _)]
    simp only [true_iff]
    exact fun hc => hend ⟨hc.2.1, hc.2.2.1⟩

theorem calls_iff {s : CoSdo} {tr : Option Transfer} {q : SdoRequest} (h : Tracks s tr)
    (hdata : q.data.length = 7) : q.calls s = q.writes tr ↔
      ¬ (q.ccs = 0 ∧ ∃ x ∈ tr, x.size = some 0 ∧ x.Next q.cmd ∧ q.cmd &&& 1 ≠ 0 ∧
        x.withSegment q ≠ []) := by
  rw [SdoRequest.calls, SdoRequest.writes]
  obtain _ | _ | k := q.ccs
  · cases tr with
    | none =>
      have hnone : s.segmentCall q.cmd q.data = [] := if_neg (fun hc => h hc.1.1)
      simp [hnone]
    | some tr =>
      have hiff := Stores.segmentCall_iff (q := q) h hdata
      simpa using hiff
  · simp [initiateCall]
  · simp

-- ════════════════════════════════════════════════════════════════════════
-- Calls and runs
-- ════════════════════════════════════════════════════════════════════════

theorem coCall_tracks {tr : Option Transfer} (h : Tracks w.node.sdo tr) (c : CoCall σ) :
    Tracks (coCall A w c).node.sdo (transferAfter w.node tr c) := by
  have hspine := coCall_spine A w c
  change Tracks (coCall A w c).node.spine.sdo (transferAfter w.node tr c)
  generalize (coCall A w c).node.spine = s at hspine
  cases hspine with
  | command f t cmd hcmd =>
    have hreq : ¬ (w.node.nmt.Serving ∧ w.node.RequestIn f) := by
      rintro ⟨-, hid, -⟩
      rw [CoNode.command_none (by rw [hid]; exact w.node.sdoRxId_ne.1)] at hcmd
      exact absurd hcmd (by simp)
    simp only [transferAfter, if_neg hreq, hcmd]
    split
    · exact Tracks.idle rfl
    · exact h
  | request f t hnmt hreq =>
    rw [transferAfter, if_pos ⟨hnmt, hreq⟩]
    exact sdoServe_tracks (w := noted w t) h (by simp [CoFrame.request])
  | quiet f t hcmd hreq =>
    simp only [transferAfter, if_neg hreq, hcmd]
    exact h
  | tick t flag =>
    rw [transferAfter]
    cases tr with
    | none =>
      dsimp only
      split
      · exact Tracks.idle rfl
      · exact h
    | some tr =>
      have hstores : Stores w.node.sdo tr := h
      have hout : w.node.sdo.TimedOut t ↔ coSdoTimeoutMs < t - tr.lastMs := by
        rw [CoSdo.TimedOut, hstores.lastMs, hstores.state]
        simp
      by_cases hlate : coSdoTimeoutMs < t - tr.lastMs
      · simp only [hout.mpr hlate, if_true, Option.filter_some, hlate, not_true_eq_false,
          decide_false, Bool.false_eq_true, if_false]
        exact Tracks.idle rfl
      · simp only [mt hout.mp hlate, if_false, Option.filter_some, hlate, not_false_eq_true,
          decide_true, if_true]
        exact h
  | other _ hrx htick =>
    cases c with
    | rx f t => exact absurd rfl (hrx f t)
    | tick t => exact absurd rfl (htick t)
    | emcy | owner | world => exact h

theorem By.noCall {nmt : NmtState} {S : Set Part} {e : Effect} (h : By nmt S e) (hS : .sdo ∉ S) :
    e.act.sdoCall? = none := by
  obtain ⟨-, p, hp, hact⟩ := h
  cases hcase : e.act with
  | write via index sub bytes =>
    cases via with
    | rpdo i => rfl
    | sdo =>
      rw [hcase] at hact
      cases p with
      | sdo => exact absurd hp hS
      | owner | heartbeat | emcy | tpdo | rpdo => simp [Part.allows] at hact
  | send | read | apply | copy => rfl

theorem HeartbeatAct.noCall {id : UInt16} {a : Act} (h : HeartbeatAct id a) :
    a.sdoCall? = none := by
  cases a with
  | write => exact absurd h (by simp [HeartbeatAct])
  | send | read | apply | copy => rfl

/-- Only a request makes the SDO server write. -/
theorem coCall_noCalls {c : CoCall σ}
    (hc : ∀ f t, c = .rx f t → ¬ (w.node.nmt.Serving ∧ w.node.RequestIn f)) :
    Grows (fun e => e.act.sdoCall? = none) w.out (coCall A w c).out := by
  refine (coCall_does c).mono (fun e he => ?_)
  cases he with
  | reply f t hnmt h he => exact absurd ⟨hnmt, h⟩ (hc f t rfl)
  | reset _ _ _ _ he | owner _ he | emcy _ _ _ _ he => exact he.noCall (by simp)
  | sync _ _ _ _ he | pdo _ _ _ he => exact he.noCall (by simp [pdoParts])
  | event _ _ he => exact he.noCall (by simp)
  | beat _ _ he => exact he.noCall
  | timeout => rfl

/-- The writes of a call are those that the request in it makes. -/
theorem coStep_sdoCalls (c : CoCall σ) : sdoCalls (coStep A w c).out =
    match c with
    | .rx f _ => if w.node.nmt.Serving ∧ w.node.RequestIn f then f.request.calls w.node.sdo else []
    | _ => [] := by
  have hnone : (∀ f t, c = .rx f t → ¬ (w.node.nmt.Serving ∧ w.node.RequestIn f)) →
      sdoCalls (coStep A w c).out = [] := fun hc =>
    List.filterMap_eq_nil_iff.mpr (coCall_noCalls (w := { w with out := [] }) hc).forall_mem
  cases c with
  | rx f t =>
    dsimp only
    split
    · next h =>
      have hserve : coStep A w (.rx f t) = sdoServe A (noted { w with out := [] } t) f.request :=
        coCall_request (w := { w with out := [] }) h.1 h.2 t
      by_cases h4 : f.request.ccs = 4
      · rw [hserve, sdoServe_clientAbort h4, SdoRequest.calls, h4]
        rfl
      · obtain ⟨d, hserved⟩ := sdoServe_served (A := A) (w := noted { w with out := [] } t) h4
        obtain ⟨new, ok, hnew, -, hcs⟩ := hserved.out
        rw [hserve, hnew, sdoCalls_append, sdoCalls_append, hcs]
        simp [noted, masterNote, atTime, sdoCalls, Act.sdoCall?]
    · next h =>
      refine hnone ?_
      rintro f' t' heq
      obtain ⟨rfl, -⟩ := CoCall.rx.inj heq
      exact h
  | tick | emcy | owner | world => exact hnone (by simp)

/-- A run of the node beside the transfer that the protocol has. -/
def trackStep (A : App σ) (s : World σ × Option Transfer) (c : CoCall σ) :
    World σ × Option Transfer :=
  (coStep A s.1 c, transferAfter s.1.node s.2 c)

/-- **SDO downloads**: along every run every call makes exactly the writes that the download
    protocol completes there, if and only if no download that announced the size 0 is ended
    with some bytes. -/
theorem downloads_written_iff (A : App σ) (cfg : CoConfig) (nowMs : UInt32) (app : σ)
    (calls : List (CoCall σ)) :
    Machine.Guarded (trackStep A)
        (fun s c => sdoCalls (coStep A s.1 c).out = writesOf s.1.node s.2 c)
        (coInit A cfg nowMs app, none) calls ↔
      Machine.Guarded (trackStep A) (fun s c => ¬ ZeroSizeEnd s.1.node s.2 c)
        (coInit A cfg nowMs app, none) calls := by
  refine Machine.Guarded.congr _ (P := fun s => Tracks s.1.node.sdo s.2) ?_ ?_ ?_ calls
  · exact fun s c h => coCall_tracks (w := { s.1 with out := [] }) h c
  · rintro ⟨w, tr⟩ c h
    rw [coStep_sdoCalls]
    cases c with
    | rx f t =>
      simp only [writesOf, ZeroSizeEnd]
      by_cases hreq : w.node.nmt.Serving ∧ w.node.RequestIn f
      · rw [if_pos hreq, if_pos hreq, calls_iff h (by simp [CoFrame.request])]
        simp [hreq.1, hreq.2]
      · rw [if_neg hreq, if_neg hreq]
        simp only [true_iff]
        exact fun hz => hreq ⟨hz.1, hz.2.1⟩
    | tick | emcy | owner | world => simp [writesOf, ZeroSizeEnd]
  · obtain ⟨c, -, hspine⟩ := @coInit_spine _ A cfg nowMs app
    change (coInit A cfg nowMs app).node.spine.sdo.state ≠ .downloadSeg
    rw [hspine]
    exact (by decide : SdoState.idle ≠ .downloadSeg)

/-- A frame to the SDO server of node 5. -/
def requestFrame (data : Vector UInt8 8) : CoFrame := { id := 0x605, dlc := 8, rtr := false, data }

/-- A download to 0x2000 that announces no bytes and ends with one byte is written. -/
theorem downloads_written_zero_size :
    ¬ Machine.Guarded (trackStep (tableApp fourByteObject))
      (fun s c => sdoCalls (coStep (tableApp fourByteObject) s.1 c).out = writesOf s.1.node s.2 c)
      (coInit (tableApp fourByteObject) exampleConfig 0 (), none)
      [.rx (requestFrame #v[0x21, 0x00, 0x20, 0, 0, 0, 0, 0]) 1,
        .rx (requestFrame #v[0x0D, 7, 0, 0, 0, 0, 0, 0]) 2] := by
  decide

end Fountainer.Canopen
