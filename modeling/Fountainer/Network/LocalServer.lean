import Fountainer.Lib.Runs
import Fountainer.Lib.SlotPool
import Mathlib.Tactic.Abel

/-!
# Local server

`local_server.c` and `local_buffer_pool.c`: the handlers of the httpd task and the worker share the
session table, the slot semaphore, the queue of descriptors and the pool of frames. A section under
a lock, an operation on the queue or a semaphore is one step, and so are the stale check of a
descriptor and its processing; the steps of the two tasks interleave freely.

Connections and acquisitions are numbered in the order in which they come. The code keeps only the
low 32 bits of the number of a connection, as its `connection_id`.
-/

namespace Fountainer.Network

open Multiset SlotPool

def LOCAL_RX_QUEUE_DEPTH : ℕ := 8

def LOCAL_FRAME_POOL_COUNT : ℕ := 4

/-- `local_session_state_t`. -/
inductive LocalSessionState where
  | free
  | connected
  | running
  | closing
  deriving DecidableEq, Repr

/-- A slot of `s_astSessions`. `protocol` tells for which connection `local_protocol_on_open` has
    initialised the protocol block, none once it is wiped. -/
structure LocalSession where
  active : Bool
  connectionId : UInt32
  state : LocalSessionState
  protocol : Option ℕ
  number : ℕ
  deriving DecidableEq, Repr

/-- A frame of the pool with the number of its acquisition. -/
abbrev LocalFrame : Type := Fin LOCAL_FRAME_POOL_COUNT × ℕ

/-- `desc_kind_t`, with the frame that only the second kind has. -/
inductive DescKind where
  | descOpen
  | descFrame (frame : LocalFrame)
  | descClose
  deriving DecidableEq, Repr

/-- `local_desc_t`, with the number of the connection whose socket it comes from. -/
structure LocalDesc (N : ℕ) where
  kind : DescKind
  slot : Fin N
  connId : UInt32
  number : ℕ
  deriving DecidableEq, Repr

/-- Where a call of `session_cleanup` is that has found its session active: before the wipe, before
    the section on the table, before the give of the token. -/
inductive Cleanup (N : ℕ) where
  | wipe (i : Fin N) (n : ℕ)
  | free (i : Fin N) (n : ℕ)
  | give
  deriving DecidableEq, Repr

/-- Where the httpd task is in `ws_handler` and `on_sess_free`. -/
inductive HttpdPc (N : ℕ) where
  | idle
  | handshake
  | opening (i : Fin N) (n : ℕ)
  | receiving (i : Fin N) (n : ℕ) (frame : LocalFrame)
  | dropping (frame : LocalFrame)
  | closing (i : Fin N) (n : ℕ)
  | cleaning (c : Cleanup N)
  deriving DecidableEq, Repr

/-- Where `worker_task` is. -/
inductive WorkerPc (N : ℕ) where
  | idle
  | got (d : LocalDesc N) (stale : Bool)
  | releasing (frame : LocalFrame)
  | cleaning (c : Cleanup N)
  deriving DecidableEq, Repr

/-- The local server with `N` as `LOCAL_SERVER_MAX_CLIENTS`. `sockets` has the slot that `sess_ctx`
    names for each open socket and the number of its connection; the last four count and record. -/
structure LocalServer (N : ℕ) where
  slots : ℕ
  sessions : Fin N → LocalSession
  rxq : List (LocalDesc N)
  used : Fin LOCAL_FRAME_POOL_COUNT → Bool
  connCtr : UInt32
  sockets : List (Fin N × ℕ)
  httpd : HttpdPc N
  worker : WorkerPc N
  accepted : ℕ
  cleaned : List ℕ
  acquired : ℕ
  released : List ℕ

variable {N : ℕ}

/-- The server after `local_server_init`. -/
def localServerInit (N : ℕ) : LocalServer N where
  slots := N
  sessions := fun _ => ⟨false, 0, .free, none, 0⟩
  rxq := []
  used := fun _ => false
  connCtr := 0
  sockets := []
  httpd := .idle
  worker := .idle
  accepted := 0
  cleaned := []
  acquired := 0
  released := []

def localBufferAcquire (s : LocalServer N) : Option (LocalFrame × LocalServer N) :=
  match (List.finRange LOCAL_FRAME_POOL_COUNT).find? fun b => !s.used b with
  | none => none
  | some b =>
    some ((b, s.acquired),
      { s with used := Function.update s.used b true, acquired := s.acquired + 1 })

def localBufferRelease (s : LocalServer N) (frame : LocalFrame) : LocalServer N :=
  { s with used := Function.update s.used frame.1 false, released := s.released ++ [frame.2] }

/-- `xQueueSend` of `desc_enqueue`, which never blocks. -/
def descEnqueue (s : LocalServer N) (d : LocalDesc N) : Bool × LocalServer N :=
  if s.rxq.length < LOCAL_RX_QUEUE_DEPTH then (true, { s with rxq := s.rxq ++ [d] })
  else (false, s)

/-- The check that `session_cleanup` begins with. -/
def sessionCleanup (s : LocalServer N) (i : Fin N) (n : ℕ) : Option (Cleanup N) :=
  if (s.sessions i).active then some (.wipe i n) else none

/-- The next section of `session_cleanup`. -/
def sessionCleanupStep (s : LocalServer N) : Cleanup N → Option (Cleanup N) × LocalServer N
  | .wipe i n =>
    (some (.free i n),
      { s with sessions := Function.update s.sessions i { s.sessions i with protocol := none } })
  | .free i n =>
    (some .give,
      { s with
        sessions :=
          Function.update s.sessions i { s.sessions i with active := false, state := .free }
        cleaned := s.cleaned ++ [n] })
  | .give => (none, { s with slots := s.slots + 1 })

/-- The handshake takes a token, or the connection is rejected. -/
def wsHandshake (s : LocalServer N) : LocalServer N :=
  if s.slots = 0 then s else { s with slots := s.slots - 1, httpd := .handshake }

/-- The first slot of the table that is not active. -/
def freeSlot (s : LocalServer N) : Option (Fin N) :=
  (List.finRange N).find? fun i => !(s.sessions i).active

/-- The section of the handshake on the table: the first free slot, or the token goes back. -/
def wsClaim (s : LocalServer N) : LocalServer N :=
  match freeSlot s with
  | none => { s with httpd := .cleaning .give }
  | some i =>
    { s with
      sessions := Function.update s.sessions i
        { s.sessions i with
          active := true
          connectionId := s.connCtr + 1
          state := .connected
          number := s.accepted }
      connCtr := s.connCtr + 1
      accepted := s.accepted + 1
      sockets := s.sockets ++ [(i, s.accepted)]
      httpd := .opening i s.accepted }

/-- A frame on the `k`-th socket. It is `dropped` when the header does not come, and when the size,
    the type or the rate limit says so; otherwise it needs a frame of the pool. -/
def wsFrame (s : LocalServer N) (k : ℕ) (dropped : Bool) : LocalServer N :=
  match s.sockets[k]? with
  | none => s
  | some (i, n) =>
    if (s.sessions i).active = false ∨ (s.sessions i).state = .closing then s
    else if dropped then s
    else match localBufferAcquire s with
      | none => s
      | some (frame, s) => { s with httpd := .receiving i n frame }

/-- `on_sess_free` at the end of the `k`-th socket. -/
def onSessFree (s : LocalServer N) (k : ℕ) : LocalServer N :=
  match s.sockets[k]? with
  | none => s
  | some (i, n) =>
    if (s.sessions i).active then
      { s with
        sockets := s.sockets.eraseIdx k
        sessions := Function.update s.sessions i { s.sessions i with state := .closing }
        httpd := .closing i n }
    else { s with sockets := s.sockets.eraseIdx k }

/-- The next section of the handler that the httpd task is in; `received` is the outcome of
    `httpd_ws_recv_frame`. -/
def httpdStep (s : LocalServer N) (received : Bool) : LocalServer N :=
  match s.httpd with
  | .idle => s
  | .handshake => wsClaim s
  | .opening i n =>
    { (descEnqueue s ⟨.descOpen, i, (s.sessions i).connectionId, n⟩).2 with httpd := .idle }
  | .receiving i n frame =>
    if received then
      let r := descEnqueue s ⟨.descFrame frame, i, (s.sessions i).connectionId, n⟩
      { r.2 with httpd := if r.1 then .idle else .dropping frame }
    else { s with httpd := .dropping frame }
  | .dropping frame => { localBufferRelease s frame with httpd := .idle }
  | .closing i n =>
    let r := descEnqueue s ⟨.descClose, i, (s.sessions i).connectionId, n⟩
    { r.2 with httpd := if r.1 then .idle else (sessionCleanup s i n).elim .idle .cleaning }
  | .cleaning c =>
    let r := sessionCleanupStep s c
    { r.2 with httpd := r.1.elim .idle .cleaning }

/-- `bStale`. -/
def isStale (s : LocalServer N) (d : LocalDesc N) : Bool :=
  !(s.sessions d.slot).active || (s.sessions d.slot).connectionId != d.connId

/-- `local_protocol_on_open`. -/
def localProtocolOnOpen (s : LocalServer N) (d : LocalDesc N) : LocalServer N :=
  { s with
    sessions := Function.update s.sessions d.slot
      { s.sessions d.slot with protocol := some d.number } }

/-- `local_protocol_on_frame`; `running` is `fp_session_running` after the message. -/
def localProtocolOnFrame (s : LocalServer N) (i : Fin N) (running : Bool) : LocalServer N :=
  if running ∧ (s.sessions i).state = .connected then
    { s with sessions := Function.update s.sessions i { s.sessions i with state := .running } }
  else s

/-- The next section of `worker_task`. -/
def workerStep (s : LocalServer N) (running : Bool) : LocalServer N :=
  match s.worker with
  | .idle =>
    match s.rxq with
    | [] => s
    | d :: ds => { s with rxq := ds, worker := .got d (isStale s d) }
  | .got ⟨.descOpen, i, c, n⟩ stale =>
    { (if stale then s else localProtocolOnOpen s ⟨.descOpen, i, c, n⟩) with worker := .idle }
  | .got ⟨.descFrame frame, i, _, _⟩ stale =>
    { (if stale = false ∧ (s.sessions i).state ≠ .closing then localProtocolOnFrame s i running
        else s) with worker := .releasing frame }
  | .got ⟨.descClose, i, _, n⟩ stale =>
    { s with worker := if stale then .idle else (sessionCleanup s i n).elim .idle .cleaning }
  | .releasing frame => { localBufferRelease s frame with worker := .idle }
  | .cleaning c =>
    let r := sessionCleanupStep s c
    { r.2 with worker := r.1.elim .idle .cleaning }

/-- A step of the server: the httpd task calls a handler, it goes on in one, or the worker goes on.
    A handler is called only when none is in progress. -/
inductive LocalOp where
  | handshake
  | frame (k : ℕ) (dropped : Bool)
  | close (k : ℕ)
  | httpd (received : Bool)
  | worker (running : Bool)
  deriving DecidableEq, Repr

def localStep (s : LocalServer N) : LocalOp → LocalServer N
  | .handshake => if s.httpd = .idle then wsHandshake s else s
  | .frame k dropped => if s.httpd = .idle then wsFrame s k dropped else s
  | .close k => if s.httpd = .idle then onSessFree s k else s
  | .httpd received => httpdStep s received
  | .worker running => workerStep s running

def localRun (N : ℕ) (ops : List LocalOp) : LocalServer N :=
  Machine.run localStep (localServerInit N) ops

/-! ### What each party holds -/

def Cleanup.owners : Cleanup N → Multiset (Fin N × ℕ)
  | .wipe i n | .free i n => {(i, n)}
  | .give => 0

def Cleanup.tokens : Cleanup N → ℕ
  | .wipe _ _ | .free _ _ => 0
  | .give => 1

/-- The session that a handler or a descriptor has to clean up. -/
def HttpdPc.owners : HttpdPc N → Multiset (Fin N × ℕ)
  | .closing i n => {(i, n)}
  | .cleaning c => c.owners
  | _ => 0

def HttpdPc.tokens : HttpdPc N → ℕ
  | .handshake => 1
  | .cleaning c => c.tokens
  | _ => 0

def HttpdPc.held : HttpdPc N → Multiset LocalFrame
  | .receiving _ _ frame | .dropping frame => {frame}
  | _ => 0

def LocalDesc.owners (d : LocalDesc N) : Multiset (Fin N × ℕ) :=
  if d.kind = .descClose then {(d.slot, d.number)} else 0

def LocalDesc.held (d : LocalDesc N) : Multiset LocalFrame :=
  match d.kind with
  | .descFrame frame => {frame}
  | _ => 0

def WorkerPc.owners : WorkerPc N → Multiset (Fin N × ℕ)
  | .got d _ => d.owners
  | .cleaning c => c.owners
  | _ => 0

def WorkerPc.tokens : WorkerPc N → ℕ
  | .cleaning c => c.tokens
  | _ => 0

def WorkerPc.held : WorkerPc N → Multiset LocalFrame
  | .got d _ => d.held
  | .releasing frame => {frame}
  | _ => 0

/-- The sessions that are open or on the way to their cleanup. -/
def LocalServer.owners (s : LocalServer N) : Multiset (Fin N × ℕ) :=
  s.sockets + s.httpd.owners + (s.rxq.map LocalDesc.owners).sum + s.worker.owners

/-- The frames that a handler, the queue or the worker has. -/
def LocalServer.held (s : LocalServer N) : Multiset LocalFrame :=
  s.httpd.held + (s.rxq.map LocalDesc.held).sum + s.worker.held

/-- The tokens that a handshake or a cleanup in progress has. -/
def LocalServer.tokens (s : LocalServer N) : ℕ := s.httpd.tokens + s.worker.tokens

def LocalServer.activeCount (s : LocalServer N) : ℕ :=
  (Finset.univ.filter fun i => (s.sessions i).active = true).card

/-- Tokens, sessions and frames are conserved: the tokens add up, no connection is cleaned up
    twice, each acquisition of a frame is either still held, once, or has been released once, and
    the frames in use are the frames held. -/
structure LocalServer.Conserved (s : LocalServer N) : Prop where
  tokens : s.slots + s.activeCount + s.tokens = N
  cleaned : s.cleaned.Nodup
  frames : (s.released : Multiset ℕ) + s.held.map Prod.snd = Multiset.range s.acquired
  pool : ∀ b, s.used b = true ↔ b ∈ s.held.map Prod.fst

/-- The invariant: both tables are pools of slots, a queued close bears the id of its session, and
    the worker has found no close stale. -/
structure LocalServer.Inv (s : LocalServer N) : Prop where
  sessions : Holds (fun i => (s.sessions i).active) s.owners s.accepted s.cleaned
  frames : Holds s.used s.held s.acquired s.released
  tokens : s.slots + s.owners.card + s.tokens = N
  closes : ∀ d ∈ s.rxq, d.kind = .descClose → d.connId = (s.sessions d.slot).connectionId
  fresh : ∀ d stale, s.worker = .got d stale → d.kind = .descClose → stale = false

theorem LocalServer.Inv.conserved {s : LocalServer N} (h : s.Inv) : s.Conserved :=
  ⟨by rw [LocalServer.activeCount, h.sessions.card_used]; exact h.tokens,
    h.sessions.returned_nodup, h.frames.balance, h.frames.used_iff⟩

theorem localServerInit_inv : (localServerInit N).Inv :=
  ⟨Holds.empty, Holds.empty, rfl, fun d hd => (by cases hd), fun d b hd => (by cases hd)⟩

variable {s : LocalServer N}

theorem LocalServer.Inv.wsHandshake (h : s.Inv) (hpc : s.httpd = .idle) :
    (wsHandshake s).Inv := by
  unfold Network.wsHandshake
  split
  · exact h
  · refine ⟨?_, ?_, ?_, h.closes, h.fresh⟩
    · simpa [LocalServer.owners, hpc, HttpdPc.owners] using h.sessions
    · simpa [LocalServer.held, hpc, HttpdPc.held] using h.frames
    · have := h.tokens
      simp only [LocalServer.owners, LocalServer.tokens, hpc, HttpdPc.owners, HttpdPc.tokens]
        at this ⊢
      omega

theorem active_update (f : Fin N → LocalSession) (i : Fin N) (x : LocalSession) :
    (fun j => (Function.update f i x j).active) =
      Function.update (fun j => (f j).active) i x.active :=
  funext fun j => Function.apply_update (fun _ => LocalSession.active) f i x j

/-- An update of one session that keeps a field keeps it in the whole table. -/
theorem field_update {α : Type} (g : LocalSession → α) (f : Fin N → LocalSession) {i : Fin N}
    {x : LocalSession} (hx : g x = g (f i)) (j : Fin N) :
    g (Function.update f i x j) = g (f j) := by
  by_cases hj : j = i
  · subst hj
    rw [Function.update_self, hx]
  · rw [Function.update_of_ne hj]

/-- The session of a queued close is still to be cleaned up. -/
theorem LocalServer.close_mem_owners {d : LocalDesc N} (hd : d ∈ s.rxq)
    (hk : d.kind = .descClose) : (d.slot, d.number) ∈ s.owners := by
  obtain ⟨as, bs, he⟩ := List.append_of_mem hd
  simp [LocalServer.owners, he, LocalDesc.owners, hk]

theorem freeSlot_inactive {i : Fin N} (h : freeSlot s = some i) :
    (s.sessions i).active = false := by
  simpa using List.find?_some h

theorem LocalServer.Inv.wsClaim (h : s.Inv) (hpc : s.httpd = .handshake) : (wsClaim s).Inv := by
  have ht := h.tokens
  unfold Network.wsClaim
  split
  · refine ⟨?_, ?_, ?_, h.closes, h.fresh⟩
    · simpa [LocalServer.owners, hpc, HttpdPc.owners, Cleanup.owners] using h.sessions
    · simpa [LocalServer.held, hpc, HttpdPc.held] using h.frames
    · simpa [LocalServer.owners, LocalServer.tokens, hpc, HttpdPc.owners, HttpdPc.tokens,
        Cleanup.owners, Cleanup.tokens] using ht
  · rename_i i hi
    have hi := freeSlot_inactive hi
    have hw := h.sessions.take hi
    refine ⟨?_, ?_, ?_, fun d hd hk => ?_, h.fresh⟩
    · rw [active_update]
      convert hw using 1
      simp only [LocalServer.owners, hpc, HttpdPc.owners, ← Multiset.coe_add,
        Multiset.coe_singleton, ← Multiset.singleton_add]
      abel
    · simpa [LocalServer.held, hpc, HttpdPc.held] using h.frames
    · simp only [LocalServer.owners, LocalServer.tokens, hpc, HttpdPc.owners, HttpdPc.tokens,
        ← Multiset.coe_add, Multiset.card_add, Multiset.coe_card, List.length_singleton] at ht ⊢
      omega
    · -- the session of a queued close is active, so it is not the slot that is claimed
      have hne : d.slot ≠ i := by
        rintro rfl
        have := h.sessions.used_of_mem (LocalServer.close_mem_owners hd hk)
        simp [hi] at this
      simpa only [Function.update_of_ne hne] using h.closes d hd hk

theorem LocalServer.Inv.wsFrame (h : s.Inv) (hpc : s.httpd = .idle) (k : ℕ) (dropped : Bool) :
    (wsFrame s k dropped).Inv := by
  unfold Network.wsFrame
  split
  · exact h
  rename_i i n hk
  split_ifs
  · exact h
  · exact h
  split
  · exact h
  rename_i frame s' ha
  unfold localBufferAcquire at ha
  split at ha
  · cases ha
  rename_i b hb
  obtain ⟨rfl, rfl⟩ := Prod.mk.inj (Option.some.inj ha)
  have hb : s.used b = false := by simpa using List.find?_some hb
  refine ⟨?_, ?_, ?_, h.closes, h.fresh⟩
  · simpa [LocalServer.owners, hpc, HttpdPc.owners] using h.sessions
  · simpa [LocalServer.held, hpc, HttpdPc.held] using h.frames.take hb
  · simpa [LocalServer.owners, LocalServer.tokens, hpc, HttpdPc.owners, HttpdPc.tokens]
      using h.tokens


theorem LocalServer.sockets_eraseIdx {k : ℕ} {o : Fin N × ℕ} (hk : s.sockets[k]? = some o) :
    (s.sockets : Multiset (Fin N × ℕ)) = (s.sockets.eraseIdx k : Multiset _) + {o} := by
  obtain ⟨hlt, hget⟩ := List.getElem?_eq_some_iff.1 hk
  rw [add_comm, Multiset.singleton_add, Multiset.cons_coe, Multiset.coe_eq_coe, ← hget]
  exact (List.getElem_cons_eraseIdx_perm hlt).symm

theorem LocalServer.Inv.onSessFree (h : s.Inv) (hpc : s.httpd = .idle) (k : ℕ) :
    (onSessFree s k).Inv := by
  unfold Network.onSessFree
  split
  · exact h
  rename_i i n hk
  have hsock := LocalServer.sockets_eraseIdx hk
  have hmem : (i, n) ∈ s.owners := by simp [LocalServer.owners, hsock]
  have hact : (s.sessions i).active = true := h.sessions.used_of_mem hmem
  rw [if_pos hact]
  refine ⟨?_, ?_, ?_, fun d hd hk => ?_, h.fresh⟩
  · simp only [field_update LocalSession.active]
    simpa [LocalServer.owners, hpc, HttpdPc.owners, hsock] using h.sessions
  · simpa [LocalServer.held, hpc, HttpdPc.held] using h.frames
  · have ht := h.tokens
    simpa [LocalServer.owners, LocalServer.tokens, hpc, HttpdPc.owners, HttpdPc.tokens, hsock]
      using ht
  · simpa only [field_update LocalSession.connectionId] using h.closes d hd hk

/-- A queued close finds its session active under its own id. -/
theorem LocalServer.Inv.close_fresh (h : s.Inv) {d : LocalDesc N} (hd : d ∈ s.rxq)
    (hk : d.kind = .descClose) : isStale s d = false := by
  have hact := h.sessions.used_of_mem (LocalServer.close_mem_owners hd hk)
  rw [isStale, h.closes d hd hk]
  simp [hact]

/-! A section of `session_cleanup`, with `O` as what all others have to clean up. -/

theorem sessionCleanupStep_sessions (c : Cleanup N) {O : Multiset (Fin N × ℕ)}
    (h : Holds (fun i => (s.sessions i).active) (c.owners + O) s.accepted s.cleaned) :
    Holds (fun i => ((sessionCleanupStep s c).2.sessions i).active)
      ((sessionCleanupStep s c).1.elim 0 Cleanup.owners + O) (sessionCleanupStep s c).2.accepted
      (sessionCleanupStep s c).2.cleaned := by
  cases c with
  | wipe i n =>
    simpa [sessionCleanupStep, field_update LocalSession.active, Cleanup.owners] using h
  | free i n =>
    simp only [sessionCleanupStep, active_update]
    simpa [Cleanup.owners] using Holds.give (n := n) (by simpa [Cleanup.owners] using h)
  | give => simpa [sessionCleanupStep, Cleanup.owners] using h

theorem sessionCleanupStep_tokens (c : Cleanup N) :
    (sessionCleanupStep s c).2.slots + ((sessionCleanupStep s c).1.elim 0 Cleanup.owners).card +
      (sessionCleanupStep s c).1.elim 0 Cleanup.tokens = s.slots + c.owners.card + c.tokens := by
  cases c <;> simp [sessionCleanupStep, Cleanup.owners, Cleanup.tokens]

theorem sessionCleanupStep_frame (c : Cleanup N) :
    (sessionCleanupStep s c).2.rxq = s.rxq ∧ (sessionCleanupStep s c).2.used = s.used ∧
      (sessionCleanupStep s c).2.sockets = s.sockets ∧
      (sessionCleanupStep s c).2.httpd = s.httpd ∧ (sessionCleanupStep s c).2.worker = s.worker ∧
      (sessionCleanupStep s c).2.acquired = s.acquired ∧
      (sessionCleanupStep s c).2.released = s.released ∧
      ∀ i, ((sessionCleanupStep s c).2.sessions i).connectionId = (s.sessions i).connectionId := by
  cases c with
  | wipe i n =>
    exact ⟨rfl, rfl, rfl, rfl, rfl, rfl, rfl, field_update LocalSession.connectionId _ rfl⟩
  | free i n =>
    exact ⟨rfl, rfl, rfl, rfl, rfl, rfl, rfl, field_update LocalSession.connectionId _ rfl⟩
  | give => exact ⟨rfl, rfl, rfl, rfl, rfl, rfl, rfl, fun _ => rfl⟩

@[simp] theorem HttpdPc.owners_elim (c : Option (Cleanup N)) :
    (c.elim HttpdPc.idle HttpdPc.cleaning).owners = c.elim 0 Cleanup.owners := by
  cases c <;> rfl

@[simp] theorem HttpdPc.tokens_elim (c : Option (Cleanup N)) :
    (c.elim HttpdPc.idle HttpdPc.cleaning).tokens = c.elim 0 Cleanup.tokens := by
  cases c <;> rfl

@[simp] theorem HttpdPc.held_elim (c : Option (Cleanup N)) :
    (c.elim HttpdPc.idle HttpdPc.cleaning).held = 0 := by
  cases c <;> rfl

@[simp] theorem WorkerPc.owners_elim (c : Option (Cleanup N)) :
    (c.elim WorkerPc.idle WorkerPc.cleaning).owners = c.elim 0 Cleanup.owners := by
  cases c <;> rfl

@[simp] theorem WorkerPc.tokens_elim (c : Option (Cleanup N)) :
    (c.elim WorkerPc.idle WorkerPc.cleaning).tokens = c.elim 0 Cleanup.tokens := by
  cases c <;> rfl

@[simp] theorem WorkerPc.held_elim (c : Option (Cleanup N)) :
    (c.elim WorkerPc.idle WorkerPc.cleaning).held = 0 := by
  cases c <;> rfl

theorem LocalServer.Inv.httpdCleanup (h : s.Inv) {c : Cleanup N} (hpc : s.httpd = .cleaning c)
    (received : Bool) : (httpdStep s received).Inv := by
  simp only [httpdStep, hpc]
  obtain ⟨hq, hu, hso, -, hw, ha, hr, hid⟩ := sessionCleanupStep_frame (s := s) c
  have hs := h.sessions
  have ht := h.tokens
  have hf := h.frames
  simp only [LocalServer.owners, LocalServer.tokens, LocalServer.held, hpc, HttpdPc.owners,
    HttpdPc.tokens, HttpdPc.held] at hs ht hf
  refine ⟨?_, ?_, ?_, ?_, ?_⟩
  · rw [add_comm _ c.owners, add_assoc, add_assoc] at hs
    have := sessionCleanupStep_sessions c hs
    convert this using 1
    simp only [LocalServer.owners, hq, hso, hw, HttpdPc.owners_elim]
    abel
  · simpa [LocalServer.held, hq, hu, hw, ha, hr] using hf
  · have := sessionCleanupStep_tokens (s := s) c
    simp only [LocalServer.owners, LocalServer.tokens, hq, hso, hw, HttpdPc.owners_elim,
      HttpdPc.tokens_elim, Multiset.card_add] at ht ⊢
    omega
  · simpa only [hq, hid] using h.closes
  · simpa only [hw] using h.fresh

/-- The httpd task may go on where it has the same in hand. -/
theorem LocalServer.Inv.goto (h : s.Inv) {pc : HttpdPc N} (ho : pc.owners = s.httpd.owners)
    (ht : pc.tokens = s.httpd.tokens) (hh : pc.held = s.httpd.held) :
    LocalServer.Inv { s with httpd := pc } := by
  refine ⟨?_, ?_, ?_, h.closes, h.fresh⟩
  · simpa only [LocalServer.owners, ho] using h.sessions
  · simpa only [LocalServer.held, hh] using h.frames
  · simpa only [LocalServer.owners, LocalServer.tokens, ho, ht] using h.tokens

/-- A descriptor that is queued takes over what the httpd task has in hand. -/
theorem LocalServer.Inv.enqueued (h : s.Inv) {d : LocalDesc N} (ho : d.owners = s.httpd.owners)
    (ht : s.httpd.tokens = 0) (hh : d.held = s.httpd.held)
    (hid : d.connId = (s.sessions d.slot).connectionId) :
    LocalServer.Inv { s with rxq := s.rxq ++ [d], httpd := .idle } := by
  have hs := h.sessions
  have hf := h.frames
  have htok := h.tokens
  simp only [LocalServer.owners, LocalServer.tokens, LocalServer.held, ← ho, ht, ← hh] at hs hf htok
  have hadd : ∀ (A B C : Multiset (Fin N × ℕ)), A + (B + C) = A + C + B := fun A B C => by abel
  have hadd' : ∀ (B C : Multiset LocalFrame), B + C = C + B := fun B C => add_comm B C
  refine ⟨?_, ?_, ?_, fun e he hk => ?_, h.fresh⟩
  · simpa [LocalServer.owners, HttpdPc.owners, hadd] using hs
  · simpa [LocalServer.held, HttpdPc.held, hadd' _ d.held] using hf
  · simpa [LocalServer.owners, LocalServer.tokens, HttpdPc.owners, HttpdPc.tokens, hadd] using htok
  · rcases List.mem_append.1 he with he | he
    · exact h.closes e he hk
    · rw [List.mem_singleton.1 he, hid]

theorem LocalServer.Inv.httpd (h : s.Inv) (received : Bool) : (httpdStep s received).Inv := by
  cases hpc : s.httpd with
  | idle => simpa only [httpdStep, hpc] using h
  | handshake => simpa only [httpdStep, hpc] using h.wsClaim hpc
  | cleaning c => exact h.httpdCleanup hpc received
  | opening i n =>
    by_cases hl : s.rxq.length < LOCAL_RX_QUEUE_DEPTH
    · simp only [httpdStep, hpc, descEnqueue, if_pos hl]
      exact h.enqueued (by rw [hpc]; rfl) (by rw [hpc]; rfl) (by rw [hpc]; rfl) rfl
    · simp only [httpdStep, hpc, descEnqueue, if_neg hl]
      exact h.goto (by rw [hpc]; rfl) (by rw [hpc]; rfl) (by rw [hpc]; rfl)
  | receiving i n frame =>
    have hdrop : LocalServer.Inv { s with httpd := .dropping frame } :=
      h.goto (by rw [hpc]; rfl) (by rw [hpc]; rfl) (by rw [hpc]; rfl)
    cases received with
    | false => simpa [httpdStep, hpc] using hdrop
    | true =>
      by_cases hl : s.rxq.length < LOCAL_RX_QUEUE_DEPTH
      · simp only [httpdStep, hpc, descEnqueue, if_pos hl, if_true]
        exact h.enqueued (by rw [hpc]; rfl) (by rw [hpc]; rfl) (by rw [hpc]; rfl) rfl
      · simpa [httpdStep, hpc, descEnqueue, hl] using hdrop
  | dropping frame =>
    have hf := h.frames
    simp only [LocalServer.held, hpc, HttpdPc.held, Multiset.singleton_add,
      Multiset.cons_add] at hf
    simp only [httpdStep, hpc, localBufferRelease]
    refine ⟨?_, ?_, ?_, h.closes, h.fresh⟩
    · simpa [LocalServer.owners, hpc, HttpdPc.owners] using h.sessions
    · simpa [LocalServer.held, HttpdPc.held] using hf.give
    · simpa [LocalServer.owners, LocalServer.tokens, hpc, HttpdPc.owners, HttpdPc.tokens]
        using h.tokens
  | closing i n =>
    have hmem : (i, n) ∈ s.owners := by simp [LocalServer.owners, hpc, HttpdPc.owners]
    have hact : (s.sessions i).active = true := h.sessions.used_of_mem hmem
    by_cases hl : s.rxq.length < LOCAL_RX_QUEUE_DEPTH
    · simp only [httpdStep, hpc, descEnqueue, if_pos hl, if_true]
      exact h.enqueued (by rw [hpc]; rfl) (by rw [hpc]; rfl) (by rw [hpc]; rfl) rfl
    · simp only [httpdStep, hpc, descEnqueue, if_neg hl, sessionCleanup, if_pos hact]
      exact h.goto (by rw [hpc]; rfl) (by rw [hpc]; rfl) (by rw [hpc]; rfl)

theorem LocalServer.Inv.dequeued (h : s.Inv) {d : LocalDesc N} {ds : List (LocalDesc N)}
    (hpc : s.worker = .idle) (hq : s.rxq = d :: ds) :
    LocalServer.Inv { s with rxq := ds, worker := .got d (isStale s d) } := by
  have hadd : ∀ (A B C : Multiset (Fin N × ℕ)), A + (B + C) = A + C + B := fun A B C => by abel
  have hadd' : ∀ (A B C : Multiset LocalFrame), A + (B + C) = A + C + B := fun A B C => by abel
  refine ⟨?_, ?_, ?_, fun e he hk => h.closes e ?_ hk, fun e stale he hk => ?_⟩
  · simpa [LocalServer.owners, hpc, hq, WorkerPc.owners, hadd] using h.sessions
  · simpa [LocalServer.held, hpc, hq, WorkerPc.held, hadd'] using h.frames
  · simpa [LocalServer.owners, LocalServer.tokens, hpc, hq, WorkerPc.owners, WorkerPc.tokens, hadd]
      using h.tokens
  · rw [hq]
    exact List.mem_cons_of_mem _ he
  · obtain ⟨rfl, rfl⟩ := WorkerPc.got.inj he
    exact h.close_fresh (hq ▸ List.mem_cons_self) hk

theorem LocalServer.Inv.workerCleanup (h : s.Inv) {c : Cleanup N} (hpc : s.worker = .cleaning c)
    (running : Bool) : (workerStep s running).Inv := by
  simp only [workerStep, hpc]
  obtain ⟨hq, hu, hso, hw, -, ha, hr, hid⟩ := sessionCleanupStep_frame (s := s) c
  have hs := h.sessions
  have ht := h.tokens
  have hf := h.frames
  simp only [LocalServer.owners, LocalServer.tokens, LocalServer.held, hpc, WorkerPc.owners,
    WorkerPc.tokens, WorkerPc.held] at hs ht hf
  refine ⟨?_, ?_, ?_, ?_, fun d stale hd => ?_⟩
  · rw [add_comm _ c.owners] at hs
    have := sessionCleanupStep_sessions c hs
    convert this using 1
    simp only [LocalServer.owners, hq, hso, hw, WorkerPc.owners_elim]
    abel
  · simpa [LocalServer.held, hq, hu, hw, ha, hr] using hf
  · have := sessionCleanupStep_tokens (s := s) c
    simp only [LocalServer.owners, LocalServer.tokens, hq, hso, hw, WorkerPc.owners_elim,
      WorkerPc.tokens_elim, Multiset.card_add] at ht ⊢
    omega
  · simpa only [hq, hid] using h.closes
  · cases hc : (sessionCleanupStep s c).1 <;> simp [hc] at hd

/-- The worker may go on where it has the same in hand. -/
theorem LocalServer.Inv.workerGoto (h : s.Inv) {pc : WorkerPc N} (ho : pc.owners = s.worker.owners)
    (ht : pc.tokens = s.worker.tokens) (hh : pc.held = s.worker.held)
    (hg : ∀ d stale, pc ≠ .got d stale) : LocalServer.Inv { s with worker := pc } := by
  refine ⟨?_, ?_, ?_, h.closes, fun d stale hd => absurd hd (hg d stale)⟩
  · simpa only [LocalServer.owners, ho] using h.sessions
  · simpa only [LocalServer.held, hh] using h.frames
  · simpa only [LocalServer.owners, LocalServer.tokens, ho, ht] using h.tokens

/-- The invariant says nothing of the protocol block and the state of a session. -/
theorem LocalServer.Inv.update (h : s.Inv) {i : Fin N} {x : LocalSession}
    (ha : x.active = (s.sessions i).active) (hc : x.connectionId = (s.sessions i).connectionId) :
    LocalServer.Inv { s with sessions := Function.update s.sessions i x } := by
  refine ⟨?_, h.frames, h.tokens, ?_, h.fresh⟩
  · simp only [field_update LocalSession.active _ ha]
    exact h.sessions
  · simpa only [field_update LocalSession.connectionId _ hc] using h.closes

theorem LocalServer.Inv.worker (h : s.Inv) (running : Bool) : (workerStep s running).Inv := by
  cases hpc : s.worker with
  | idle =>
    simp only [workerStep, hpc]
    split
    · exact h
    · rename_i d ds hq
      exact h.dequeued hpc hq
  | cleaning c => exact h.workerCleanup hpc running
  | releasing frame =>
    have hf := h.frames
    simp only [LocalServer.held, hpc, WorkerPc.held, add_comm _ {frame}, Multiset.singleton_add]
      at hf
    simp only [workerStep, hpc, localBufferRelease]
    refine ⟨?_, ?_, ?_, h.closes, fun d stale hd => (by cases hd)⟩
    · simpa [LocalServer.owners, hpc, WorkerPc.owners] using h.sessions
    · simpa [LocalServer.held, WorkerPc.held] using hf.give
    · simpa [LocalServer.owners, LocalServer.tokens, hpc, WorkerPc.owners, WorkerPc.tokens]
        using h.tokens
  | got d stale =>
    obtain ⟨kind, i, c, n⟩ := d
    cases kind with
    | descOpen =>
      have hi := h.workerGoto (show (WorkerPc.idle : WorkerPc N).owners = _ by rw [hpc]; rfl)
        (by rw [hpc]; rfl) (by rw [hpc]; rfl) (fun d b hd => (by cases hd))
      simp only [workerStep, hpc]
      split_ifs
      · exact hi
      · exact hi.update rfl rfl
    | descFrame frame =>
      have hr := h.workerGoto
        (show (WorkerPc.releasing frame : WorkerPc N).owners = _ by rw [hpc]; rfl)
        (by rw [hpc]; rfl) (by rw [hpc]; rfl) (fun d b hd => (by cases hd))
      simp only [workerStep, hpc, localProtocolOnFrame]
      split_ifs
      · exact hr.update rfl rfl
      · exact hr
      · exact hr
    | descClose =>
      have hst : stale = false := h.fresh _ _ hpc rfl
      have hmem : (i, n) ∈ s.owners := by
        simp [LocalServer.owners, hpc, WorkerPc.owners, LocalDesc.owners]
      have hact : (s.sessions i).active = true := h.sessions.used_of_mem hmem
      simp only [workerStep, hpc, hst, sessionCleanup, hact]
      exact h.workerGoto (by rw [hpc]; rfl) (by rw [hpc]; rfl) (by rw [hpc]; rfl)
          (fun d b hd => (by cases hd))

theorem LocalServer.Inv.step (h : s.Inv) (op : LocalOp) : (localStep s op).Inv := by
  cases op with
  | handshake =>
    simp only [localStep]
    split_ifs with hpc
    · exact h.wsHandshake hpc
    · exact h
  | frame k dropped =>
    simp only [localStep]
    split_ifs with hpc
    · exact h.wsFrame hpc k dropped
    · exact h
  | close k =>
    simp only [localStep]
    split_ifs with hpc
    · exact h.onSessFree hpc k
    · exact h
  | httpd received => exact h.httpd received
  | worker running => exact h.worker running

theorem localRun_inv (N : ℕ) (ops : List LocalOp) : (localRun N ops).Inv :=
  Machine.run_invariant localStep (fun _ op h => h.step op) localServerInit_inv ops

/-- **Tokens, sessions and frames are conserved** in every interleaving of the two tasks. -/
theorem resources_conserved (N : ℕ) (ops : List LocalOp) : (localRun N ops).Conserved :=
  (localRun_inv N ops).conserved

end Fountainer.Network
