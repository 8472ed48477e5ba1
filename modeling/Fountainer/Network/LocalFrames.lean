import Fountainer.Network.LocalServer

/-!
# Frames of the local server

Which protocol state a frame meets when the worker passes it to `fp_session_message_handle`. The
queue keeps its order, so what counts is the protocol block that the descriptors before a frame
leave in its slot.
-/

namespace Fountainer.Network

variable {N : ℕ} {s : LocalServer N}

/-- What the next section of the worker passes to `fp_session_message_handle`: the connection that
    the protocol block is initialised for, and the connection of the frame. -/
def frameHandled (s : LocalServer N) : Option (Option ℕ × ℕ) :=
  match s.worker with
  | .got ⟨.descFrame _, i, _, n⟩ false =>
    if (s.sessions i).state = .closing then none else some ((s.sessions i).protocol, n)
  | _ => none

/-- Each frame is handled by the session initialised for the connection that it arrived on. -/
def FramesReachOwn (N : ℕ) (ops : List LocalOp) : Prop :=
  ∀ j running p n, ops[j]? = some (.worker running) →
    frameHandled (localRun N (ops.take j)) = some (p, n) → p = some n

def DescKind.isFrame : DescKind → Bool
  | .descFrame _ => true
  | .descOpen | .descClose => false

/-- The descriptor that the worker has found fresh and not yet processed. -/
def WorkerPc.checked : WorkerPc N → List (LocalDesc N)
  | .got d false => [d]
  | _ => []

/-- The id of a new connection is not that of a descriptor still queued for its slot, its open
    finds room in the queue, and no cleanup of the httpd task frees the slot of a frame that the
    worker has checked and not yet handled. -/
def HttpdGuard (s : LocalServer N) : HttpdPc N → Prop
  | .handshake => ∀ d ∈ s.rxq, freeSlot s = some d.slot → d.connId ≠ s.connCtr + 1
  | .opening _ _ => s.rxq.length < LOCAL_RX_QUEUE_DEPTH
  | .cleaning (.free i _) => ∀ d ∈ s.worker.checked, d.kind.isFrame = true → d.slot ≠ i
  | _ => True

instance (s : LocalServer N) : (pc : HttpdPc N) → Decidable (HttpdGuard s pc)
  | .handshake =>
    inferInstanceAs (Decidable (∀ d ∈ s.rxq, freeSlot s = some d.slot → d.connId ≠ s.connCtr + 1))
  | .opening _ _ => inferInstanceAs (Decidable (_ < _))
  | .cleaning (.free i _) =>
    inferInstanceAs (Decidable (∀ d ∈ s.worker.checked, d.kind.isFrame = true → d.slot ≠ i))
  | .idle | .receiving _ _ _ | .dropping _ | .closing _ _ | .cleaning (.wipe _ _)
  | .cleaning .give => inferInstanceAs (Decidable True)

def LocalGuard (s : LocalServer N) : LocalOp → Prop
  | .httpd _ => HttpdGuard s s.httpd
  | _ => True

instance (s : LocalServer N) : (op : LocalOp) → Decidable (LocalGuard s op)
  | .httpd _ => inferInstanceAs (Decidable (HttpdGuard s s.httpd))
  | .handshake | .frame _ _ | .close _ | .worker _ => inferInstanceAs (Decidable True)

/-- What the opens among `ds` make of the protocol block `p` of slot `i`. -/
def opened (i : Fin N) (p : Option ℕ) (ds : List (LocalDesc N)) : Option ℕ :=
  ds.foldl (fun p d => if d.kind = .descOpen ∧ d.slot = i then some d.number else p) p

/-- The descriptors that the worker has still to process, the one it has checked first. -/
def LocalServer.pending (s : LocalServer N) : List (LocalDesc N) := s.worker.checked ++ s.rxq

/-- The sessions that a handler, the queue or the worker has to clean up. -/
def LocalServer.closers (s : LocalServer N) : Multiset (Fin N × ℕ) :=
  s.httpd.owners + (s.rxq.map LocalDesc.owners).sum + s.worker.owners

/-- Slot `i` serves connection `n`, which is not closing. -/
def LocalServer.Live (s : LocalServer N) (i : Fin N) (n : ℕ) : Prop :=
  (s.sessions i).active = true ∧ (s.sessions i).number = n ∧ (s.sessions i).state ≠ .closing

/-- A frame of connection `n` on slot `i` comes after `ds`: it is pending there, or all that is
    pending is `ds`, the open included. -/
def LocalServer.Awaits (s : LocalServer N) (i : Fin N) (n : ℕ) (ds : List (LocalDesc N)) : Prop :=
  (∃ f post, s.pending = ds ++ f :: post ∧ f.kind.isFrame = true ∧ f.slot = i ∧ f.number = n) ∨
    (ds = s.pending ∧ ∀ m, s.httpd ≠ .opening i m)

/-- The invariant of guarded runs. The tasks and the queue name connections by their own numbers,
    and where a frame comes after the descriptors `ds`, these leave its slot initialised for it. -/
structure LocalServer.InOrder (s : LocalServer N) : Prop where
  numbers : ∀ o ∈ s.owners, (s.sessions o.1).number = o.2
  closing : ∀ o ∈ s.closers, (s.sessions o.1).state = .closing
  opening : ∀ i n, s.httpd = .opening i n → (i, n) ∈ s.sockets
  receiving : ∀ i n frame, s.httpd = .receiving i n frame → (i, n) ∈ s.sockets
  issued : ∀ d ∈ s.pending, d.number < s.accepted
  same : ∀ d ∈ s.rxq, (s.sessions d.slot).active = true →
    ((s.sessions d.slot).connectionId = d.connId ↔ (s.sessions d.slot).number = d.number)
  checked : ∀ d ∈ s.worker.checked, d.kind.isFrame = true →
    (s.sessions d.slot).active = true ∧ (s.sessions d.slot).number = d.number
  ready : ∀ i n ds, s.Live i n → s.Awaits i n ds → opened i (s.sessions i).protocol ds = some n

theorem localServerInit_inOrder : (localServerInit N).InOrder := by
  refine ⟨fun o ho => ?_, fun o ho => ?_, fun i n h => (by cases h), fun i n f h => (by cases h),
    fun d hd => (by cases hd), fun d hd => (by cases hd), fun d hd => (by cases hd),
    fun i n ds hl => ?_⟩
  · simp [localServerInit, LocalServer.owners, HttpdPc.owners, WorkerPc.owners] at ho
  · simp [localServerInit, LocalServer.closers, HttpdPc.owners, WorkerPc.owners] at ho
  · simp [localServerInit, LocalServer.Live] at hl

/-! ### The opens before a frame -/

theorem opened_concat (i : Fin N) (p : Option ℕ) (ds : List (LocalDesc N)) (d : LocalDesc N) :
    opened i p (ds ++ [d]) =
      if d.kind = .descOpen ∧ d.slot = i then some d.number else opened i p ds := by
  simp only [opened, List.foldl_append, List.foldl_cons, List.foldl_nil]

theorem opened_cons (i : Fin N) (p : Option ℕ) (d : LocalDesc N) (ds : List (LocalDesc N)) :
    opened i p (d :: ds) =
      opened i (if d.kind = .descOpen ∧ d.slot = i then some d.number else p) ds := rfl

/-- An outcome that the block did not have at first is due to an open, so any block gets it. -/
theorem opened_of_ne {i : Fin N} {p q : Option ℕ} {n : ℕ} {ds : List (LocalDesc N)}
    (h : opened i p ds = some n) (hp : p ≠ some n) : opened i q ds = some n := by
  induction ds generalizing p q with
  | nil => exact absurd h hp
  | cons d ds ih =>
    rw [opened_cons] at h ⊢
    split_ifs at h ⊢
    · exact h
    · exact ih h hp

theorem LocalServer.owners_eq (s : LocalServer N) : s.owners = s.sockets + s.closers := by
  simp only [LocalServer.owners, LocalServer.closers]
  abel

theorem LocalServer.owners_congr {t : LocalServer N} (hso : t.sockets = s.sockets)
    (hcl : t.closers = s.closers) : t.owners = s.owners := by
  rw [LocalServer.owners_eq, LocalServer.owners_eq, hso, hcl]

/-- What awaits a frame after a descriptor is queued. -/
theorem awaits_enqueued {t : LocalServer N} {d : LocalDesc N} (hp : t.pending = s.pending ++ [d])
    {i : Fin N} {n : ℕ} {ds : List (LocalDesc N)} (h : t.Awaits i n ds) :
    (∃ f post, s.pending = ds ++ f :: post ∧ f.kind.isFrame = true ∧ f.slot = i ∧ f.number = n) ∨
      (ds = s.pending ∧ d.kind.isFrame = true ∧ d.slot = i ∧ d.number = n) ∨
      ds = s.pending ++ [d] := by
  rcases h with ⟨f, post, he, hf, hi, hn⟩ | ⟨he, -⟩
  · rw [hp] at he
    rcases List.eq_nil_or_concat post with rfl | ⟨post, e, rfl⟩
    · obtain ⟨rfl, hd⟩ := List.append_inj' he rfl
      obtain rfl := (List.cons.inj hd).1
      exact .inr (.inl ⟨rfl, hf, hi, hn⟩)
    · refine .inl ⟨f, post, ?_, hf, hi, hn⟩
      have he : s.pending ++ [d] = (ds ++ f :: post) ++ [e] := by simpa using he
      exact (List.append_inj' he rfl).1
  · exact .inr (.inr (he.trans hp))

/-- What awaits a frame behind the head of the pending descriptors awaits it behind the head. -/
theorem awaits_tail {t : LocalServer N} {d : LocalDesc N} (hp : s.pending = d :: t.pending)
    (ho : t.httpd = s.httpd) {i : Fin N} {n : ℕ} {ds : List (LocalDesc N)} (h : t.Awaits i n ds) :
    s.Awaits i n (d :: ds) := by
  rcases h with ⟨f, post, he, hf⟩ | ⟨he, hm⟩
  · exact .inl ⟨f, post, by rw [hp, he, List.cons_append], hf⟩
  · exact .inr ⟨by rw [hp, he], ho ▸ hm⟩

/-! ### Steps of the httpd task -/

/-- A step that queues and takes nothing, and keeps what the live sessions have. -/
theorem LocalServer.InOrder.quiet (h : s.InOrder) {t : LocalServer N} (hq : t.rxq = s.rxq)
    (hw : t.worker.checked = s.worker.checked) (ha : t.accepted = s.accepted)
    (hn : ∀ j, (t.sessions j).number = (s.sessions j).number)
    (hid : ∀ j, (t.sessions j).connectionId = (s.sessions j).connectionId)
    (hact : ∀ j, (t.sessions j).active = true → (s.sessions j).active = true)
    (hlive : ∀ j n, t.Live j n → s.Live j n ∧ (t.sessions j).protocol = (s.sessions j).protocol)
    (how : ∀ o ∈ t.owners, o ∈ s.owners)
    (hcl : ∀ o ∈ t.closers, (t.sessions o.1).state = .closing)
    (hop : ∀ i n, t.httpd = .opening i n → (i, n) ∈ t.sockets)
    (hre : ∀ i n frame, t.httpd = .receiving i n frame → (i, n) ∈ t.sockets)
    (hno : ∀ i, (∀ m, t.httpd ≠ .opening i m) → ∀ m, s.httpd ≠ .opening i m)
    (hch : ∀ d ∈ s.worker.checked, d.kind.isFrame = true → (t.sessions d.slot).active = true) :
    t.InOrder := by
  have hp : t.pending = s.pending := by rw [LocalServer.pending, hq, hw]; rfl
  refine ⟨fun o ho => ?_, hcl, hop, hre, fun d hd => ?_, fun d hd hd' => ?_, fun d hd hf => ?_,
    fun i n ds hl hds => ?_⟩
  · rw [hn]
    exact h.numbers o (how o ho)
  · rw [ha]
    exact h.issued d (hp ▸ hd)
  · rw [hn, hid]
    exact h.same d (hq ▸ hd) (hact _ hd')
  · rw [hn]
    exact ⟨hch d (hw ▸ hd) hf, (h.checked d (hw ▸ hd) hf).2⟩
  · obtain ⟨hl', hpr⟩ := hlive i n hl
    rw [hpr]
    refine h.ready i n ds hl' ?_
    rcases hds with ⟨f, post, he, hf⟩ | ⟨he, hm⟩
    · exact .inl ⟨f, post, hp ▸ he, hf⟩
    · exact .inr ⟨hp ▸ he, hno i hm⟩

/-- The httpd task goes on to a place where it has the same to clean up. -/
theorem LocalServer.InOrder.goto (h : s.InOrder) {t : LocalServer N} (hse : t.sessions = s.sessions)
    (hso : t.sockets = s.sockets) (hq : t.rxq = s.rxq) (hw : t.worker = s.worker)
    (ha : t.accepted = s.accepted) (ho : t.httpd.owners = s.httpd.owners)
    (hop : ∀ i n, t.httpd ≠ .opening i n)
    (hre : ∀ i n frame, t.httpd = .receiving i n frame → (i, n) ∈ s.sockets)
    (hno : ∀ i n, s.httpd ≠ .opening i n) : t.InOrder := by
  have hcl : t.closers = s.closers := by simp only [LocalServer.closers, ho, hq, hw]
  have how : t.owners = s.owners := LocalServer.owners_congr hso hcl
  refine h.quiet hq (by rw [hw]) ha (by simp [hse]) (by simp [hse]) (by simp [hse]) ?_ ?_
    ?_ ?_ ?_ ?_ ?_
  · intro j n hl
    simpa only [LocalServer.Live, hse, and_true] using hl
  · simp [how]
  · rw [hcl, hse]
    exact h.closing
  · exact fun i n hi => absurd hi (hop i n)
  · rw [hso]
    exact hre
  · exact fun i _ m => hno i m
  · rw [hse]
    exact fun d hd hf => (h.checked d hd hf).1

/-- A place where the httpd task neither admits a connection nor receives a frame. -/
def HttpdPc.AtRest {N : ℕ} : HttpdPc N → Prop
  | .opening .. | .receiving .. => False
  | _ => True

theorem LocalServer.InOrder.gotoRest (h : s.InOrder) {t : LocalServer N}
    (hse : t.sessions = s.sessions) (hso : t.sockets = s.sockets) (hq : t.rxq = s.rxq)
    (hw : t.worker = s.worker) (ha : t.accepted = s.accepted)
    (ho : t.httpd.owners = s.httpd.owners) (hrest : t.httpd.AtRest)
    (hno : ∀ i n, s.httpd ≠ .opening i n) : t.InOrder := by
  refine h.goto hse hso hq hw ha ho (fun i n hi => ?_) (fun i n frame hi => ?_) hno
  · rw [hi] at hrest
    exact hrest
  · rw [hi] at hrest
    exact hrest.elim

/-- The httpd task queues a descriptor about the connection that it deals with. -/
theorem LocalServer.InOrder.enqueued (h : s.InOrder) (hi : s.Inv) {d : LocalDesc N}
    (ho : d.owners = s.httpd.owners) (hm : (d.slot, d.number) ∈ s.owners)
    (hid : d.connId = (s.sessions d.slot).connectionId)
    (hop : ∀ i m, s.httpd = .opening i m → d.kind = .descOpen ∧ d.slot = i) :
    LocalServer.InOrder { s with rxq := s.rxq ++ [d], httpd := .idle } := by
  have hnum := h.numbers _ hm
  set t : LocalServer N := { s with rxq := s.rxq ++ [d], httpd := .idle } with ht
  have hp : t.pending = s.pending ++ [d] := by
    simp only [ht, LocalServer.pending, List.append_assoc]
  have hcl : t.closers = s.closers := by
    have hidle : (HttpdPc.idle : HttpdPc N).owners = 0 := rfl
    simp only [ht, LocalServer.closers, ← ho, List.map_append, List.sum_append, hidle,
      List.map_cons, List.map_nil, List.sum_cons, List.sum_nil]
    abel
  have how : t.owners = s.owners := LocalServer.owners_congr rfl hcl
  refine ⟨how ▸ h.numbers, hcl ▸ h.closing, fun i n hi => (by cases hi),
    fun i n f hi => (by cases hi), fun e he => ?_, fun e he ha => ?_, h.checked,
      fun i n ds hl hds => ?_⟩
  · rw [hp] at he
    rcases List.mem_append.1 he with he | he
    · exact h.issued e he
    · rw [List.mem_singleton.1 he]
      exact hi.sessions.lt_taken hm
  · rcases List.mem_append.1 he with he | he
    · exact h.same e he ha
    · rw [List.mem_singleton.1 he]
      exact ⟨fun _ => hnum, fun _ => hid.symm⟩
  · have hl : s.Live i n := hl
    rcases awaits_enqueued hp hds with hds | ⟨rfl, hf, rfl, rfl⟩ | rfl
    · exact h.ready i n ds hl (.inl hds)
    · refine h.ready _ _ _ hl (.inr ⟨rfl, fun m hm => ?_⟩)
      rw [(hop _ _ hm).1] at hf
      cases hf
    · rw [opened_concat]
      split_ifs with hd
      · rw [← hl.2.1, ← hd.2, hnum]
      · refine h.ready i n _ hl (.inr ⟨rfl, fun m hm => ?_⟩)
        exact hd (hop _ _ hm)

/-- A connection that takes a free slot: no descriptor pending there is about it, as none bears its
    number and none that is queued bears its id. -/
theorem LocalServer.InOrder.wsClaim (h : s.InOrder) (hi : s.Inv) (hpc : s.httpd = .handshake)
    (hG : ∀ d ∈ s.rxq, freeSlot s = some d.slot → d.connId ≠ s.connCtr + 1) :
    (wsClaim s).InOrder := by
  unfold Network.wsClaim
  split
  · exact h.gotoRest rfl rfl rfl rfl rfl (by rw [hpc]; rfl) trivial (by simp [hpc])
  rename_i i hfree
  have hfalse := freeSlot_inactive hfree
  -- whoever is named somewhere is active
  have hne : ∀ o ∈ s.owners, o.1 ≠ i := by
    rintro o ho rfl
    have := hi.sessions.used_of_mem ho
    simp [hfalse] at this
  have hmem : ∀ o ∈ s.closers, o ∈ s.owners := fun o ho => by
    rw [LocalServer.owners_eq]
    exact Multiset.mem_add.2 (.inr ho)
  set x : LocalSession :=
    { s.sessions i with
      active := true
      connectionId := s.connCtr + 1
      state := .connected
      number := s.accepted } with hx
  have hcl : (⟨s.slots, Function.update s.sessions i x, s.rxq, s.used, s.connCtr + 1,
      s.sockets ++ [(i, s.accepted)], .opening i s.accepted, s.worker, s.accepted + 1, s.cleaned,
      s.acquired, s.released⟩ : LocalServer N).closers = s.closers := by
    simp only [LocalServer.closers, hpc, HttpdPc.owners]
  refine ⟨fun o ho => ?_, fun o ho => ?_, fun j n hj => ?_, fun j n f hj => (by cases hj),
    fun d hd => (h.issued d hd).trans (Nat.lt_succ_self _), fun d hd hd' => ?_, fun d hd hf => ?_,
    fun j n ds hl hds => ?_⟩
  · rw [LocalServer.owners_eq, hcl, ← Multiset.coe_add, add_right_comm, ← LocalServer.owners_eq,
      Multiset.mem_add] at ho
    rcases ho with ho | ho
    · simpa only [Function.update_of_ne (hne o ho)] using h.numbers o ho
    · obtain rfl := List.mem_singleton.1 (Multiset.mem_coe.1 ho)
      simp only [Function.update_self, hx]
  · rw [hcl] at ho
    simpa only [Function.update_of_ne (hne o (hmem o ho))] using h.closing o ho
  · obtain ⟨rfl, rfl⟩ := HttpdPc.opening.inj hj
    exact List.mem_append_right _ (List.mem_singleton_self _)
  · by_cases hj : d.slot = i
    · have hlt : d.number < s.accepted := h.issued d (List.mem_append_right _ hd)
      have hid := hG d hd (hj ▸ hfree)
      simp only [hj, Function.update_self, hx]
      exact ⟨fun he => absurd he.symm hid, fun he => absurd he hlt.ne'⟩
    · simp only [Function.update_of_ne hj] at hd' ⊢
      exact h.same d hd hd'
  · have hd := h.checked d hd hf
    have hj : d.slot ≠ i := by
      intro hj
      rw [hj, hfalse] at hd
      cases hd.1
    simpa only [Function.update_of_ne hj] using hd
  · by_cases hj : j = i
    · subst hj
      obtain ⟨-, rfl, -⟩ := hl
      simp only [Function.update_self, hx] at hds
      rcases hds with ⟨f, post, he, -, -, hf⟩ | ⟨-, hm⟩
      · have hf' : f ∈ s.pending := by
          have he : s.pending = ds ++ f :: post := he
          rw [he]
          exact List.mem_append_right _ List.mem_cons_self
        exact absurd hf (h.issued f hf').ne
      · exact absurd rfl (hm _)
    · simp only [LocalServer.Live, Function.update_of_ne hj] at hl ⊢
      refine h.ready j n ds hl ?_
      rcases hds with hds | ⟨he, -⟩
      · exact .inl hds
      · exact .inr ⟨he, fun m hm => by rw [hpc] at hm; cases hm⟩

theorem LocalServer.InOrder.onSessFree (h : s.InOrder) (hi : s.Inv) (hpc : s.httpd = .idle)
    (k : ℕ) : (onSessFree s k).InOrder := by
  unfold Network.onSessFree
  split
  · exact h
  rename_i i n hk
  have hsock := LocalServer.sockets_eraseIdx hk
  have hmem : (i, n) ∈ s.owners := by simp [LocalServer.owners, hsock]
  have hact : (s.sessions i).active = true := hi.sessions.used_of_mem hmem
  rw [if_pos hact]
  have hnamed : ∀ o ∈ s.closers + {(i, n)}, o.1 = i ∨ o ∈ s.closers := by
    intro o ho
    rcases Multiset.mem_add.1 ho with ho | ho
    · exact .inr ho
    · exact .inl (by rw [Multiset.mem_singleton.1 ho])
  refine h.quiet rfl rfl rfl (field_update LocalSession.number _ rfl)
    (field_update LocalSession.connectionId _ rfl) (fun j => ?_) (fun j m hl => ?_) (fun o ho => ?_)
    (fun o ho => ?_) (fun j m hj => (by cases hj)) (fun j m f hj => (by cases hj))
    (fun j _ m hj => (by rw [hpc] at hj; cases hj)) (fun d hd hf => ?_)
  · simp only [field_update LocalSession.active, imp_self]
  · by_cases hj : j = i
    · subst hj
      exact absurd (by simp only [Function.update_self]) hl.2.2
    · simpa only [LocalServer.Live, Function.update_of_ne hj, and_true] using hl
  · simpa [LocalServer.owners, hpc, HttpdPc.owners, hsock] using ho
  · have ho : o ∈ s.closers + {(i, n)} := by
      simpa [LocalServer.closers, hpc, HttpdPc.owners, or_comm, or_assoc, or_left_comm] using ho
    by_cases hj : o.1 = i
    · simp only [hj, Function.update_self]
    · simpa only [Function.update_of_ne hj] using h.closing o ((hnamed o ho).resolve_left hj)
  · simpa only [field_update LocalSession.active] using (h.checked d hd hf).1

/-! ### Cleanups -/

theorem sessionCleanupStep_number (s : LocalServer N) (c : Cleanup N) (j : Fin N) :
    ((sessionCleanupStep s c).2.sessions j).number = (s.sessions j).number := by
  cases c <;> simp only [sessionCleanupStep, field_update LocalSession.number]

theorem sessionCleanupStep_active (s : LocalServer N) (c : Cleanup N) (j : Fin N) :
    ((sessionCleanupStep s c).2.sessions j).active = true ↔
      (s.sessions j).active = true ∧ ∀ n, c ≠ .free j n := by
  cases c with
  | wipe i n =>
    simp only [sessionCleanupStep, field_update LocalSession.active]
    exact (and_iff_left fun m h => (by cases h)).symm
  | free i n =>
    by_cases hj : j = i
    · simp [sessionCleanupStep, hj]
    · simp only [sessionCleanupStep, Function.update_of_ne hj]
      exact (and_iff_left fun m h => hj (Cleanup.free.inj h).1.symm).symm
  | give => exact (and_iff_left fun m h => (by cases h)).symm

/-- A cleanup works on a closing session, so the live ones keep their protocol block. -/
theorem LocalServer.InOrder.cleanup_live (h : s.InOrder) {c : Cleanup N}
    (hc : ∀ o ∈ c.owners, o ∈ s.closers) {j : Fin N} {n : ℕ}
    (hl : (sessionCleanupStep s c).2.Live j n) :
    s.Live j n ∧ ((sessionCleanupStep s c).2.sessions j).protocol = (s.sessions j).protocol := by
  cases c with
  | wipe i m =>
    by_cases hj : j = i
    · subst hj
      refine absurd ?_ hl.2.2
      simpa [sessionCleanupStep] using h.closing _ (hc _ (Multiset.mem_singleton_self _))
    · simpa only [LocalServer.Live, sessionCleanupStep, Function.update_of_ne hj, and_true] using hl
  | free i m =>
    by_cases hj : j = i
    · subst hj
      exact absurd hl.1 (by simp [sessionCleanupStep])
    · simpa only [LocalServer.Live, sessionCleanupStep, Function.update_of_ne hj, and_true] using hl
  | give => exact ⟨hl, rfl⟩

/-- What all others have to clean up stays closing. -/
theorem LocalServer.InOrder.cleanup_closing (h : s.InOrder) (hi : s.Inv) {c : Cleanup N}
    {O : Multiset (Fin N × ℕ)} (hc : s.closers = c.owners + O) :
    ∀ o ∈ (sessionCleanupStep s c).1.elim 0 Cleanup.owners + O,
      ((sessionCleanupStep s c).2.sessions o.1).state = .closing := by
  intro o ho
  cases c with
  | wipe i n =>
    have ho : o ∈ s.closers := hc ▸ ho
    simpa only [sessionCleanupStep, field_update LocalSession.state] using h.closing o ho
  | free i n =>
    have hmem : o ∈ O := by simpa [sessionCleanupStep, Cleanup.owners] using ho
    have hnd := hi.sessions.nodup
    rw [LocalServer.owners_eq, hc, Cleanup.owners, Multiset.singleton_add, Multiset.add_cons,
      Multiset.map_cons, Multiset.nodup_cons] at hnd
    have hj : o.1 ≠ i := by
      rintro rfl
      exact hnd.1 (Multiset.mem_map.2 ⟨o, Multiset.mem_add.2 (.inr hmem), rfl⟩)
    simp only [sessionCleanupStep, Function.update_of_ne hj]
    exact h.closing o (hc ▸ Multiset.mem_add.2 (.inr hmem))
  | give =>
    have ho : o ∈ s.closers := hc ▸ ho
    exact h.closing o ho

/-- A cleanup is over after its last section, and has less to clean up after the one before. -/
theorem sessionCleanupStep_owners_le (c : Cleanup N) :
    (sessionCleanupStep s c).1.elim 0 Cleanup.owners ≤ c.owners := by
  cases c <;> simp [sessionCleanupStep, Cleanup.owners]

theorem LocalServer.InOrder.httpdCleanup (h : s.InOrder) (hi : s.Inv) {c : Cleanup N}
    (hpc : s.httpd = .cleaning c) (received : Bool)
    (hG : ∀ d ∈ s.worker.checked, d.kind.isFrame = true → ∀ n, c ≠ .free d.slot n) :
    (httpdStep s received).InOrder := by
  simp only [httpdStep, hpc]
  obtain ⟨hq, -, hso, -, hw, -, -, hid⟩ := sessionCleanupStep_frame (s := s) c
  have hacc : (sessionCleanupStep s c).2.accepted = s.accepted := by cases c <;> rfl
  set O : Multiset (Fin N × ℕ) := (s.rxq.map LocalDesc.owners).sum + s.worker.owners with hO
  have hc : s.closers = c.owners + O := by
    simp only [LocalServer.closers, hpc, HttpdPc.owners, hO, add_assoc]
  set t : LocalServer N :=
    { (sessionCleanupStep s c).2 with
      httpd := (sessionCleanupStep s c).1.elim .idle .cleaning } with ht
  have hct : t.closers = (sessionCleanupStep s c).1.elim 0 Cleanup.owners + O := by
    simp only [ht, LocalServer.closers, hq, hw, HttpdPc.owners_elim, hO, add_assoc]
  have hne : ∀ pc : HttpdPc N, t.httpd = pc → pc = .idle ∨ ∃ c, pc = .cleaning c := by
    rintro pc rfl
    rw [ht]
    cases (sessionCleanupStep s c).1 with
    | none => exact .inl rfl
    | some c => exact .inr ⟨c, rfl⟩
  refine h.quiet hq (by rw [ht]; exact congrArg _ hw) hacc (sessionCleanupStep_number s c) hid
    (fun j hj => ((sessionCleanupStep_active s c j).1 hj).1)
    (fun j n hl => h.cleanup_live (fun o ho => hc ▸ Multiset.mem_add.2 (.inl ho)) hl)
    (fun o ho => ?_) (fun o ho => ?_) (fun j n hj => ?_) (fun j n f hj => ?_)
    (fun j _ m hj => (by rw [hpc] at hj; cases hj)) (fun d hd hf => ?_)
  · rw [LocalServer.owners_eq, hct, hso] at ho
    rw [LocalServer.owners_eq, hc]
    exact Multiset.mem_of_le (by gcongr; exact sessionCleanupStep_owners_le c) ho
  · exact h.cleanup_closing hi hc o (hct ▸ ho)
  · rcases hne _ hj with hj | ⟨_, hj⟩ <;> cases hj
  · rcases hne _ hj with hj | ⟨_, hj⟩ <;> cases hj
  · exact (sessionCleanupStep_active s c _).2 ⟨(h.checked d hd hf).1, hG d hd hf⟩

theorem LocalServer.InOrder.httpd (h : s.InOrder) (hi : s.Inv) (received : Bool)
    (hG : LocalGuard s (.httpd received)) : (httpdStep s received).InOrder := by
  cases hpc : s.httpd with
  | idle => simpa only [httpdStep, hpc] using h
  | handshake =>
    rw [LocalGuard, hpc] at hG
    simpa only [httpdStep, hpc] using h.wsClaim hi hpc hG
  | cleaning c =>
    refine h.httpdCleanup hi hpc received fun d hd hf n hc => ?_
    rw [LocalGuard, hpc, hc] at hG
    exact hG d hd hf rfl
  | opening i n =>
    rw [LocalGuard, hpc, HttpdGuard] at hG
    have hm : (i, n) ∈ s.owners := by
      rw [LocalServer.owners_eq]
      exact Multiset.mem_add.2 (.inl (h.opening i n hpc))
    simp only [httpdStep, hpc, descEnqueue, if_pos hG]
    refine h.enqueued hi (by rw [hpc]; rfl) hm rfl fun j m hj => ⟨rfl, ?_⟩
    rw [hpc] at hj
    exact (HttpdPc.opening.inj hj).1
  | receiving i n frame =>
    have hm : (i, n) ∈ s.owners := by
      rw [LocalServer.owners_eq]
      exact Multiset.mem_add.2 (.inl (h.receiving i n frame hpc))
    have hdrop : LocalServer.InOrder { s with httpd := .dropping frame } :=
      h.gotoRest rfl rfl rfl rfl rfl (by rw [hpc]; rfl) trivial (by simp [hpc])
    cases received with
    | false => simpa [httpdStep, hpc] using hdrop
    | true =>
      by_cases hl : s.rxq.length < LOCAL_RX_QUEUE_DEPTH
      · simp only [httpdStep, hpc, descEnqueue, if_pos hl, if_true]
        refine h.enqueued hi (by rw [hpc]; rfl) hm rfl fun j m hj => ?_
        rw [hpc] at hj
        cases hj
      · simpa [httpdStep, hpc, descEnqueue, hl] using hdrop
  | dropping frame =>
    simp only [httpdStep, hpc, localBufferRelease]
    exact h.gotoRest rfl rfl rfl rfl rfl (by rw [hpc]; rfl) trivial (by simp [hpc])
  | closing i n =>
    have hm : (i, n) ∈ s.owners := by simp [LocalServer.owners, hpc, HttpdPc.owners]
    have hact : (s.sessions i).active = true := hi.sessions.used_of_mem hm
    by_cases hl : s.rxq.length < LOCAL_RX_QUEUE_DEPTH
    · simp only [httpdStep, hpc, descEnqueue, if_pos hl, if_true]
      refine h.enqueued hi (by rw [hpc]; rfl) hm rfl fun j m hj => ?_
      rw [hpc] at hj
      cases hj
    · simp only [httpdStep, hpc, descEnqueue, if_neg hl, sessionCleanup, if_pos hact]
      exact h.gotoRest rfl rfl rfl rfl rfl (by rw [hpc]; rfl) trivial (by simp [hpc])

theorem LocalServer.InOrder.wsHandshake (h : s.InOrder) (hpc : s.httpd = .idle) :
    (wsHandshake s).InOrder := by
  unfold Network.wsHandshake
  split
  · exact h
  · exact h.gotoRest rfl rfl rfl rfl rfl (by rw [hpc]; rfl) trivial (by simp [hpc])

theorem LocalServer.InOrder.wsFrame (h : s.InOrder) (hpc : s.httpd = .idle) (k : ℕ)
    (dropped : Bool) : (wsFrame s k dropped).InOrder := by
  unfold Network.wsFrame
  split
  · exact h
  rename_i i n hk
  split_ifs
  · exact h
  · exact h
  split
  · exact h
  rename_i frame s' ha
  unfold localBufferAcquire at ha
  split at ha
  · cases ha
  obtain ⟨rfl, rfl⟩ := Prod.mk.inj (Option.some.inj ha)
  refine h.goto rfl rfl rfl rfl rfl (by rw [hpc]; rfl) (fun j m hj => (by cases hj))
    (fun j m f hj => ?_) (fun j m hj => (by rw [hpc] at hj; cases hj))
  obtain ⟨rfl, rfl, -⟩ := HttpdPc.receiving.inj hj
  exact List.mem_of_getElem? hk

/-! ### Steps of the worker -/

/-- The worker is done with the first pending descriptor, which was stale or has had its effect on
    the protocol block. -/
theorem LocalServer.InOrder.processed (h : s.InOrder) {t : LocalServer N} {d : LocalDesc N}
    (hp : s.pending = d :: t.pending) (hq : ∀ e ∈ t.rxq, e ∈ s.rxq) (hch : t.worker.checked = [])
    (hh : t.httpd = s.httpd) (hso : t.sockets = s.sockets) (ha : t.accepted = s.accepted)
    (hn : ∀ j, (t.sessions j).number = (s.sessions j).number)
    (hid : ∀ j, (t.sessions j).connectionId = (s.sessions j).connectionId)
    (hact : ∀ j, (t.sessions j).active = (s.sessions j).active)
    (hst : ∀ j, (t.sessions j).state = .closing ↔ (s.sessions j).state = .closing)
    (hcl : t.closers = s.closers)
    (hpr : ∀ i n ds, s.Live i n → opened i (s.sessions i).protocol (d :: ds) = some n →
      opened i (t.sessions i).protocol ds = some n) : t.InOrder := by
  refine ⟨fun o ho => ?_, fun o ho => ?_, ?_, ?_, fun e he => ?_, fun e he hea => ?_,
    fun e he => ?_, fun i n ds hl hds => ?_⟩
  · rw [hn]
    exact h.numbers o (LocalServer.owners_congr hso hcl ▸ ho)
  · rw [hst]
    exact h.closing o (hcl ▸ ho)
  · rw [hh, hso]
    exact h.opening
  · rw [hh, hso]
    exact h.receiving
  · rw [ha]
    exact h.issued e (hp ▸ List.mem_cons_of_mem d he)
  · rw [hn, hid]
    exact h.same e (hq e he) (hact _ ▸ hea)
  · rw [hch] at he
    cases he
  · have hl : s.Live i n := by simpa only [LocalServer.Live, hact, hn, ne_eq, hst] using hl
    exact hpr i n ds hl (h.ready i n _ hl (awaits_tail hp hh hds))

/-- A descriptor that is no open leaves the protocol blocks alone. -/
theorem opened_cons_of_ne {i : Fin N} {p : Option ℕ} {d : LocalDesc N} {ds : List (LocalDesc N)}
    (hd : d.kind ≠ .descOpen) : opened i p (d :: ds) = opened i p ds := by
  rw [opened_cons, if_neg fun h => hd h.1]

theorem isStale_eq_false {d : LocalDesc N} :
    isStale s d = false ↔ (s.sessions d.slot).active = true ∧
      (s.sessions d.slot).connectionId = d.connId := by
  simp [isStale]

theorem LocalServer.InOrder.dequeued (h : s.InOrder) {d : LocalDesc N} {ds : List (LocalDesc N)}
    (hpc : s.worker = .idle) (hq : s.rxq = d :: ds) :
    LocalServer.InOrder { s with rxq := ds, worker := .got d (isStale s d) } := by
  have hcl : (⟨s.slots, s.sessions, ds, s.used, s.connCtr, s.sockets, s.httpd, .got d (isStale s d),
      s.accepted, s.cleaned, s.acquired, s.released⟩ : LocalServer N).closers = s.closers := by
    simp only [LocalServer.closers, hpc, hq, WorkerPc.owners, List.map_cons, List.sum_cons]
    abel
  have hd : d ∈ s.rxq := hq ▸ List.mem_cons_self
  have hp : s.pending = d :: ds := by rw [LocalServer.pending, hpc, hq]; rfl
  cases hst : isStale s d with
  | true =>
    rw [hst] at hcl
    refine h.processed hp (fun e he => hq ▸ List.mem_cons_of_mem d he) rfl rfl rfl rfl
      (fun _ => rfl) (fun _ => rfl) (fun _ => rfl) (fun _ => Iff.rfl) hcl fun i n es hl he => ?_
    -- an open that is stale is not for the live connection of its slot
    rw [opened_cons] at he
    split_ifs at he with hop
    · refine opened_of_ne he fun hn => ?_
      obtain ⟨hact, hnum, -⟩ := hl
      obtain rfl := hop.2
      have hid := (h.same d hd hact).2 (hnum.trans (Option.some.inj hn).symm)
      rw [isStale_eq_false.2 ⟨hact, hid⟩] at hst
      cases hst
    · exact he
  | false =>
    rw [hst] at hcl
    obtain ⟨hact, hid⟩ := isStale_eq_false.1 hst
    have hnum := (h.same d hd hact).1 hid
    refine ⟨fun o ho => ?_, fun o ho => h.closing o (hcl ▸ ho), h.opening, h.receiving,
      fun e he => ?_, fun e he => h.same e (hq ▸ List.mem_cons_of_mem d he), fun e he hf => ?_,
      fun i n es hl hes => ?_⟩
    · rw [LocalServer.owners_congr (by rfl) hcl] at ho
      exact h.numbers o ho
    · exact h.issued e (hp ▸ he)
    · obtain rfl := List.mem_singleton.1 he
      exact ⟨hact, hnum⟩
    · refine h.ready i n es hl ?_
      rwa [LocalServer.Awaits, hp]

theorem LocalServer.InOrder.workerCleanup (h : s.InOrder) (hi : s.Inv) {c : Cleanup N}
    (hpc : s.worker = .cleaning c) (running : Bool) : (workerStep s running).InOrder := by
  simp only [workerStep, hpc]
  obtain ⟨hq, -, hso, hh, -, -, -, hid⟩ := sessionCleanupStep_frame (s := s) c
  have hacc : (sessionCleanupStep s c).2.accepted = s.accepted := by cases c <;> rfl
  set O : Multiset (Fin N × ℕ) := s.httpd.owners + (s.rxq.map LocalDesc.owners).sum with hO
  have hc : s.closers = c.owners + O := by
    simp only [LocalServer.closers, hpc, WorkerPc.owners, hO]
    abel
  set t : LocalServer N :=
    { (sessionCleanupStep s c).2 with
      worker := (sessionCleanupStep s c).1.elim .idle .cleaning } with ht
  have hct : t.closers = (sessionCleanupStep s c).1.elim 0 Cleanup.owners + O := by
    simp only [ht, LocalServer.closers, hq, hh, WorkerPc.owners_elim, hO]
    abel
  have hch : t.worker.checked = s.worker.checked := by
    rw [ht, hpc]
    cases (sessionCleanupStep s c).1 <;> rfl
  refine h.quiet hq hch hacc (sessionCleanupStep_number s c) hid
    (fun j hj => ((sessionCleanupStep_active s c j).1 hj).1)
    (fun j n hl => h.cleanup_live (fun o ho => hc ▸ Multiset.mem_add.2 (.inl ho)) hl)
    (fun o ho => ?_) (fun o ho => h.cleanup_closing hi hc o (hct ▸ ho)) (fun j n hj => ?_)
    (fun j n f hj => ?_) (fun j hj => ?_) (fun d hd => ?_)
  · rw [LocalServer.owners_eq, hct, hso] at ho
    rw [LocalServer.owners_eq, hc]
    exact Multiset.mem_of_le (by gcongr; exact sessionCleanupStep_owners_le c) ho
  · rw [hso]
    exact h.opening j n (hh ▸ hj)
  · rw [hso]
    exact h.receiving j n f (hh ▸ hj)
  · exact fun m hm => hj m (hh.trans hm)
  · rw [hpc] at hd
    cases hd

/-- The worker goes on where it has checked nothing and has the same to clean up. -/
theorem LocalServer.InOrder.workerGoto (h : s.InOrder) {t : LocalServer N}
    (hse : t.sessions = s.sessions) (hso : t.sockets = s.sockets) (hq : t.rxq = s.rxq)
    (hh : t.httpd = s.httpd) (ha : t.accepted = s.accepted) (ho : t.worker.owners = s.worker.owners)
    (hw : s.worker.checked = []) (ht : t.worker.checked = []) : t.InOrder := by
  have hcl : t.closers = s.closers := by simp only [LocalServer.closers, ho, hq, hh]
  have how : t.owners = s.owners := LocalServer.owners_congr hso hcl
  refine h.quiet hq (by rw [hw, ht]) ha (by simp [hse]) (by simp [hse]) (by simp [hse])
    ?_ ?_ ?_ ?_ ?_ ?_ ?_
  · intro j n hl
    simpa only [LocalServer.Live, hse, and_true] using hl
  · simp [how]
  · rw [hcl, hse]
    exact h.closing
  · rw [hh, hso]
    exact h.opening
  · rw [hh, hso]
    exact h.receiving
  · rw [hh]
    exact fun j hj => hj
  · simp [hw]

theorem LocalServer.InOrder.worker (h : s.InOrder) (hi : s.Inv) (running : Bool) :
    (workerStep s running).InOrder := by
  cases hpc : s.worker with
  | idle =>
    simp only [workerStep, hpc]
    split
    · exact h
    · rename_i d ds hq
      exact h.dequeued hpc hq
  | cleaning c => exact h.workerCleanup hi hpc running
  | releasing frame =>
    simp only [workerStep, hpc, localBufferRelease]
    exact h.workerGoto rfl rfl rfl rfl rfl (by rw [hpc]; rfl) (by rw [hpc]; rfl) rfl
  | got d stale =>
    obtain ⟨kind, i, c, n⟩ := d
    cases kind with
    | descOpen =>
      cases stale with
      | true =>
        simp only [workerStep, hpc, if_true]
        exact h.workerGoto rfl rfl rfl rfl rfl (by rw [hpc]; rfl) (by rw [hpc]; rfl) rfl
      | false =>
        have hp : s.pending = ⟨.descOpen, i, c, n⟩ :: s.rxq := by rw [LocalServer.pending, hpc]; rfl
        simp only [workerStep, hpc, localProtocolOnOpen, Bool.false_eq_true, if_false]
        refine h.processed hp (fun e he => he) rfl rfl rfl rfl
          (field_update LocalSession.number _ rfl) (field_update LocalSession.connectionId _ rfl)
          (field_update LocalSession.active _ rfl)
          (fun j => by simp only [field_update LocalSession.state]) ?_ fun j m es hl he => ?_
        · simp only [LocalServer.closers, hpc, WorkerPc.owners, LocalDesc.owners]
          rfl
        · rw [opened_cons] at he
          by_cases hj : j = i
          · subst hj
            simpa using he
          · rw [if_neg fun h => hj h.2.symm] at he
            simpa only [Function.update_of_ne hj] using he
    | descFrame frame =>
      cases stale with
      | true =>
        simp only [workerStep, hpc, Bool.true_eq_false, false_and, if_false]
        exact h.workerGoto rfl rfl rfl rfl rfl (by rw [hpc]; rfl) (by rw [hpc]; rfl) rfl
      | false =>
        have hp : s.pending = ⟨.descFrame frame, i, c, n⟩ :: s.rxq := by
          rw [LocalServer.pending, hpc]; rfl
        have hcl : s.closers = s.httpd.owners + (s.rxq.map LocalDesc.owners).sum + 0 := by
          simp only [LocalServer.closers, hpc]
          rfl
        -- handled or not, only a connected session changes, and it runs on
        have hdone : LocalServer.InOrder { s with worker := .releasing frame } :=
          h.processed hp (fun e he => he) rfl rfl rfl rfl (fun _ => rfl) (fun _ => rfl)
            (fun _ => rfl) (fun _ => Iff.rfl) hcl.symm
            fun j m es hl he => (by rwa [opened_cons_of_ne (by simp)] at he)
        simp only [workerStep, hpc, localProtocolOnFrame]
        split_ifs with hf hr
        · refine h.processed hp (fun e he => he) rfl rfl rfl rfl
            (field_update LocalSession.number _ rfl) (field_update LocalSession.connectionId _ rfl)
            (field_update LocalSession.active _ rfl) (fun j => ?_) hcl.symm fun j m es hl he => ?_
          · by_cases hj : j = i
            · simp [hj, hr.2]
            · simp only [Function.update_of_ne hj]
          · rw [opened_cons_of_ne (by simp)] at he
            simpa only [field_update LocalSession.protocol] using he
        · exact hdone
        · exact hdone
    | descClose =>
      have hst : stale = false := hi.fresh _ _ hpc rfl
      have hm : (i, n) ∈ s.owners := by
        simp [LocalServer.owners, hpc, WorkerPc.owners, LocalDesc.owners]
      have hact : (s.sessions i).active = true := hi.sessions.used_of_mem hm
      have hp : s.pending = ⟨.descClose, i, c, n⟩ :: s.rxq := by
        rw [LocalServer.pending, hpc, hst]; rfl
      simp only [workerStep, hpc, hst, sessionCleanup, if_pos hact]
      refine h.processed hp (fun e he => he) rfl rfl rfl rfl (fun _ => rfl) (fun _ => rfl)
        (fun _ => rfl) (fun _ => Iff.rfl) ?_
        fun j m es hl he => (by rwa [opened_cons_of_ne (by simp)] at he)
      simp only [LocalServer.closers, hpc]
      rfl

theorem LocalServer.InOrder.step (h : s.InOrder) (hi : s.Inv) (op : LocalOp)
    (hG : LocalGuard s op) : (localStep s op).InOrder := by
  cases op with
  | handshake =>
    simp only [localStep]
    split_ifs with hpc
    · exact h.wsHandshake hpc
    · exact h
  | frame k dropped =>
    simp only [localStep]
    split_ifs with hpc
    · exact h.wsFrame hpc k dropped
    · exact h
  | close k =>
    simp only [localStep]
    split_ifs with hpc
    · exact h.onSessFree hi hpc k
    · exact h
  | httpd received => exact h.httpd hi received hG
  | worker running => exact h.worker hi running

/-- The frame that the worker has checked is the first that its slot awaits. -/
theorem LocalServer.InOrder.handled (h : s.InOrder) {p : Option ℕ} {n : ℕ}
    (hh : frameHandled s = some (p, n)) : p = some n := by
  unfold frameHandled at hh
  split at hh
  · rename_i frame i c m hpc
    split_ifs at hh with hst
    obtain ⟨rfl, rfl⟩ := Prod.mk.inj (Option.some.inj hh)
    have hd : ⟨.descFrame frame, i, c, m⟩ ∈ s.worker.checked := by
      rw [hpc]
      exact List.mem_singleton_self _
    obtain ⟨hact, hnum⟩ := h.checked _ hd rfl
    refine h.ready i m [] ⟨hact, hnum, hst⟩
      (.inl ⟨⟨.descFrame frame, i, c, m⟩, s.rxq, ?_, rfl, rfl, rfl⟩)
    rw [LocalServer.pending, hpc]
    rfl
  · cases hh

/-- **Local frames reach their own, initialised session** in every interleaving whose steps all
    meet the guard. -/
theorem framesReachOwn_of_guarded (N : ℕ) (ops : List LocalOp)
    (hG : Machine.Guarded localStep LocalGuard (localServerInit N) ops) : FramesReachOwn N ops := by
  intro j running p n _ hh
  rw [← List.take_append_drop j ops, Machine.guarded_append] at hG
  have hinv : (localRun N (ops.take j)).Inv ∧ (localRun N (ops.take j)).InOrder :=
    Machine.Guarded.invariant localStep (P := fun s => s.Inv ∧ s.InOrder)
      (fun s op hg h => ⟨h.1.step op, h.2.step h.1 op hg⟩) hG.1
      ⟨localServerInit_inv, localServerInit_inOrder⟩
  exact hinv.2.handled hh

/-- A connection is opened and sends a frame, which the worker handles after the open. -/
def oneFrame : List LocalOp :=
  [.handshake, .httpd true, .httpd true, .frame 0 false, .httpd true,
    .worker false, .worker false, .worker false, .worker true, .worker true]

/-- The only slot is freed by the worker and taken by another connection. -/
def recycled : List LocalOp :=
  oneFrame ++ [.close 0, .httpd true, .worker true, .worker true, .worker true, .worker true,
    .worker true] ++ oneFrame

theorem recycled_reachesOwn :
    frameHandled (localRun 1 (recycled.take 25)) = some (some 1, 1) ∧ FramesReachOwn 1 recycled :=
  ⟨by decide +kernel, framesReachOwn_of_guarded 1 recycled (by decide +kernel)⟩

/-- With three clients the queue is full when the third one closes, so the httpd task cleans its
    slot up. The open of the next connection there is dropped; its frame is not. -/
def openDropped : List LocalOp :=
  [.handshake, .httpd true, .httpd true, .handshake, .httpd true, .httpd true,
    .handshake, .httpd true, .httpd true,
    .frame 0 false, .httpd true, .frame 0 false, .httpd true,
    .frame 0 false, .httpd true, .frame 0 false, .httpd true,
    .close 1, .httpd true, .close 1, .httpd true, .httpd true, .httpd true, .httpd true,
    .handshake, .httpd true, .httpd true,
    .worker false, .worker false, .worker false, .worker false, .worker false, .worker false,
    .worker true, .worker true, .worker true, .frame 1 false, .httpd true,
    .worker true, .worker true, .worker true, .worker true, .worker true, .worker true,
    .worker true, .worker true, .worker true,
    .worker true, .worker true, .worker true, .worker true, .worker true,
    .worker true, .worker true]

theorem openDropped_unopened : ¬ FramesReachOwn 3 openDropped := by
  intro h
  have hp : (none : Option ℕ) = some 3 := h 53 true none 3 (by decide +kernel) (by decide +kernel)
  cases hp

end Fountainer.Network
