import Fountainer.Events.Subscribers

/-!
# Delivery of the events

What becomes of the messages over every run of publishers, subscribers and the dispatch task: each
accepted message is handed once, in order, to the callbacks that are subscribed when it is its turn,
and soon enough whatever the other tasks do.
-/

namespace Fountainer.Events

open BoundedQueue (Queue)

variable {F : Type*}

/-- The message that the dispatch task has received without a copy of its callbacks. -/
def DispatchPc.uncopied : DispatchPc F → List EventMessage
  | .received m => [m]
  | _ => []

/-- The calls that the dispatch task is about to make. -/
def DispatchPc.toCall : DispatchPc F → List (EventMessage × F)
  | .calling m rest => rest.reduceOption.map fun f => (m, f)
  | _ => []

@[simp] theorem uncopied_waiting : (DispatchPc.waiting : DispatchPc F).uncopied = [] := rfl

@[simp] theorem uncopied_received (m : EventMessage) :
    (DispatchPc.received m : DispatchPc F).uncopied = [m] := rfl

@[simp] theorem uncopied_calling (m : EventMessage) (rest : List (Option F)) :
    (DispatchPc.calling m rest).uncopied = [] := rfl

@[simp] theorem toCall_waiting : (DispatchPc.waiting : DispatchPc F).toCall = [] := rfl

@[simp] theorem toCall_received (m : EventMessage) :
    (DispatchPc.received m : DispatchPc F).toCall = [] := rfl

@[simp] theorem toCall_calling (m : EventMessage) (rest : List (Option F)) :
    (DispatchPc.calling m rest).toCall = rest.reduceOption.map fun f => (m, f) := rfl

@[simp] theorem afterCall_uncopied (m : EventMessage) (rest : List (Option F)) :
    (afterCall m rest).uncopied = [] := by
  cases rest <;> rfl

@[simp] theorem afterCall_toCall (m : EventMessage) (rest : List (Option F)) :
    (afterCall m rest).toCall = rest.reduceOption.map fun f => (m, f) := by
  cases rest <;> rfl

theorem afterCall_calling {m m' : EventMessage} {rest rest' : List (Option F)}
    (h : afterCall m rest = .calling m' rest') : m' = m ∧ rest' = rest ∧ rest ≠ [] := by
  cases rest with
  | nil => cases h
  | cons r rs =>
    cases h
    exact ⟨rfl, rfl, List.cons_ne_nil _ _⟩

/-- The calls that the copies stand for. -/
def EventHistory.owed (h : EventHistory F) : List (EventMessage × F) :=
  h.copied.flatMap fun p => p.2.map fun f => (p.1, f)

/-- Where every message and every call is. -/
structure Accounted (s : EventManager F × EventHistory F) : Prop where
  carries : s.1.queue.Carries s.2.accepted s.2.received
  valid : ∀ m ∈ s.2.accepted, eventValid m.eType = true
  copied : s.2.copied.map Prod.fst ++ s.1.dispatch.uncopied = s.2.received
  called : s.2.called ++ s.1.dispatch.toCall = s.2.owed
  last : ∀ m rest, s.1.dispatch = .calling m rest →
    ∃ older fs, s.2.copied = older ++ [(m, fs)] ∧ rest.reduceOption <:+ fs
  calling : ∀ m rest, s.1.dispatch = .calling m rest →
    rest ≠ [] ∧ rest.length ≤ EVENT_MANAGER_MAX_SUBSCRIBERS
  drops : s.1.ulDrops = UInt32.ofNat s.2.refused.length

theorem messagePrepare_valid {em : EventManager F} {e : SystemEvent} {data : EventData}
    {nowMs : UInt32} {m : EventMessage} (h : messagePrepare em e data nowMs = .ok m) :
    eventValid m.eType = true := by
  unfold messagePrepare at h
  cases data with
  | null size =>
    simp only at h
    split_ifs at h with hinit hvalid
    cases h
    simpa using hvalid
  | bytes data =>
    simp only at h
    split_ifs at h with hinit hvalid
    cases h
    simpa using hvalid

theorem messagePrepare_ne_timeout (em : EventManager F) (e : SystemEvent) (data : EventData)
    (nowMs : UInt32) : messagePrepare em e data nowMs ≠ .error .timeout := by
  unfold messagePrepare
  cases data <;> simp only <;> split_ifs <;> simp

/-- What a call of `event_manager_publish` does: nothing, or its message goes into the queue, or it
    is dropped at a full queue. -/
theorem publish_cases (em : EventManager F) (h : EventHistory F) (e : SystemEvent)
    (data : EventData)
    (nowMs : UInt32) :
    ((eventManagerPublish em e data nowMs).2 = em ∧ h.publish em e data nowMs = h ∧
      (eventManagerPublish em e data nowMs).1 ≠ .timeout) ∨
    ∃ m, eventValid m.eType = true ∧
      ((∃ queue, em.queue.send m = some queue ∧
          (eventManagerPublish em e data nowMs) = (.ok, { em with queue := queue }) ∧
          h.publish em e data nowMs = { h with accepted := h.accepted ++ [m] }) ∨
        (em.queue.send m = none ∧
          (eventManagerPublish em e data nowMs) =
          (.timeout, { em with ulDrops := em.ulDrops + 1 }) ∧
          h.publish em e data nowMs = { h with refused := h.refused ++ [m] })) := by
  unfold eventManagerPublish EventHistory.publish
  cases hm : messagePrepare em e data nowMs with
  | error err =>
    left
    refine ⟨rfl, rfl, ?_⟩
    rintro rfl
    exact messagePrepare_ne_timeout em e data nowMs hm
  | ok m =>
    right
    refine ⟨m, messagePrepare_valid hm, ?_⟩
    cases hq : em.queue.send m with
    | none => exact .inr ⟨rfl, by simp [hq]⟩
    | some queue => exact .inl ⟨queue, rfl, by simp [hq]⟩

/-- What the dispatch task does next. -/
theorem dispatchStep_cases (em : EventManager F) (h : EventHistory F) :
    dispatchStep em h = (em, h) ∧ (em.hTask = true → em.dispatch = .waiting ∧ em.queue.items = []) ∨
    em.hTask = true ∧
      ((∃ m queue, em.dispatch = .waiting ∧ em.queue.receive = some (m, queue) ∧
          dispatchStep em h = ({ em with queue := queue, dispatch := .received m },
            { h with received := h.received ++ [m] })) ∨
        (∃ m copy, em.dispatch = .received m ∧
          copy = (if eventValid m.eType then (em.subs m.eType).copy else []) ∧
          dispatchStep em h = ({ em with dispatch := afterCall m copy },
            { h with copied := h.copied ++ [(m, copy.reduceOption)] })) ∨
        (∃ m rest, em.dispatch = .calling m rest ∧
          dispatchStep em h = ({ em with dispatch := afterCall m rest.tail },
            { h with called :=
              h.called ++ (rest.head?.join.map fun f => (m, f)).toList }))) := by
  unfold dispatchStep
  cases htask : em.hTask with
  | false => exact .inl ⟨by simp, by simp⟩
  | true =>
    cases hpc : em.dispatch with
    | waiting =>
      cases hq : em.queue.receive with
      | none =>
        rw [Queue.receive_eq_none_iff] at hq
        exact .inl ⟨by simp, fun _ => ⟨rfl, hq⟩⟩
      | some p => exact .inr ⟨rfl, .inl ⟨p.1, p.2, rfl, rfl, by simp⟩⟩
    | received m => exact .inr ⟨rfl, .inr (.inl ⟨m, _, rfl, rfl, by simp⟩)⟩
    | calling m rest => exact .inr ⟨rfl, .inr (.inr ⟨m, rest, rfl, by simp⟩)⟩

theorem reduceOption_eq_head_tail (rest : List (Option F)) :
    rest.reduceOption = rest.head?.join.toList ++ rest.tail.reduceOption := by
  cases rest with
  | nil => rfl
  | cons r rs => cases r <;> rfl

theorem copy_length_le (l : SubscriberList F) :
    l.copy.length ≤ EVENT_MANAGER_MAX_SUBSCRIBERS := by
  rw [SubscriberList.copy, List.length_take, List.length_ofFn]
  exact Nat.min_le_right _ _

theorem Accounted.dispatch {s : EventManager F × EventHistory F} (h : Accounted s) :
    Accounted (dispatchStep s.1 s.2) := by
  have hcopied := h.copied
  have hcalled := h.called
  rcases dispatchStep_cases s.1 s.2 with ⟨heq, -⟩ | ⟨-, hstep⟩
  · rwa [heq]
  · rcases hstep with ⟨m, queue, hpc, hreceive, heq⟩ | ⟨m, copy, hpc, hcopy, heq⟩
      | ⟨m, rest, hpc, heq⟩
    · rw [hpc] at hcopied hcalled
      rw [heq]
      exact ⟨h.carries.receive hreceive, h.valid, by simpa using hcopied,
        by simpa [EventHistory.owed] using hcalled, by simp, by simp, h.drops⟩
    · have hlength : copy.length ≤ EVENT_MANAGER_MAX_SUBSCRIBERS := by
        rw [hcopy]
        split
        · exact copy_length_le _
        · exact Nat.zero_le _
      rw [hpc] at hcopied hcalled
      rw [heq]
      refine ⟨h.carries,
        h.valid, by simpa using hcopied, by simpa [EventHistory.owed] using hcalled,
        fun m' rest' hcall => ?_, fun m' rest' hcall => ?_, h.drops⟩
      · obtain ⟨rfl, rfl, -⟩ := afterCall_calling hcall
        exact ⟨_, _, rfl, List.suffix_refl _⟩
      · obtain ⟨-, rfl, hne⟩ := afterCall_calling hcall
        exact ⟨hne, hlength⟩
    · obtain ⟨older, fs, hlast, hsuffix⟩ := h.last m rest hpc
      rw [hpc] at hcopied hcalled
      rw [heq]
      rw [reduceOption_eq_head_tail] at hsuffix
      refine ⟨h.carries, h.valid, by simpa using hcopied, ?_, fun m' rest' hcall => ?_,
        fun m' rest' hcall => ?_, h.drops⟩
      · rw [toCall_calling, reduceOption_eq_head_tail, List.map_append,
          ← List.append_assoc] at hcalled
        rw [afterCall_toCall]
        refine Eq.trans ?_ hcalled
        cases rest.head?.join <;> rfl
      · obtain ⟨rfl, rfl, -⟩ := afterCall_calling hcall
        exact ⟨older, fs, hlast, (List.suffix_append _ _).trans hsuffix⟩
      · obtain ⟨-, rfl, htail⟩ := afterCall_calling hcall
        exact ⟨htail, le_trans (by simp) (h.calling m rest hpc).2⟩

theorem Accounted.publish {s : EventManager F × EventHistory F} (h : Accounted s) (e : SystemEvent)
    (data : EventData) (nowMs : UInt32) :
    Accounted ((eventManagerPublish s.1 e data nowMs).2, s.2.publish s.1 e data nowMs) := by
  rcases publish_cases s.1 s.2 e data nowMs with
    ⟨hem, hh, -⟩ | ⟨m, hvalid, ⟨queue, hsend, hem, hh⟩ | ⟨-, hem, hh⟩⟩
  · rw [hem, hh]
    exact h
  · rw [hem, hh]
    refine ⟨h.carries.send hsend, ?_, h.copied, h.called, h.last, h.calling, h.drops⟩
    intro m' hm'
    rcases List.mem_append.mp hm' with hm' | hm'
    · exact h.valid m' hm'
    · rw [List.mem_singleton.mp hm']
      exact hvalid
  · rw [hem, hh]
    refine ⟨h.carries, h.valid, h.copied, h.called, h.last, h.calling, ?_⟩
    rw [h.drops, List.length_append, List.length_singleton, UInt32.ofNat_add]
    rfl

/-- A step that only changes the tables or starts the module. -/
theorem Accounted.congr {s : EventManager F × EventHistory F}
    (h : Accounted s) {em : EventManager F}
    (hqueue : em.queue = s.1.queue) (hdispatch : em.dispatch = s.1.dispatch)
    (hdrops : em.ulDrops = s.1.ulDrops) : Accounted (em, s.2) := by
  refine ⟨?_, h.valid, ?_, ?_, ?_, ?_, hdrops.trans h.drops⟩
  · rw [hqueue]
    exact h.carries
  · rw [hdispatch]
    exact h.copied
  · rw [hdispatch]
    exact h.called
  · rw [hdispatch]
    exact h.last
  · rw [hdispatch]
    exact h.calling

theorem changeSubscribers_frame (em : EventManager F) (e : SystemEvent) (cb : Option F)
    (change : SubscriberList F → F → EventErr × SubscriberList F) :
    let em' := (changeSubscribers em e cb change).2
    em'.queue = em.queue ∧ em'.dispatch = em.dispatch ∧ em'.ulDrops = em.ulDrops ∧
      em'.hTask = em.hTask := by
  unfold changeSubscribers
  split_ifs
  · simp
  · simp
  · cases cb <;> simp

theorem eventManagerInit_frame (em : EventManager F) (queue mutex : Bool) :
    let em' := (eventManagerInit em queue mutex).2
    em'.queue = em.queue ∧ em'.dispatch = em.dispatch ∧ em'.ulDrops = em.ulDrops ∧
      em'.hTask = em.hTask := by
  unfold eventManagerInit
  split_ifs <;> simp

theorem eventManagerStart_frame (em : EventManager F) (created : Bool) :
    let em' := (eventManagerStart em created).2
    em'.queue = em.queue ∧ em'.dispatch = em.dispatch ∧ em'.ulDrops = em.ulDrops ∧
      (em.hTask = true → em'.hTask = true) := by
  unfold eventManagerStart
  split_ifs <;> simp

/-- The message in the hands of the dispatch task has a valid event. -/
theorem Accounted.valid_received {s : EventManager F × EventHistory F} (h : Accounted s)
    {m : EventMessage} (hpc : s.1.dispatch = .received m) : eventValid m.eType = true := by
  refine h.valid m (h.carries.isPrefix.subset ?_)
  rw [← h.copied, hpc]
  simp

theorem mem_change {r : Registry F} {e e' : SystemEvent} {f : F} {cb : Option F}
    {g : List F → F → EventErr × List F} (h : f ∈ (r.change e' cb g).2.subs e) :
    f ∈ r.subs e ∨ e = e' ∧ ∃ f', cb = some f' ∧ f ∈ (g (r.subs e) f').2 := by
  unfold Registry.change at h
  split_ifs at h
  · exact .inl h
  · exact .inl h
  · cases cb with
    | none => exact .inl h
    | some f' =>
      by_cases he : e = e'
      · subst he
        exact .inr ⟨rfl, f', rfl, by simpa using h⟩
      · exact .inl (by simpa [he] using h)

section Runs

variable [DecidableEq F]

theorem Accounted.step {s : EventManager F × EventHistory F} (h : Accounted s) (op : EventOp F) :
    Accounted (eventStep s op) := by
  cases op with
  | init queue mutex =>
    obtain ⟨hqueue, hdispatch, hdrops, -⟩ := eventManagerInit_frame s.1 queue mutex
    exact h.congr hqueue hdispatch hdrops
  | start created =>
    obtain ⟨hqueue, hdispatch, hdrops, -⟩ := eventManagerStart_frame s.1 created
    exact h.congr hqueue hdispatch hdrops
  | publish e data nowMs => exact h.publish e data nowMs
  | subscribe e cb =>
    obtain ⟨hqueue, hdispatch, hdrops, -⟩ :=
      changeSubscribers_frame s.1 e cb SubscriberList.subscribe
    exact h.congr hqueue hdispatch hdrops
  | unsubscribe e cb =>
    obtain ⟨hqueue, hdispatch, hdrops, -⟩ :=
      changeSubscribers_frame s.1 e cb SubscriberList.unsubscribe
    exact h.congr hqueue hdispatch hdrops
  | dispatch => exact h.dispatch

theorem eventRun_accounted (ops : List (EventOp F)) : Accounted (eventRun ops) :=
  Machine.run_invariant eventStep (fun _ op h => h.step op)
    ⟨Queue.carries_empty, by simp [noHistory], rfl, rfl, by simp [eventManagerStatics],
      by simp [eventManagerStatics], rfl⟩ ops

theorem eventRun_append (ops more : List (EventOp F)) :
    eventRun (ops ++ more) = Machine.run eventStep (eventRun ops) more :=
  Machine.run_append eventStep _ ops more

theorem eventRun_concat (ops : List (EventOp F)) (op : EventOp F) :
    eventRun (ops ++ [op]) = eventStep (eventRun ops) op :=
  Machine.run_concat eventStep _ ops op

/-- The copies grow only where the dispatch task takes one, by those who are subscribed then. -/
theorem copied_step (ops : List (EventOp F)) (op : EventOp F) :
    (eventRun (ops ++ [op])).2.copied = (eventRun ops).2.copied ∨
      op = .dispatch ∧ ∃ m, (eventRun ops).1.dispatch = .received m ∧
        (eventRun (ops ++ [op])).2.copied =
          (eventRun ops).2.copied ++ [(m, (registryAfter ops).subs m.eType)] := by
  rw [eventRun_concat]
  cases op with
  | init queue mutex => exact .inl rfl
  | start created => exact .inl rfl
  | publish e data nowMs =>
    left
    rcases publish_cases (eventRun ops).1 (eventRun ops).2 e data nowMs with
      ⟨-, hh, -⟩ | ⟨m, -, ⟨queue, -, -, hh⟩ | ⟨-, -, hh⟩⟩ <;> (rw [eventStep, hh])
  | subscribe e cb => exact .inl rfl
  | unsubscribe e cb => exact .inl rfl
  | dispatch =>
    rw [eventStep]
    rcases dispatchStep_cases (eventRun ops).1 (eventRun ops).2 with ⟨heq, -⟩ | ⟨-, hstep⟩
    · exact .inl (by rw [heq])
    · rcases hstep with ⟨m, queue, -, -, heq⟩ | ⟨m, copy, hpc, hcopy, heq⟩ | ⟨m, rest, -, heq⟩
      · exact .inl (by rw [heq])
      · refine .inr ⟨rfl, m, hpc, ?_⟩
        rw [heq, hcopy, if_pos ((eventRun_accounted ops).valid_received hpc),
          ((eventRun_represents ops).lists m.eType).copy_eq]
        simp [List.reduceOption]
      · exact .inl (by rw [heq])

/-- A copy has the callbacks that are subscribed when it is taken. -/
theorem copied_registry (ops : List (EventOp F)) (i : ℕ) (p : EventMessage × List F)
    (h : (eventRun ops).2.copied[i]? = some p) :
    ∃ pre post, ops = pre ++ .dispatch :: post ∧ (eventRun pre).1.dispatch = .received p.1 ∧
      (eventRun pre).2.copied.length = i ∧ p.2 = (registryAfter pre).subs p.1.eType := by
  induction ops using List.reverseRecOn with
  | nil => cases h
  | append_singleton ops op ih =>
    have hold (h : (eventRun ops).2.copied[i]? = some p) :
        ∃ pre post, ops ++ [op] = pre ++ .dispatch :: post ∧
          (eventRun pre).1.dispatch = .received p.1 ∧ (eventRun pre).2.copied.length = i ∧
          p.2 = (registryAfter pre).subs p.1.eType := by
      obtain ⟨pre, post, rfl, hrest⟩ := ih h
      exact ⟨pre, post ++ [op], by simp, hrest⟩
    rcases copied_step ops op with heq | ⟨rfl, m, hpc, heq⟩
    · exact hold (heq ▸ h)
    · rw [heq, List.getElem?_append] at h
      split at h
      · exact hold h
      · rename_i hge
        obtain ⟨hi, rfl⟩ := List.getElem?_eq_some_iff.mp h
        rw [List.length_singleton] at hi
        refine ⟨ops, [], rfl, ?_, by omega, ?_⟩
        · simpa [show i - (eventRun ops).2.copied.length = 0 by omega] using hpc
        · simp [show i - (eventRun ops).2.copied.length = 0 by omega]

/-- The account of the messages after a run: those accepted are received in order and none is lost;
    each one received is copied with the callbacks that are subscribed at that time, none of them
    twice; the calls are those of the copies, in order, up to the calls that the dispatch task has
    still to make; and a message is dropped only while sixteen others wait. -/
structure DeliversOnce (ops : List (EventOp F)) : Prop where
  inOrder : (eventRun ops).2.accepted =
    (eventRun ops).2.received ++ (eventRun ops).1.queue.items
  copied : (eventRun ops).2.copied.map Prod.fst ++ (eventRun ops).1.dispatch.uncopied =
    (eventRun ops).2.received
  subscribed : ∀ i p, (eventRun ops).2.copied[i]? = some p →
    ∃ pre post, ops = pre ++ .dispatch :: post ∧ (eventRun pre).1.dispatch = .received p.1 ∧
      (eventRun pre).2.copied.length = i ∧ p.2 = (registryAfter pre).subs p.1.eType
  once : ∀ p ∈ (eventRun ops).2.copied, p.2.Nodup
  called : (eventRun ops).2.called ++ (eventRun ops).1.dispatch.toCall =
    (eventRun ops).2.copied.flatMap fun p => p.2.map fun f => (p.1, f)
  full : ∀ pre e data nowMs post, ops = pre ++ .publish e data nowMs :: post →
    (eventManagerPublish (eventRun pre).1 e data nowMs).1 = .timeout →
      (eventRun pre).2.accepted.length =
        (eventRun pre).2.received.length + EVENT_MANAGER_QUEUE_LENGTH

/-- No copy has a callback twice. -/
theorem copied_nodup (ops : List (EventOp F)) (p : EventMessage × List F)
    (hp : p ∈ (eventRun ops).2.copied) : p.2.Nodup := by
  obtain ⟨i, hi⟩ := List.mem_iff_getElem?.mp hp
  obtain ⟨pre, post, -, -, -, hsubs⟩ := copied_registry ops i p hi
  rw [hsubs]
  exact ((eventRun_represents pre).lists _).nodup

/-- **Every accepted message is delivered once, in order, to those who are subscribed.** -/
theorem events_delivered_once (ops : List (EventOp F)) : DeliversOnce ops := by
  have h := eventRun_accounted ops
  refine ⟨h.carries, h.copied, copied_registry ops, copied_nodup ops, h.called, ?_⟩
  rintro pre e data nowMs post rfl htimeout
  rcases publish_cases (eventRun pre).1 (eventRun pre).2 e data nowMs with
    ⟨-, -, hne⟩ | ⟨m, -, ⟨queue, -, heq, -⟩ | ⟨hfull, -, -⟩⟩
  · exact absurd htimeout hne
  · rw [heq] at htimeout
    cases htimeout
  · rw [Queue.send_eq_none_iff] at hfull
    rw [(eventRun_accounted pre).carries, List.length_append, hfull]

/-- The dropped messages are counted, where no two publishers count at once: a publish is one step
    here, and `s_ulDrops++` is not atomic. -/
theorem drops_counted (ops : List (EventOp F)) :
    (eventRun ops).1.ulDrops = UInt32.ofNat (eventRun ops).2.refused.length :=
  (eventRun_accounted ops).drops

-- ════════════════════════════════════════════════════════════════════════
-- After the end of a subscription
-- ════════════════════════════════════════════════════════════════════════

/-- A call of the callback for the event. -/
def isCallOf (e : SystemEvent) (f : F) (c : EventMessage × F) : Bool :=
  decide (c.1.eType = e) && decide (c.2 = f)

/-- The calls of the callback for the event that were made or are about to be made. -/
def callsOf (s : EventManager F × EventHistory F) (e : SystemEvent) (f : F) : ℕ :=
  (s.2.called ++ s.1.dispatch.toCall).countP (isCallOf e f)

/-- What the dispatch task is about to call, it calls once. -/
theorem toCall_nodup (ops : List (EventOp F)) : (eventRun ops).1.dispatch.toCall.Nodup := by
  cases hpc : (eventRun ops).1.dispatch with
  | waiting => exact .nil
  | received m => exact .nil
  | calling m rest =>
    obtain ⟨older, fs, hlast, hsuffix⟩ := (eventRun_accounted ops).last m rest hpc
    have hnodup := copied_nodup ops (m, fs) (by simp [hlast])
    exact (hnodup.sublist hsuffix.sublist).map fun _ _ h => (Prod.mk.inj h).2

/-- Only a subscription makes a callback a subscriber. -/
theorem mem_step {r : Registry F} {op : EventOp F} {e : SystemEvent} {f : F}
    (h : f ∈ (r.step op).subs e) : f ∈ r.subs e ∨ op = .subscribe e (some f) := by
  cases op with
  | init queue mutex =>
    rw [Registry.step] at h
    split at h
    · exact .inl h
    · cases h
  | start created => exact .inl h
  | publish e' data nowMs => exact .inl h
  | dispatch => exact .inl h
  | subscribe e' cb =>
    rcases mem_change h with hold | ⟨rfl, f', rfl, hnew⟩
    · exact .inl hold
    · split_ifs at hnew
      · exact .inl hnew
      · exact .inl hnew
      · rcases List.mem_append.mp hnew with hold | hnew
        · exact .inl hold
        · exact .inr (by rw [List.mem_singleton.mp hnew])
  | unsubscribe e' cb =>
    rcases mem_change h with hold | ⟨rfl, f', rfl, hnew⟩
    · exact .inl hold
    · split_ifs at hnew
      · exact .inl (List.mem_of_mem_erase hnew)
      · exact .inl hnew

theorem callsOf_eq_owed (ops : List (EventOp F)) (e : SystemEvent) (f : F) :
    callsOf (eventRun ops) e f = (eventRun ops).2.owed.countP (isCallOf e f) := by
  rw [callsOf, (eventRun_accounted ops).called]

/-- A callback that is not subscribed to the event, and is not subscribed again, gets no further
    calls for it beyond the ones that are about to be made. -/
theorem callsOf_continue (ops more : List (EventOp F)) (e : SystemEvent) (f : F)
    (hf : f ∉ (registryAfter ops).subs e) (hmore : .subscribe e (some f) ∉ more) :
    f ∉ (registryAfter (ops ++ more)).subs e ∧
      callsOf (eventRun (ops ++ more)) e f = callsOf (eventRun ops) e f := by
  induction more using List.reverseRecOn with
  | nil => simpa using hf
  | append_singleton more op ih =>
    obtain ⟨hnot, hcalls⟩ := ih fun h => hmore (List.mem_append_left _ h)
    rw [← List.append_assoc]
    refine ⟨fun h => ?_, ?_⟩
    · rw [registryAfter, Machine.run_concat] at h
      rcases mem_step h with h | rfl
      · exact hnot h
      · exact hmore (by simp)
    · rw [← hcalls, callsOf_eq_owed, callsOf_eq_owed, EventHistory.owed, EventHistory.owed]
      rcases copied_step (ops ++ more) op with heq | ⟨-, m, -, heq⟩
      · rw [heq]
      · rw [heq, List.flatMap_append, List.countP_append, Nat.add_eq_left, List.countP_eq_zero]
        intro c hc hcall
        simp only [List.flatMap_cons, List.flatMap_nil, List.append_nil, List.mem_map] at hc
        obtain ⟨f', hf', rfl⟩ := hc
        simp only [isCallOf, Bool.and_eq_true, decide_eq_true_eq] at hcall
        obtain ⟨rfl, rfl⟩ := hcall
        exact hnot hf'

/-- **At most one call after the end of a subscription.** From a state in which the callback is not
    subscribed to the event, and without a new subscription, it is called for the event no more
    often than the dispatch task is about to call it, which is at most once. -/
theorem late_calls_le_one (ops more : List (EventOp F)) (e : SystemEvent) (f : F)
    (hf : f ∉ (registryAfter ops).subs e) (hmore : .subscribe e (some f) ∉ more) :
    (eventRun (ops ++ more)).2.called.countP (isCallOf e f) ≤
        (eventRun ops).2.called.countP (isCallOf e f) +
          (eventRun ops).1.dispatch.toCall.countP (isCallOf e f) ∧
      (eventRun ops).1.dispatch.toCall.countP (isCallOf e f) ≤ 1 := by
  have hcalls := (callsOf_continue ops more e f hf hmore).2
  rw [callsOf, callsOf, List.countP_append, List.countP_append] at hcalls
  refine ⟨by omega, ?_⟩
  have hnodup := toCall_nodup ops
  cases hpc : (eventRun ops).1.dispatch with
  | waiting => simp
  | received m => simp
  | calling m rest =>
    rw [hpc, toCall_calling] at hnodup
    rw [toCall_calling, List.countP_map]
    refine le_trans (List.countP_mono_left fun g _ hg => ?_)
      (List.nodup_iff_count_le_one.mp (List.Nodup.of_map _ hnodup) f)
    simp only [Function.comp, isCallOf, Bool.and_eq_true, decide_eq_true_eq] at hg
    exact beq_iff_eq.mpr hg.2

/-- A callback that is called once more after the end of its subscription. -/
def lateCallOps : List (EventOp ℕ) :=
  [.init true true, .start true, .subscribe .pumpFault (some 7),
    .publish .pumpFault (.bytes [1]) 250,
    .dispatch, .dispatch, .unsubscribe .pumpFault (some 7)]

theorem late_calls_le_one_reached :
    (eventRun (lateCallOps ++ [.dispatch])).2.called.countP (isCallOf .pumpFault 7) = 1 ∧
      ((eventRun (lateCallOps ++ [.dispatch])).2.called.countP (isCallOf .pumpFault 7) ≤
          (eventRun lateCallOps).2.called.countP (isCallOf .pumpFault 7) +
            (eventRun lateCallOps).1.dispatch.toCall.countP (isCallOf .pumpFault 7) ∧
        (eventRun lateCallOps).1.dispatch.toCall.countP (isCallOf .pumpFault 7) ≤ 1) :=
  ⟨by decide, late_calls_le_one lateCallOps [.dispatch] .pumpFault 7 (by decide) (by simp)⟩

end Runs

-- ════════════════════════════════════════════════════════════════════════
-- How soon a message is delivered
-- ════════════════════════════════════════════════════════════════════════

def EventOp.isDispatch : EventOp F → Bool
  | .dispatch => true
  | _ => false

/-- The steps that the dispatch task still needs for the message in its hands. -/
def DispatchPc.left : DispatchPc F → ℕ
  | .waiting => 0
  | .received _ => EVENT_MANAGER_MAX_SUBSCRIBERS + 1
  | .calling _ rest => rest.length

@[simp] theorem left_waiting : (DispatchPc.waiting : DispatchPc F).left = 0 := rfl

@[simp] theorem left_received (m : EventMessage) :
    (DispatchPc.received m : DispatchPc F).left = EVENT_MANAGER_MAX_SUBSCRIBERS + 1 := rfl

@[simp] theorem left_calling (m : EventMessage) (rest : List (Option F)) :
    (DispatchPc.calling m rest).left = rest.length := rfl

@[simp] theorem afterCall_left (m : EventMessage) (rest : List (Option F)) :
    (afterCall m rest).left = rest.length := by
  cases rest <;> rfl

/-- The message at the place `i` of the accepted ones has been received, and its calls are made. -/
def Handled (i : ℕ) (s : EventManager F × EventHistory F) : Prop :=
  i < s.2.received.length ∧ (s.1.dispatch.left ≠ 0 → i + 1 < s.2.received.length)

/-- The steps of the dispatch task until that message is handled. -/
def toHandle (i : ℕ) (s : EventManager F × EventHistory F) : ℕ :=
  s.1.dispatch.left + (EVENT_MANAGER_MAX_SUBSCRIBERS + 2) * (i + 1 - s.2.received.length)

/-- The dispatch task is there, and the message is among the accepted ones. -/
structure Underway (i : ℕ) (s : EventManager F × EventHistory F) : Prop where
  accounted : Accounted s
  hTask : s.1.hTask = true
  accepted : i < s.2.accepted.length

section Soon

variable {i : ℕ} {s : EventManager F × EventHistory F}

/-- A step of the dispatch task that does not wait: it needs one step less for every message that is
    not handled, and what was handled stays so. -/
theorem dispatchStep_toHandle (h : Underway i s) :
    Underway i (dispatchStep s.1 s.2) ∧ (Handled i s → Handled i (dispatchStep s.1 s.2)) ∧
      (¬ Handled i s → toHandle i (dispatchStep s.1 s.2) < toHandle i s) := by
  have haccounted := h.accounted.dispatch
  rcases dispatchStep_cases s.1 s.2 with ⟨heq, hwait⟩ | ⟨-, hstep⟩
  · obtain ⟨hpc, hempty⟩ := hwait h.hTask
    rw [heq]
    refine ⟨h, id, fun hnot => absurd ⟨?_, fun hleft => absurd (by rw [hpc]; rfl) hleft⟩ hnot⟩
    have := h.accepted
    rwa [show s.2.accepted = _ from h.accounted.carries, hempty, List.append_nil] at this
  · rcases hstep with ⟨m, queue, hpc, hreceive, heq⟩ | ⟨m, copy, hpc, hcopy, heq⟩
      | ⟨m, rest, hpc, heq⟩
    · rw [heq] at haccounted ⊢
      refine ⟨⟨haccounted, h.hTask, h.accepted⟩, ?_, ?_⟩
      · rintro ⟨hlt, -⟩
        exact ⟨by simp; omega, fun _ => by simpa using hlt⟩
      · intro hnot
        have hge : s.2.received.length ≤ i := by
          by_contra hlt
          exact hnot ⟨by omega, fun hleft => absurd (by rw [hpc]; rfl) hleft⟩
        simp only [toHandle, hpc, left_waiting, left_received, List.length_append,
          List.length_singleton, EVENT_MANAGER_MAX_SUBSCRIBERS]
        omega
    · have hlength : copy.length ≤ EVENT_MANAGER_MAX_SUBSCRIBERS := by
        rw [hcopy]
        split
        · exact copy_length_le _
        · exact Nat.zero_le _
      rw [heq] at haccounted ⊢
      refine ⟨⟨haccounted, h.hTask, h.accepted⟩, ?_, fun _ => ?_⟩
      · rintro ⟨hlt, hdone⟩
        exact ⟨hlt, fun _ => hdone (by simp [hpc])⟩
      · simp only [toHandle, hpc, afterCall_left, left_received]
        omega
    · have hne := List.length_pos_iff.mpr (h.accounted.calling m rest hpc).1
      rw [heq] at haccounted ⊢
      refine ⟨⟨haccounted, h.hTask, h.accepted⟩, ?_, fun _ => ?_⟩
      · rintro ⟨hlt, hdone⟩
        exact ⟨hlt, fun _ => hdone (by simpa [hpc] using hne.ne')⟩
      · simp only [toHandle, hpc, afterCall_left, left_calling, List.length_tail]
        omega

variable [DecidableEq F]

/-- A step of another task leaves what the dispatch task has done and has to do. -/
theorem eventStep_other {op : EventOp F} (hop : op.isDispatch = false) :
    (eventStep s op).1.dispatch = s.1.dispatch ∧ (eventStep s op).2.received = s.2.received ∧
      (s.1.hTask = true → (eventStep s op).1.hTask = true) ∧
      s.2.accepted.length ≤ (eventStep s op).2.accepted.length := by
  cases op with
  | init queue mutex =>
    obtain ⟨-, hdispatch, -, htask⟩ := eventManagerInit_frame s.1 queue mutex
    exact ⟨hdispatch, rfl, fun h => htask.trans h, le_rfl⟩
  | start created =>
    obtain ⟨-, hdispatch, -, htask⟩ := eventManagerStart_frame s.1 created
    exact ⟨hdispatch, rfl, htask, le_rfl⟩
  | publish e data nowMs =>
    obtain ⟨-, -, htask, hdispatch⟩ := eventManagerPublish_frame s.1 e data nowMs
    refine ⟨hdispatch, ?_, fun h => htask.trans h, ?_⟩
    · rcases publish_cases s.1 s.2 e data nowMs with
        ⟨-, hh, -⟩ | ⟨m, -, ⟨queue, -, -, hh⟩ | ⟨-, -, hh⟩⟩ <;> rw [eventStep, hh]
    · rcases publish_cases s.1 s.2 e data nowMs with
        ⟨-, hh, -⟩ | ⟨m, -, ⟨queue, -, -, hh⟩ | ⟨-, -, hh⟩⟩ <;> (rw [eventStep, hh]; try simp)
  | subscribe e cb =>
    obtain ⟨-, hdispatch, -, htask⟩ := changeSubscribers_frame s.1 e cb SubscriberList.subscribe
    exact ⟨hdispatch, rfl, fun h => htask.trans h, le_rfl⟩
  | unsubscribe e cb =>
    obtain ⟨-, hdispatch, -, htask⟩ := changeSubscribers_frame s.1 e cb SubscriberList.unsubscribe
    exact ⟨hdispatch, rfl, fun h => htask.trans h, le_rfl⟩
  | dispatch => cases hop

/-- A step of any task. -/
theorem eventStep_toHandle (h : Underway i s) (op : EventOp F) :
    Underway i (eventStep s op) ∧ (Handled i s → Handled i (eventStep s op)) ∧
      (¬ Handled i s → toHandle i (eventStep s op) ≤ toHandle i s ∧
        (op.isDispatch = true → toHandle i (eventStep s op) < toHandle i s)) := by
  cases hop : op.isDispatch with
  | true =>
    have hop' : op = .dispatch := by cases op <;> first | rfl | cases hop
    subst hop'
    obtain ⟨hway, hkeep, hdrop⟩ := dispatchStep_toHandle h
    exact ⟨hway, hkeep, fun hnot => ⟨(hdrop hnot).le, fun _ => hdrop hnot⟩⟩
  | false =>
    obtain ⟨hdispatch, hreceived, htask, haccepted⟩ := eventStep_other (s := s) hop
    refine ⟨⟨h.accounted.step op, htask h.hTask, h.accepted.trans_le haccepted⟩, ?_, ?_⟩
    · rw [Handled, Handled, hdispatch, hreceived]
      exact id
    · rw [toHandle, toHandle, hdispatch, hreceived]
      exact fun _ => ⟨le_rfl, by simp⟩

theorem accepted_prefix (ops more : List (EventOp F)) :
    (eventRun ops).2.accepted <+: (eventRun (ops ++ more)).2.accepted := by
  rw [eventRun_append]
  refine Machine.run_invariant (P := fun s => (eventRun ops).2.accepted <+: s.2.accepted) eventStep
    (fun s op h => h.trans ?_) (List.prefix_refl _) more
  cases op with
  | publish e data nowMs =>
    rcases publish_cases s.1 s.2 e data nowMs with
      ⟨-, hh, -⟩ | ⟨m, -, ⟨queue, -, -, hh⟩ | ⟨-, -, hh⟩⟩
    · rw [eventStep, hh]
    · rw [eventStep, hh]
      exact List.prefix_append _ _
    · rw [eventStep, hh]
  | dispatch =>
    rcases dispatchStep_cases s.1 s.2 with ⟨heq, -⟩ | ⟨-, hstep⟩
    · rw [eventStep, heq]
    · rcases hstep with ⟨m, queue, -, -, heq⟩ | ⟨m, copy, -, -, heq⟩ | ⟨m, rest, -, heq⟩ <;>
        rw [eventStep, heq]
  | _ => exact List.prefix_refl _

omit [DecidableEq F] in
/-- A message that is handled has its copy, and the calls of the copy are made. -/
theorem Handled.calls (hway : Underway i s) (hi : Handled i s) :
    ∃ p, s.2.copied[i]? = some p ∧ s.2.accepted[i]? = some p.1 ∧
      ∀ f ∈ p.2, (p.1, f) ∈ s.2.called := by
  obtain ⟨hlt, hdone⟩ := hi
  have h := hway.accounted
  have hcopied := h.copied
  have hcalled := h.called
  rw [EventHistory.owed] at hcalled
  -- The copies whose calls are made: all, or all but the last one while the task is calling.
  obtain ⟨older, hpre, hold, hmade⟩ : ∃ older, older <+: s.2.copied ∧ i < older.length ∧
      (older.flatMap fun p => p.2.map fun f => (p.1, f)) ⊆ s.2.called := by
    cases hpc : s.1.dispatch with
    | waiting =>
      rw [hpc, uncopied_waiting, List.append_nil] at hcopied
      rw [hpc, toCall_waiting, List.append_nil] at hcalled
      refine ⟨_, List.prefix_refl _, ?_, by rw [hcalled]; exact List.Subset.refl _⟩
      rwa [← List.length_map (f := Prod.fst), hcopied]
    | received m =>
      rw [hpc, toCall_received, List.append_nil] at hcalled
      have hlength := congrArg List.length hcopied
      rw [hpc, uncopied_received, List.length_append, List.length_map,
        List.length_singleton] at hlength
      have := hdone (by simp [hpc])
      exact ⟨_, List.prefix_refl _, by omega, by rw [hcalled]; exact List.Subset.refl _⟩
    | calling m rest =>
      obtain ⟨older, fs, hlast, front, hsuffix⟩ := h.last m rest hpc
      have hlength := congrArg List.length hcopied
      rw [hpc, uncopied_calling, List.append_nil, hlast, List.length_map, List.length_append,
        List.length_singleton] at hlength
      refine ⟨older, hlast ▸ List.prefix_append _ _, ?_, ?_⟩
      · have := hdone (by simpa [hpc] using (h.calling m rest hpc).1)
        omega
      · rw [hpc, hlast, toCall_calling, List.flatMap_append, List.flatMap_singleton, ← hsuffix,
          List.map_append, ← List.append_assoc] at hcalled
        rw [List.append_cancel_right hcalled]
        exact List.subset_append_left _ _
  have hi := hold.trans_le hpre.length_le
  have hp : s.2.copied[i] = older[i] := (hpre.getElem hold).symm
  refine ⟨older[i], hp ▸ List.getElem?_eq_getElem hi, ?_, fun f hf => hmade ?_⟩
  · have haccepted : s.2.copied.map Prod.fst <+: s.2.accepted :=
      (List.prefix_append _ _).trans (hcopied ▸ h.carries.isPrefix)
    have hi' : i < (s.2.copied.map Prod.fst).length := by rwa [List.length_map]
    rw [List.getElem?_eq_getElem (hi'.trans_le haccepted.length_le), ← haccepted.getElem hi',
      List.getElem_map, hp]
  · exact List.mem_flatMap.mpr ⟨_, List.getElem_mem hold, List.mem_map_of_mem hf⟩

/-- **Every accepted message is delivered soon.** Once the dispatch task is there, a message that is
    accepted at the place `i` is delivered to all its callbacks within 169 further steps of that
    task, in any interleaving with publishers and changes of the subscriptions. -/
theorem events_delivered_soon (ops more : List (EventOp F)) (i : ℕ) (m : EventMessage)
    (htask : (eventRun ops).1.hTask = true) (hi : (eventRun ops).2.accepted[i]? = some m)
    (hsteps : 169 ≤ more.countP EventOp.isDispatch) :
    ∃ fs, (eventRun (ops ++ more)).2.copied[i]? = some (m, fs) ∧
      ∀ f ∈ fs, (m, f) ∈ (eventRun (ops ++ more)).2.called := by
  obtain ⟨hplace, rfl⟩ := List.getElem?_eq_some_iff.mp hi
  have haccounted := eventRun_accounted ops
  have hway : Underway i (eventRun ops) := ⟨haccounted, htask, hplace⟩
  have hbound : toHandle i (eventRun ops) ≤ 169 := by
    have hwaiting := haccounted.carries.length_le
    have hleft : (eventRun ops).1.dispatch.left ≤ 9 := by
      cases hpc : (eventRun ops).1.dispatch with
      | waiting => exact Nat.zero_le _
      | received m => exact le_rfl
      | calling m rest => exact (haccounted.calling m rest hpc).2.trans (by decide)
    simp only [toHandle, EVENT_MANAGER_MAX_SUBSCRIBERS]
    rw [EVENT_MANAGER_QUEUE_LENGTH] at hwaiting
    omega
  have hkeep (s) (op : EventOp F) (h : Underway i s) := (eventStep_toHandle h op).1
  have hhandled (s) (op : EventOp F) (h : Underway i s) :
    Handled i s → Handled i (eventStep s op) :=
    (eventStep_toHandle h op).2.1
  have hle (s) (op : EventOp F) (h : Underway i s) (hnot : ¬ Handled i (eventStep s op)) :
      toHandle i (eventStep s op) ≤ toHandle i s :=
    ((eventStep_toHandle h op).2.2 fun hs => hnot (hhandled s op h hs)).1
  have hlt (s) (op : EventOp F) (h : Underway i s) (hop : op.isDispatch = true)
      (hnot : ¬ Handled i (eventStep s op)) : toHandle i (eventStep s op) < toHandle i s :=
    ((eventStep_toHandle h op).2.2 fun hs => hnot (hhandled s op h hs)).2 hop
  have hway' : Underway i (eventRun (ops ++ more)) := by
    rw [eventRun_append]
    exact Machine.run_invariant eventStep hkeep hway more
  have hdone : Handled i (eventRun (ops ++ more)) := by
    rw [eventRun_append]
    rcases Machine.run_rank_of_count eventStep hkeep hhandled hle hlt hway more with hdone | hrank
    · exact hdone
    · -- The steps have used up the whole rank.
      have hzero : toHandle i (Machine.run eventStep (eventRun ops) more) = 0 := by omega
      rw [toHandle, Nat.add_eq_zero_iff, EVENT_MANAGER_MAX_SUBSCRIBERS] at hzero
      exact ⟨by omega, fun hleft => absurd hzero.1 hleft⟩
  obtain ⟨p, hcopied, haccepted, hcalls⟩ := hdone.calls hway'
  have hm : p.1 = (eventRun ops).2.accepted[i] := by
    have hpre := accepted_prefix ops more
    rw [List.getElem?_eq_getElem (hplace.trans_le hpre.length_le),
      ← hpre.getElem hplace] at haccepted
    exact (Option.some.inj haccepted).symm
  exact ⟨p.2, by rw [hcopied, ← hm], fun f hf => hm ▸ hcalls f hf⟩

/-- A message that waits with one callback for its event. -/
def waitingMessageOps : List (EventOp ℕ) :=
  [.init true true, .start true, .subscribe .monitorTick (some 3),
    .publish .monitorTick (.null 0) 5000]

theorem events_delivered_soon_waiting :
    ∃ fs, (eventRun (waitingMessageOps ++ List.replicate 169 .dispatch)).2.copied[0]? =
        some (⟨.monitorTick, [], 5000⟩, fs) ∧
      ∀ f ∈ fs, (⟨.monitorTick, [], 5000⟩, f) ∈
        (eventRun (waitingMessageOps ++ List.replicate 169 .dispatch)).2.called :=
  events_delivered_soon waitingMessageOps (List.replicate 169 .dispatch) 0 ⟨.monitorTick, [], 5000⟩
    (by decide) (by decide) (by rw [List.countP_replicate]; exact le_rfl)

end Soon

end Fountainer.Events
