import Fountainer.Events.EventManager
import Fountainer.Lib.Runs
import Mathlib.Data.List.Nodup
import Mathlib.Data.List.ReduceOption
import Mathlib.Data.Fintype.List

/-!
# Who is subscribed

The callers of the event manager see, for each event, a list of at most eight callbacks without
repetition. `Registry` is that view, and the tables with their counters and shifted entries refine
it over every run, answers included.
-/

namespace Fountainer.Events

variable {F : Type*}

/-- The table has these callbacks, in the order of their subscription, and nothing behind them. -/
structure SubscriberList.Lists (l : SubscriberList F) (fs : List F) : Prop where
  count : l.ucCount = fs.length
  room : fs.length ≤ EVENT_MANAGER_MAX_SUBSCRIBERS
  entries : ∀ i, l.apfnCb i = fs[i.val]?
  nodup : fs.Nodup

theorem noSubscribers_lists : (noSubscribers : SubscriberList F).Lists [] :=
  ⟨rfl, Nat.zero_le _, fun _ => rfl, .nil⟩

/-- The copy that `dispatch` takes has the callbacks, none of them null. -/
theorem SubscriberList.Lists.copy_eq {l : SubscriberList F} {fs : List F} (h : l.Lists fs) :
    l.copy = fs.map some := by
  refine List.ext_getElem? fun i => ?_
  rw [SubscriberList.copy, List.getElem?_take, List.getElem?_map, h.count]
  have hroom := h.room
  by_cases hi : i < fs.length
  · rw [if_pos hi, List.getElem?_ofFn, dif_pos (by omega), h.entries]
    simp [hi]
  · rw [if_neg hi, List.getElem?_eq_none (by omega), Option.map_none]

/-- After `n` turns from `i` on, the loop has moved `n` entries down by one. -/
theorem foldl_shiftDown (cb : Fin EVENT_MANAGER_MAX_SUBSCRIBERS → Option F) (i n : ℕ)
    (hn : i + n < EVENT_MANAGER_MAX_SUBSCRIBERS) (k : Fin EVENT_MANAGER_MAX_SUBSCRIBERS) :
    (List.range' i n).foldl shiftDown cb k =
      if h : i ≤ k.val ∧ k.val < i + n then cb ⟨k.val + 1, by omega⟩ else cb k := by
  induction n generalizing k with
  | zero =>
    rw [dif_neg (by omega)]
    rfl
  | succ n ih =>
    rw [List.range'_concat, List.foldl_append, List.foldl_cons, List.foldl_nil, shiftDown,
      dif_pos (by omega), Function.update_apply]
    by_cases hk : k = ⟨i + 1 * n, by omega⟩
    · -- The entry that this turn writes; the one above it has not been moved yet.
      subst hk
      rw [if_pos rfl, ih (by omega), dif_neg (by simp), dif_pos (by simp)]
    · have hne : k.val ≠ i + 1 * n := fun h => hk (Fin.ext h)
      rw [if_neg hk, ih (by omega)]
      by_cases h : i ≤ k.val ∧ k.val < i + n
      · rw [dif_pos h, dif_pos (by omega)]
      · rw [dif_neg h, dif_neg (by omega)]

/-- What the callers of the event manager see of its tables. -/
structure Registry (F : Type*) where
  inited : Bool
  subs : SystemEvent → List F

def Registry.empty : Registry F := ⟨false, fun _ => []⟩

/-- A change that the manager accepts only for a valid event and a callback that is not null. -/
def Registry.change (r : Registry F) (eEvent : SystemEvent) (pfnCb : Option F)
    (f : List F → F → EventErr × List F) : EventErr × Registry F :=
  if !r.inited then (.invalidState, r)
  else if !eventValid eEvent then (.invalidArg, r)
  else
    match pfnCb with
    | none => (.invalidArg, r)
    | some cb =>
      let c := f (r.subs eEvent) cb
      (c.1, { r with subs := Function.update r.subs eEvent c.2 })

/-- The manager's statics stand for the registry. -/
structure EventManager.Represents (em : EventManager F) (r : Registry F) : Prop where
  inited : em.bInited = r.inited
  lists : ∀ e, (em.subs e).Lists (r.subs e)

theorem eventManagerStatics_represents : (eventManagerStatics : EventManager F).Represents .empty :=
  ⟨rfl, fun _ => noSubscribers_lists⟩

@[simp] theorem dispatchStep_frame (em : EventManager F) (h : EventHistory F) :
    (dispatchStep em h).1.bInited = em.bInited ∧ (dispatchStep em h).1.subs = em.subs ∧
      (dispatchStep em h).1.hTask = em.hTask ∧ (dispatchStep em h).1.ulDrops = em.ulDrops := by
  unfold dispatchStep
  split
  · simp
  · split
    · split <;> simp
    · simp
    · simp

theorem eventManagerPublish_frame (em : EventManager F) (e : SystemEvent) (data : EventData)
    (nowMs : UInt32) :
    let em' := (eventManagerPublish em e data nowMs).2
    em'.bInited = em.bInited ∧ em'.subs = em.subs ∧ em'.hTask = em.hTask ∧
      em'.dispatch = em.dispatch := by
  unfold eventManagerPublish
  split
  · simp
  · split <;> simp

/-- A change of a table and the same change of the list behind it. -/
theorem EventManager.Represents.change {em : EventManager F} {r : Registry F} (h : em.Represents r)
    {change : SubscriberList F → F → EventErr × SubscriberList F}
    {change' : List F → F → EventErr × List F}
    (hchange : ∀ l fs f, l.Lists fs →
      (change l f).2.Lists (change' fs f).2 ∧ (change l f).1 = (change' fs f).1)
    (e : SystemEvent) (cb : Option F) :
    (changeSubscribers em e cb change).2.Represents (r.change e cb change').2 ∧
      (changeSubscribers em e cb change).1 = (r.change e cb change').1 := by
  unfold changeSubscribers Registry.change
  rw [h.inited]
  split_ifs with hinit hvalid
  · exact ⟨h, rfl⟩
  · exact ⟨h, rfl⟩
  · cases cb with
    | none => exact ⟨h, rfl⟩
    | some f =>
      obtain ⟨hlists, hanswer⟩ := hchange _ _ f (h.lists e)
      refine ⟨⟨rfl, fun e' => ?_⟩, hanswer⟩
      by_cases he : e' = e
      · subst he
        simpa using hlists
      · simpa [he] using h.lists e'

section Changes

variable [DecidableEq F] {l : SubscriberList F} {fs : List F}

theorem SubscriberList.Lists.find?_eq_none (h : l.Lists fs) {f : F} (hf : f ∉ fs) :
    l.find? f = none := by
  rw [SubscriberList.find?, List.find?_eq_none]
  intro i _ hi
  simp only [Bool.and_eq_true, decide_eq_true_eq, h.entries] at hi
  exact hf (List.mem_of_getElem? hi.2)

/-- The place that the search finds. -/
theorem SubscriberList.Lists.find?_eq_some (h : l.Lists fs) {f : F} (hf : f ∈ fs) :
    ∃ i, l.find? f = some i ∧ fs[i.val]? = some f := by
  obtain ⟨k, hk, rfl⟩ := List.mem_iff_getElem.mp hf
  have hroom := h.room
  cases hfind : l.find? fs[k] with
  | none =>
    rw [SubscriberList.find?, List.find?_eq_none] at hfind
    refine absurd ?_ (hfind ⟨k, by omega⟩ (List.mem_finRange _))
    simp [h.entries, h.count, hk]
  | some i =>
    refine ⟨i, rfl, ?_⟩
    have := List.find?_some hfind
    simp only [Bool.and_eq_true, decide_eq_true_eq, h.entries] at this
    exact this.2

theorem SubscriberList.Lists.isSome_find? (h : l.Lists fs) (f : F) :
    (l.find? f).isSome = decide (f ∈ fs) := by
  by_cases hf : f ∈ fs
  · obtain ⟨i, hi, -⟩ := h.find?_eq_some hf
    simp [hi, hf]
  · simp [h.find?_eq_none hf, hf]

/-- A subscription appends the callback, unless it is there or the table is full. -/
theorem SubscriberList.Lists.subscribe (h : l.Lists fs) (f : F) :
    (l.subscribe f).2.Lists
        (if f ∈ fs ∨ EVENT_MANAGER_MAX_SUBSCRIBERS ≤ fs.length then fs else fs ++ [f]) ∧
      (l.subscribe f).1 =
        if f ∉ fs ∧ EVENT_MANAGER_MAX_SUBSCRIBERS ≤ fs.length then .noMem else .ok := by
  rw [SubscriberList.subscribe, h.isSome_find?]
  by_cases hf : f ∈ fs
  · simp [hf, h]
  · by_cases hfull : EVENT_MANAGER_MAX_SUBSCRIBERS ≤ fs.length
    · simp [hf, hfull, h, h.count]
    · have hcount : ¬ EVENT_MANAGER_MAX_SUBSCRIBERS ≤ l.ucCount := h.count ▸ hfull
      simp only [hf, hfull, hcount, decide_false, Bool.false_eq_true, if_false, dif_neg,
        not_false_eq_true, or_self, and_false]
      refine ⟨⟨by simp [h.count], by simp; omega, fun i => ?_, ?_⟩, trivial⟩
      · show Function.update l.apfnCb _ (some f) i = (fs ++ [f])[i.val]?
        rw [Function.update_apply, h.entries, List.getElem?_append]
        simp only [Fin.ext_iff, h.count]
        split_ifs with h1 h2 h2
        · omega
        · simp [h1]
        · rfl
        · rw [List.getElem?_eq_none (by omega), List.getElem?_eq_none (by simp; omega)]
      · exact List.nodup_append'.mpr ⟨h.nodup, List.nodup_singleton f, by simpa using hf⟩

/-- The end of a subscription takes the callback out and keeps the order of the others. -/
theorem SubscriberList.Lists.unsubscribe (h : l.Lists fs) (f : F) :
    (l.unsubscribe f).2.Lists (fs.erase f) ∧
      (l.unsubscribe f).1 = if f ∈ fs then .ok else .notFound := by
  rw [SubscriberList.unsubscribe]
  by_cases hf : f ∈ fs
  · obtain ⟨i, hfind, hi⟩ := h.find?_eq_some hf
    obtain ⟨hlt, rfl⟩ := List.getElem?_eq_some_iff.mp hi
    have hroom := h.room
    have hcount := h.count
    simp only [hfind, hf, if_true]
    refine ⟨⟨?_, ?_, fun k => ?_, h.nodup.erase _⟩, trivial⟩
    · rw [List.length_erase_of_mem hf, hcount]
    · rw [List.length_erase_of_mem hf]
      omega
    · show (if h : l.ucCount - 1 < EVENT_MANAGER_MAX_SUBSCRIBERS then _ else _ : _ → Option F) k = _
      rw [h.nodup.erase_getElem, List.getElem?_eraseIdx, dif_pos (by omega), Function.update_apply,
        foldl_shiftDown _ _ _ (by omega)]
      simp only [Fin.ext_iff, hcount, h.entries]
      -- The last place is empty now; below it the places from `i` on have what was above them.
      by_cases hlast : k.val = fs.length - 1
      · rw [if_pos hlast, if_neg (by omega), List.getElem?_eq_none (by omega)]
      · rw [if_neg hlast]
        by_cases hbelow : k.val < i.val
        · rw [dif_neg (by omega), if_pos hbelow]
        · rw [if_neg hbelow]
          by_cases hmoved : k.val < fs.length - 1
          · rw [dif_pos (by omega)]
          · rw [dif_neg (by omega), List.getElem?_eq_none (by omega),
              List.getElem?_eq_none (by omega)]
  · simp [h.find?_eq_none hf, hf, h, List.erase_of_not_mem hf]

def Registry.subscribe (r : Registry F) (eEvent : SystemEvent) (pfnCb : Option F) :
    EventErr × Registry F :=
  r.change eEvent pfnCb fun fs f =>
    if f ∈ fs then (.ok, fs)
    else if EVENT_MANAGER_MAX_SUBSCRIBERS ≤ fs.length then (.noMem, fs)
    else (.ok, fs ++ [f])

def Registry.unsubscribe (r : Registry F) (eEvent : SystemEvent) (pfnCb : Option F) :
    EventErr × Registry F :=
  r.change eEvent pfnCb fun fs f => if f ∈ fs then (.ok, fs.erase f) else (.notFound, fs)

/-- What a step of any task does to the registry. -/
def Registry.step (r : Registry F) : EventOp F → Registry F
  | .init queue mutex => if r.inited then r else ⟨queue && mutex, fun _ => []⟩
  | .subscribe e cb => (r.subscribe e cb).2
  | .unsubscribe e cb => (r.unsubscribe e cb).2
  | _ => r

theorem EventManager.Represents.subscribe {em : EventManager F} {r : Registry F}
    (h : em.Represents r) (e : SystemEvent) (cb : Option F) :
    (eventManagerSubscribe em e cb).2.Represents (r.subscribe e cb).2 ∧
      (eventManagerSubscribe em e cb).1 = (r.subscribe e cb).1 := by
  refine h.change (fun l fs f hl => ?_) e cb
  obtain ⟨hlists, hanswer⟩ := hl.subscribe f
  by_cases hf : f ∈ fs
  · simpa [hf] using And.intro hlists hanswer
  · by_cases hfull : EVENT_MANAGER_MAX_SUBSCRIBERS ≤ fs.length
    · simpa [hf, hfull] using And.intro hlists hanswer
    · simpa [hf, hfull] using And.intro hlists hanswer

theorem EventManager.Represents.unsubscribe {em : EventManager F} {r : Registry F}
    (h : em.Represents r) (e : SystemEvent) (cb : Option F) :
    (eventManagerUnsubscribe em e cb).2.Represents (r.unsubscribe e cb).2 ∧
      (eventManagerUnsubscribe em e cb).1 = (r.unsubscribe e cb).1 := by
  refine h.change (fun l fs f hl => ?_) e cb
  obtain ⟨hlists, hanswer⟩ := hl.unsubscribe f
  by_cases hf : f ∈ fs
  · simpa [hf] using And.intro hlists hanswer
  · rw [List.erase_of_not_mem hf] at hlists
    simpa [hf] using And.intro hlists hanswer

theorem EventManager.Represents.step {s : EventManager F × EventHistory F} {r : Registry F}
    (h : s.1.Represents r) (op : EventOp F) : (eventStep s op).1.Represents (r.step op) := by
  cases op with
  | init queue mutex =>
    show (eventManagerInit s.1 queue mutex).2.Represents _
    unfold eventManagerInit Registry.step
    rw [h.inited]
    split
    · exact h
    · cases queue <;> cases mutex <;> exact ⟨by simp_all, fun _ => noSubscribers_lists⟩
  | start created =>
    show (eventManagerStart s.1 created).2.Represents r
    unfold eventManagerStart
    split_ifs <;> exact ⟨h.inited, h.lists⟩
  | publish e data nowMs =>
    obtain ⟨hinited, hsubs, -, -⟩ := eventManagerPublish_frame s.1 e data nowMs
    exact ⟨hinited.trans h.inited, fun e' => (congrFun hsubs e').symm ▸ h.lists e'⟩
  | subscribe e cb => exact (h.subscribe e cb).1
  | unsubscribe e cb => exact (h.unsubscribe e cb).1
  | dispatch =>
    obtain ⟨hinited, hsubs, -, -⟩ := dispatchStep_frame s.1 s.2
    exact ⟨hinited.trans h.inited, fun e' => (congrFun hsubs e').symm ▸ h.lists e'⟩

end Changes

/-- A history in which nothing has happened. -/
def noHistory : EventHistory F := ⟨[], [], [], [], []⟩

section Runs

variable [DecidableEq F]

/-- The manager and its history after steps of any tasks. -/
def eventRun (ops : List (EventOp F)) : EventManager F × EventHistory F :=
  Machine.run eventStep (eventManagerStatics, noHistory) ops

/-- Who is subscribed after these steps. -/
def registryAfter (ops : List (EventOp F)) : Registry F := Machine.run Registry.step .empty ops

theorem eventRun_represents (ops : List (EventOp F)) :
    (eventRun ops).1.Represents (registryAfter ops) := by
  induction ops using List.reverseRecOn with
  | nil => exact eventManagerStatics_represents
  | append_singleton ops op ih =>
    rw [eventRun, registryAfter, Machine.run_concat, Machine.run_concat]
    exact ih.step op

/-- **The tables refine the registry.** After every run the table of each event has the callbacks
    that the registry lists, in order and without repetition, and every subscription and end of a
    subscription is answered as the registry answers it. -/
theorem tables_refine_registry (ops : List (EventOp F)) :
    (∀ e, ((eventRun ops).1.subs e).Lists ((registryAfter ops).subs e)) ∧
      ∀ e cb,
        (eventManagerSubscribe (eventRun ops).1 e cb).1 = ((registryAfter ops).subscribe e cb).1 ∧
        (eventManagerUnsubscribe (eventRun ops).1 e cb).1 =
          ((registryAfter ops).unsubscribe e cb).1 := by
  have h := eventRun_represents ops
  exact ⟨h.lists, fun e cb => ⟨(h.subscribe e cb).2, (h.unsubscribe e cb).2⟩⟩

end Runs

end Fountainer.Events
