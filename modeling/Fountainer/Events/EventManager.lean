import Fountainer.Lib.BoundedQueue
import Mathlib.Data.List.Basic
import Mathlib.Logic.Function.Basic

/-!
# Event manager

`event_manager.c`: publishers put messages with a copied payload into a queue, and the dispatch task
hands each of them to the callbacks that are subscribed to its event. A section under
`s_hSubMutex`, an operation on the queue and a call of a callback are one step each, so callbacks
and other tasks publish, subscribe and unsubscribe anywhere in between.
-/

namespace Fountainer.Events

open BoundedQueue (Queue)

/-- `system_event_t`. -/
inductive SystemEvent where
  | none
  | systemBoot
  | systemReady
  | wlanConnected
  | wlanDisconnected
  | sessionReady
  | sessionLost
  | otaStarted
  | otaApplied
  | otaFailed
  | otaRejectedUnsigned
  | pumpStateChanged
  | pumpFault
  | pumpFaultCleared
  | dpWritten
  | networkConfigSaved
  | networkConfigRestored
  | powerModeChanged
  | taskStarted
  | taskStopped
  | taskCycleOverrun
  | taskStackLow
  | wdWarning
  | wdTimeout
  | wdRecoveryStarted
  | wdRecoverySuccess
  | wdRecoveryFailed
  | wdRebootRequested
  | wdBootDiagnosis
  | lowMemory
  | fatalError
  | monitorTick
  | linkStateChanged
  | max
  deriving DecidableEq, Repr

/-- `esp_err_t`, as far as the event manager returns it. -/
inductive EventErr where
  | ok
  | noMem
  | invalidState
  | invalidArg
  | invalidSize
  | timeout
  | notFound
  deriving DecidableEq, Repr

def EVENT_MANAGER_QUEUE_LENGTH : ℕ := 16

def EVENT_MANAGER_MAX_SUBSCRIBERS : ℕ := 8

def EVENT_MANAGER_MAX_PAYLOAD_SIZE : ℕ := 64

/-- `event_message_t`, with as much of `aucData` as `szSize` says. -/
structure EventMessage where
  eType : SystemEvent
  data : List UInt8
  ulTimestampMs : UInt32
  deriving DecidableEq, Repr

/-- The arguments `pvData` and `szSize`: a null pointer with any size, or the bytes. -/
inductive EventData where
  | null (szSize : ℕ)
  | bytes (data : List UInt8)
  deriving DecidableEq, Repr

def EventData.size : EventData → ℕ
  | .null szSize => szSize
  | .bytes data => data.length

/-- `subscriber_list_t`. -/
structure SubscriberList (F : Type*) where
  apfnCb : Fin EVENT_MANAGER_MAX_SUBSCRIBERS → Option F
  ucCount : ℕ

/-- Where the dispatch task is: waiting for a message, before the copy of the callbacks, with the
    callbacks of its copy that are still to be called. -/
inductive DispatchPc (F : Type*) where
  | waiting
  | received (m : EventMessage)
  | calling (m : EventMessage) (rest : List (Option F))
  deriving DecidableEq

/-- The statics of the module. `hTask` tells whether the dispatch task is there. -/
structure EventManager (F : Type*) where
  bInited : Bool
  hTask : Bool
  subs : SystemEvent → SubscriberList F
  queue : Queue EventMessage EVENT_MANAGER_QUEUE_LENGTH
  ulDrops : UInt32
  dispatch : DispatchPc F

/-- What has happened, for the statements: the messages that the queue took and those that it
    refused, those received, the copies of the callbacks, and the calls. -/
structure EventHistory (F : Type*) where
  accepted : List EventMessage
  refused : List EventMessage
  received : List EventMessage
  copied : List (EventMessage × List F)
  called : List (EventMessage × F)

variable {F : Type*}

def noSubscribers : SubscriberList F := ⟨fun _ => none, 0⟩

/-- The statics before `event_manager_init`. -/
def eventManagerStatics : EventManager F where
  bInited := false
  hTask := false
  subs := fun _ => noSubscribers
  queue := .empty
  ulDrops := 0
  dispatch := .waiting

def eventValid (eEvent : SystemEvent) : Bool :=
  decide (SystemEvent.none.ctorIdx < eEvent.ctorIdx) &&
    decide (eEvent.ctorIdx < SystemEvent.max.ctorIdx)

/-- `event_manager_init`, with the answers of the creation of the queue and the mutex. -/
def eventManagerInit (em : EventManager F) (queue mutex : Bool) : EventErr × EventManager F :=
  if em.bInited then (.ok, em)
  else
    let em := { em with subs := fun _ => noSubscribers }
    if !queue then (.noMem, em)
    else if !mutex then (.noMem, em)
    else (.ok, { em with bInited := true })

/-- `event_manager_start`, with the answer of the creation of the task. -/
def eventManagerStart (em : EventManager F) (created : Bool) : EventErr × EventManager F :=
  if !em.bInited then (.invalidState, em)
  else if em.hTask then (.ok, em)
  else if !created then (.noMem, em)
  else (.ok, { em with hTask := true })

/-- `message_prepare`. -/
def messagePrepare (em : EventManager F) (eEvent : SystemEvent) (data : EventData)
    (nowMs : UInt32) :
    Except EventErr EventMessage :=
  if !em.bInited then .error .invalidState
  else if !eventValid eEvent then .error .invalidArg
  else if EVENT_MANAGER_MAX_PAYLOAD_SIZE < data.size then .error .invalidSize
  else
    match data with
    | .null szSize => if 0 < szSize then .error .invalidArg else .ok ⟨eEvent, [], nowMs⟩
    | .bytes bytes => .ok ⟨eEvent, bytes, nowMs⟩

/-- `event_manager_publish` and `event_manager_publish_from_isr`, at the moment in which the queue
    takes the message or the wait for room ends. -/
def eventManagerPublish (em : EventManager F) (eEvent : SystemEvent) (data : EventData)
    (nowMs : UInt32) : EventErr × EventManager F :=
  match messagePrepare em eEvent data nowMs with
  | .error e => (e, em)
  | .ok m =>
    match em.queue.send m with
    | some queue => (.ok, { em with queue := queue })
    | none => (.timeout, { em with ulDrops := em.ulDrops + 1 })

section Subscribers

variable [DecidableEq F]

/-- The first place of the callback in the list. -/
def SubscriberList.find? (l : SubscriberList F) (pfnCb : F) :
    Option (Fin EVENT_MANAGER_MAX_SUBSCRIBERS) :=
  (List.finRange EVENT_MANAGER_MAX_SUBSCRIBERS).find? fun i =>
    decide (i.val < l.ucCount) && decide (l.apfnCb i = some pfnCb)

/-- One turn of the loop that closes the gap. -/
def shiftDown (cb : Fin EVENT_MANAGER_MAX_SUBSCRIBERS → Option F) (j : ℕ) :
    Fin EVENT_MANAGER_MAX_SUBSCRIBERS → Option F :=
  if h : j + 1 < EVENT_MANAGER_MAX_SUBSCRIBERS then
    Function.update cb ⟨j, by omega⟩ (cb ⟨j + 1, h⟩)
  else cb

/-- The section of `event_manager_subscribe`. -/
def SubscriberList.subscribe (l : SubscriberList F) (pfnCb : F) : EventErr × SubscriberList F :=
  if (l.find? pfnCb).isSome then (.ok, l)
  else if h : EVENT_MANAGER_MAX_SUBSCRIBERS ≤ l.ucCount then (.noMem, l)
  else (.ok, ⟨Function.update l.apfnCb ⟨l.ucCount, by omega⟩ (some pfnCb), l.ucCount + 1⟩)

/-- The section of `event_manager_unsubscribe`. -/
def SubscriberList.unsubscribe (l : SubscriberList F) (pfnCb : F) : EventErr × SubscriberList F :=
  match l.find? pfnCb with
  | none => (.notFound, l)
  | some i =>
    let cb := (List.range' i.val (l.ucCount - 1 - i.val)).foldl shiftDown l.apfnCb
    let cb :=
      if h : l.ucCount - 1 < EVENT_MANAGER_MAX_SUBSCRIBERS then
        Function.update cb ⟨l.ucCount - 1, h⟩ none
      else cb
    (.ok, ⟨cb, l.ucCount - 1⟩)

/-- A change of the list of one event, for a callback that may be null. -/
def changeSubscribers (em : EventManager F) (eEvent : SystemEvent) (pfnCb : Option F)
    (change : SubscriberList F → F → EventErr × SubscriberList F) : EventErr × EventManager F :=
  if !em.bInited then (.invalidState, em)
  else if !eventValid eEvent then (.invalidArg, em)
  else
    match pfnCb with
    | none => (.invalidArg, em)
    | some f =>
      let r := change (em.subs eEvent) f
      (r.1, { em with subs := Function.update em.subs eEvent r.2 })

/-- `event_manager_subscribe`. -/
def eventManagerSubscribe (em : EventManager F) (eEvent : SystemEvent) (pfnCb : Option F) :
    EventErr × EventManager F :=
  changeSubscribers em eEvent pfnCb SubscriberList.subscribe

/-- `event_manager_unsubscribe`. -/
def eventManagerUnsubscribe (em : EventManager F) (eEvent : SystemEvent) (pfnCb : Option F) :
    EventErr × EventManager F :=
  changeSubscribers em eEvent pfnCb SubscriberList.unsubscribe

end Subscribers

/-- The first `ucCount` entries of the list, as `dispatch` copies them. -/
def SubscriberList.copy (l : SubscriberList F) : List (Option F) :=
  (List.ofFn l.apfnCb).take l.ucCount

/-- The task behind its last call goes back to the queue. -/
def afterCall (m : EventMessage) : List (Option F) → DispatchPc F
  | [] => .waiting
  | rest => .calling m rest

/-- The next step of `event_manager_task`: `xQueueReceive`, the copy in `dispatch`, or a call. -/
def dispatchStep (em : EventManager F) (h : EventHistory F) : EventManager F × EventHistory F :=
  if !em.hTask then (em, h)
  else
    match em.dispatch with
    | .waiting =>
      match em.queue.receive with
      | none => (em, h)
      | some (m, queue) =>
        ({ em with queue := queue, dispatch := .received m },
          { h with received := h.received ++ [m] })
    | .received m =>
      let copy := if eventValid m.eType then (em.subs m.eType).copy else []
      ({ em with dispatch := afterCall m copy },
        { h with copied := h.copied ++ [(m, copy.reduceOption)] })
    | .calling m rest =>
      ({ em with dispatch := afterCall m rest.tail },
        { h with called := h.called ++ (rest.head?.join.map fun f => (m, f)).toList })

/-- What the tasks do. -/
inductive EventOp (F : Type*) where
  | init (queue mutex : Bool)
  | start (created : Bool)
  | publish (eEvent : SystemEvent) (data : EventData) (nowMs : UInt32)
  | subscribe (eEvent : SystemEvent) (pfnCb : Option F)
  | unsubscribe (eEvent : SystemEvent) (pfnCb : Option F)
  | dispatch

/-- What a call of `event_manager_publish` adds to the history. -/
def EventHistory.publish (h : EventHistory F) (em : EventManager F) (eEvent : SystemEvent)
    (data : EventData) (nowMs : UInt32) : EventHistory F :=
  match messagePrepare em eEvent data nowMs with
  | .error _ => h
  | .ok m =>
    if (em.queue.send m).isSome then { h with accepted := h.accepted ++ [m] }
    else { h with refused := h.refused ++ [m] }

/-- One step of any task. -/
def eventStep [DecidableEq F] (s : EventManager F × EventHistory F) :
    EventOp F → EventManager F × EventHistory F
  | .init queue mutex => ((eventManagerInit s.1 queue mutex).2, s.2)
  | .start created => ((eventManagerStart s.1 created).2, s.2)
  | .publish e data nowMs =>
    ((eventManagerPublish s.1 e data nowMs).2, s.2.publish s.1 e data nowMs)
  | .subscribe e cb => ((eventManagerSubscribe s.1 e cb).2, s.2)
  | .unsubscribe e cb => ((eventManagerUnsubscribe s.1 e cb).2, s.2)
  | .dispatch => dispatchStep s.1 s.2

end Fountainer.Events
