import Fountainer.Lib.Runs

/-!
# Starting and stopping a task

`task_manager.c`: one slot, the instances of `tm_task_wrapper` that it has had, and the calls of
`tm_stop` that wait. A section under `s_hLock` is one step, and so are the give and the take of
the binary semaphore `hFinished`; the steps interleave freely.
-/

namespace Fountainer.Tasks

/-- `tm_task_state_t`. -/
inductive TmState where
  | unused
  | registered
  | running
  | stopping
  | stopped
  deriving DecidableEq, Repr

/-- `esp_err_t`, as far as `tm_start` and `tm_stop` return it for a registered slot. -/
inductive TmErr where
  | ok
  | noMem
  | invalidState
  | timeout
  deriving DecidableEq, Repr

/-- Where an instance of `tm_task_wrapper` is: before its first section, in its start and cycles,
    in `on_stop`, past `on_stop`, past the section that marks the slot stopped, past the give. -/
inductive WrapperPc where
  | created
  | running
  | inStop
  | stopDone
  | marked
  | ended
  deriving DecidableEq, Repr

/-- The instance has completed `on_stop` and marked the slot stopped. -/
def WrapperPc.IsStopped (pc : WrapperPc) : Prop := pc = .marked ∨ pc = .ended

instance (pc : WrapperPc) : Decidable pc.IsStopped := inferInstanceAs (Decidable (_ ∨ _))

/-- A registered `tm_slot_t`. The handle is the number of the instance; `instances` has them all,
    and `waiting` the instance that each unfinished call of `tm_stop` has found. -/
structure TmSlot where
  hTask : Option ℕ
  hFinished : Bool
  bStopRequested : Bool
  eState : TmState
  instances : List WrapperPc
  waiting : List ℕ
  deriving DecidableEq, Repr

/-- A slot after `tm_register_periodic`. -/
def registeredSlot : TmSlot where
  hTask := none
  hFinished := false
  bStopRequested := false
  eState := .registered
  instances := []
  waiting := []

/-- The section of `tm_start`; `created` tells what the task creation answers. -/
def tmStart (s : TmSlot) (created : Bool) : TmErr × TmSlot :=
  if s.hTask.isSome then (.invalidState, s)
  else
    let s := { s with bStopRequested := false, hFinished := false }
    if created then
      (.ok, { s with hTask := some s.instances.length, instances := s.instances ++ [.created] })
    else (.noMem, { s with hTask := none, eState := .stopped })

/-- The section of `tm_stop`. Without a task it returns; otherwise it will wait. -/
def tmStop (s : TmSlot) : Option TmErr × TmSlot :=
  match s.hTask with
  | none => (some .ok, s)
  | some i =>
    (none, { s with eState := .stopping, bStopRequested := true, waiting := s.waiting ++ [i] })

/-- The end of the `k`-th waiting call: it takes the semaphore, or its time is over. -/
def tmStopWait (s : TmSlot) (k : ℕ) (timeout : Bool) : Option TmErr × TmSlot :=
  if s.waiting[k]? = none then (none, s)
  else if timeout then (some .timeout, { s with waiting := s.waiting.eraseIdx k })
  else if s.hFinished then
    (some .ok, { s with hFinished := false, waiting := s.waiting.eraseIdx k })
  else (none, s)

/-- The next step of the `i`-th instance of `tm_task_wrapper`. -/
def tmTaskWrapper (s : TmSlot) (i : ℕ) : TmSlot :=
  let goto (pc : WrapperPc) : TmSlot := { s with instances := s.instances.set i pc }
  match s.instances[i]? with
  | some .created => { goto .running with eState := .running }
  | some .running => if s.bStopRequested then goto .inStop else s
  | some .inStop => goto .stopDone
  | some .stopDone =>
    { goto .marked with hTask := none, bStopRequested := false, eState := .stopped }
  | some .marked => { goto .ended with hFinished := true }
  | some .ended | none => s

/-- A step of the slot. -/
inductive TmOp where
  | start (created : Bool)
  | stop
  | stopWait (k : ℕ) (timeout : Bool)
  | wrapper (i : ℕ)
  deriving DecidableEq, Repr

def tmStep (s : TmSlot) : TmOp → TmSlot
  | .start created => (tmStart s created).2
  | .stop => (tmStop s).2
  | .stopWait k timeout => (tmStopWait s k timeout).2
  | .wrapper i => tmTaskWrapper s i

def tmRun (ops : List TmOp) : TmSlot := Machine.run tmStep registeredSlot ops

/-- Whenever `tm_stop` returns `ESP_OK` after it found a task, that instance has completed
    `on_stop` and marked the slot stopped. -/
def StopsWait (ops : List TmOp) : Prop :=
  ∀ j k timeout, ops[j]? = some (.stopWait k timeout) →
    (tmStopWait (tmRun (ops.take j)) k timeout).1 = some .ok →
      ∃ i pc, (tmRun (ops.take j)).waiting[k]? = some i ∧
        (tmRun (ops.take j)).instances[i]? = some pc ∧ pc.IsStopped

/-- No task is started while an instance is between its last section and its give. -/
def StartGuard (s : TmSlot) : TmOp → Prop
  | .start _ => s.hTask = none → ∀ pc ∈ s.instances, pc ≠ .marked
  | _ => True

instance (s : TmSlot) : (op : TmOp) → Decidable (StartGuard s op)
  | .start _ => inferInstanceAs (Decidable (s.hTask = none → ∀ pc ∈ s.instances, pc ≠ .marked))
  | .stop | .stopWait _ _ | .wrapper _ => inferInstanceAs (Decidable True)

/-- The invariant of such runs: all instances but the present one have stopped, and while there is
    one all have given their semaphore and it has been drained. -/
structure TmSlot.Inv (s : TmSlot) : Prop where
  stopped : ∀ i pc, s.instances[i]? = some pc → s.hTask ≠ some i → pc.IsStopped
  current : ∀ i, s.hTask = some i → ∃ pc, s.instances[i]? = some pc ∧ ¬ pc.IsStopped
  drained : s.hTask ≠ none → s.hFinished = false ∧ ∀ pc ∈ s.instances, pc ≠ .marked
  waiting : ∀ i ∈ s.waiting, i < s.instances.length

variable {s : TmSlot}

theorem registeredSlot_inv : registeredSlot.Inv :=
  ⟨fun i pc h => by simp [registeredSlot] at h, fun i h => (by cases h), fun h => absurd rfl h,
    fun i h => (by cases h)⟩

theorem TmSlot.Inv.start (h : s.Inv) (created : Bool) (hG : StartGuard s (.start created)) :
    (tmStart s created).2.Inv := by
  unfold tmStart
  by_cases htask : s.hTask.isSome
  · rwa [if_pos htask]
  have hnone : s.hTask = none := by simpa using htask
  rw [if_neg htask]
  cases created with
  | false =>
    simp only [Bool.false_eq_true, if_false]
    refine ⟨fun i pc hi _ => h.stopped i pc hi ?_, fun i hi => (by cases hi),
      fun hno => absurd rfl hno, h.waiting⟩
    simp [hnone]
  | true =>
    simp only [if_true]
    refine ⟨fun i pc hi hne => ?_, fun i hi => ?_, fun _ => ⟨rfl, fun pc hpc => ?_⟩, fun i hi => ?_⟩
    · have hlt : i < s.instances.length := by
        have := (List.getElem?_eq_some_iff.mp hi).1
        simp only [List.length_append, List.length_singleton] at this
        have hlast : i ≠ s.instances.length := fun heq => hne (by rw [heq])
        omega
      rw [List.getElem?_append_left hlt] at hi
      exact h.stopped i pc hi (by simp [hnone])
    · obtain rfl : s.instances.length = i := Option.some.inj hi
      exact ⟨.created, by simp, by decide⟩
    · rcases List.mem_append.mp hpc with hpc | hpc
      · exact hG hnone pc hpc
      · rw [List.mem_singleton.mp hpc]
        decide
    · have := h.waiting i hi
      rw [List.length_append]
      omega

theorem TmSlot.Inv.stop (h : s.Inv) : (tmStop s).2.Inv := by
  unfold tmStop
  split
  · exact h
  · next i htask =>
    refine ⟨h.stopped, h.current, h.drained, fun k hk => ?_⟩
    rcases List.mem_append.mp hk with hk | hk
    · exact h.waiting k hk
    · obtain ⟨pc, hpc, -⟩ := h.current i htask
      rw [List.mem_singleton.mp hk]
      exact (List.getElem?_eq_some_iff.mp hpc).1

theorem TmSlot.Inv.stopWait (h : s.Inv) (k : ℕ) (timeout : Bool) :
    (tmStopWait s k timeout).2.Inv := by
  unfold tmStopWait
  split_ifs
  · exact h
  · exact ⟨h.stopped, h.current, h.drained, fun i hi => h.waiting i (List.mem_of_mem_eraseIdx hi)⟩
  · refine ⟨h.stopped, h.current, fun hno => ⟨rfl, (h.drained hno).2⟩, fun i hi => ?_⟩
    exact h.waiting i (List.mem_of_mem_eraseIdx hi)
  · exact h

/-- A step of an instance that has not stopped: it is the present one. -/
theorem TmSlot.Inv.hTask_eq (h : s.Inv) {i : ℕ} {pc : WrapperPc} (hi : s.instances[i]? = some pc)
    (hpc : ¬ pc.IsStopped) : s.hTask = some i := by
  by_contra hne
  exact hpc (h.stopped i pc hi hne)

/-- The present instance moves on without stopping. -/
theorem TmSlot.Inv.advance (h : s.Inv) {i : ℕ} {pc pc' : WrapperPc}
    (hi : s.instances[i]? = some pc) (hpc : ¬ pc.IsStopped) (hpc' : ¬ pc'.IsStopped)
    (state : TmState) :
    ({ s with instances := s.instances.set i pc', eState := state } : TmSlot).Inv := by
  have htask := h.hTask_eq hi hpc
  have hlt := (List.getElem?_eq_some_iff.mp hi).1
  refine ⟨fun j q hj hne => ?_, fun j hj => ?_, fun hno => ⟨(h.drained hno).1, fun q hq => ?_⟩,
    fun j hj => ?_⟩
  · have hij : i ≠ j := by
      rintro rfl
      exact hne htask
    rw [List.getElem?_set_ne hij] at hj
    exact h.stopped j q hj hne
  · obtain rfl : i = j := Option.some.inj (htask.symm.trans hj)
    exact ⟨pc', by simp [hlt], hpc'⟩
  · rcases List.mem_or_eq_of_mem_set hq with hq | rfl
    · exact (h.drained hno).2 q hq
    · rintro rfl
      exact hpc' (.inl rfl)
  · rw [List.length_set]
    exact h.waiting j hj

theorem TmSlot.Inv.wrapper (h : s.Inv) (i : ℕ) : (tmTaskWrapper s i).Inv := by
  unfold tmTaskWrapper
  dsimp only
  split
  · next hi => exact h.advance hi (by decide) (by decide) .running
  · next hi =>
    split
    · exact h.advance hi (by decide) (by decide) s.eState
    · exact h
  · next hi => exact h.advance hi (by decide) (by decide) s.eState
  · next hi =>
    have htask := h.hTask_eq hi (by decide)
    refine ⟨fun j pc hj _ => ?_, fun j hj => (by cases hj), fun hno => absurd rfl hno,
      fun j hj => ?_⟩
    · by_cases hij : i = j
      · subst hij
        have hlt := (List.getElem?_eq_some_iff.mp hi).1
        rw [List.getElem?_set_self hlt] at hj
        exact .inl (Option.some.inj hj).symm
      · rw [List.getElem?_set_ne hij] at hj
        exact h.stopped j pc hj fun hno => hij (Option.some.inj (htask.symm.trans hno))
    · exact (List.length_set ..).symm ▸ h.waiting j hj
  · next hi =>
    -- An instance between its section and its give: there is no present one.
    have htask : s.hTask = none := by
      by_contra hno
      exact (h.drained hno).2 .marked (List.mem_of_getElem? hi) rfl
    refine ⟨fun j pc hj _ => ?_, fun j hj => ?_, fun hno => absurd htask hno, fun j hj => ?_⟩
    · by_cases hij : i = j
      · subst hij
        have hlt := (List.getElem?_eq_some_iff.mp hi).1
        rw [List.getElem?_set_self hlt] at hj
        exact .inr (Option.some.inj hj).symm
      · rw [List.getElem?_set_ne hij] at hj
        exact h.stopped j pc hj (by simp [htask])
    · exact absurd (htask.symm.trans hj) (by simp)
    · exact (List.length_set ..).symm ▸ h.waiting j hj
  · exact h
  · exact h

theorem TmSlot.Inv.step (s : TmSlot) (op : TmOp) (hG : StartGuard s op) (h : s.Inv) :
    (tmStep s op).Inv := by
  cases op with
  | start created => exact h.start created hG
  | stop => exact h.stop
  | stopWait k timeout => exact h.stopWait k timeout
  | wrapper i => exact h.wrapper i

/-- A successful wait: the instance that the call has found has stopped. -/
theorem TmSlot.Inv.stopWait_ok (h : s.Inv) {k : ℕ} {timeout : Bool}
    (hok : (tmStopWait s k timeout).1 = some .ok) :
    ∃ i pc, s.waiting[k]? = some i ∧ s.instances[i]? = some pc ∧ pc.IsStopped := by
  unfold tmStopWait at hok
  split_ifs at hok with hk htimeout hfinished
  · cases hok
  · obtain ⟨i, hi⟩ := Option.ne_none_iff_exists'.mp hk
    have htask : s.hTask = none := by
      by_contra hno
      exact absurd ((h.drained hno).1.symm.trans hfinished) (by decide)
    have hlt := h.waiting i (List.mem_of_getElem? hi)
    exact ⟨i, s.instances[i], hi, List.getElem?_eq_getElem hlt,
      h.stopped i _ (List.getElem?_eq_getElem hlt) (by simp [htask])⟩

/-- **`tm_stop` waits for the right instance**, in every run that starts no task while an earlier
    instance has still to give the semaphore. -/
theorem stopsWait_of_guarded (ops : List TmOp)
    (hG : Machine.Guarded tmStep StartGuard registeredSlot ops) : StopsWait ops := by
  intro j k timeout _ hok
  have hprefix : Machine.Guarded tmStep StartGuard registeredSlot (ops.take j) :=
    ((Machine.guarded_append tmStep StartGuard registeredSlot (ops.take j) (ops.drop j)).mp
      ((List.take_append_drop j ops).symm ▸ hG)).1
  have hinv : (tmRun (ops.take j)).Inv :=
    hprefix.invariant tmStep TmSlot.Inv.step registeredSlot_inv
  exact hinv.stopWait_ok hok

/-- Instance `i` of a task is started and stopped, and the call of `tm_stop` returns. -/
def startAndStop (i : ℕ) : List TmOp :=
  [.start true, .wrapper i, .stop, .wrapper i, .wrapper i, .wrapper i, .wrapper i,
    .stopWait 0 false]

/-- Both calls of `tm_stop` have waited for their own instance. -/
theorem startAndStop_stopsWait :
    (tmStopWait (tmRun ((startAndStop 0 ++ startAndStop 1).take 15)) 0 false).1 = some .ok ∧
      StopsWait (startAndStop 0 ++ startAndStop 1) :=
  ⟨by decide, stopsWait_of_guarded (startAndStop 0 ++ startAndStop 1) (by decide)⟩

/-- A call of `tm_stop` times out. The slot is started again between the last section of the first
    instance and its give, which the call that stops the second instance then takes. -/
def startInGap : List TmOp :=
  [.start true, .wrapper 0, .stop, .wrapper 0, .wrapper 0, .stopWait 0 true, .wrapper 0,
    .start true, .wrapper 0, .wrapper 1, .stop, .stopWait 0 false]

theorem startInGap_stops_early : ¬ StopsWait startInGap := by
  intro h
  obtain ⟨i, pc, hi, hpc, hstopped⟩ := h 11 0 false rfl (by decide)
  obtain rfl : 1 = i := Option.some.inj ((by decide : _ = some 1).symm.trans hi)
  obtain rfl : .running = pc :=
    Option.some.inj ((by decide : _ = some WrapperPc.running).symm.trans hpc)
  exact absurd hstopped (by decide)

end Fountainer.Tasks
