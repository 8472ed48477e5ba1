import Fountainer.Lib.Runs
import Mathlib.Logic.Function.Basic
import Mathlib.Data.List.Chain

/-!
# The power modes

`power_mgmt.c` after `power_mgmt_init`: any number of tasks note activity while the monitor task
looks whether the device is idle. `s_bLow` is read without the mutex first and again behind it, and
a change of the mode takes several steps. Times are in microseconds.
-/

namespace Fountainer.Power

/-- `POWER_IDLE_TO_LOW_S`, in microseconds. -/
def powerIdleToLowUs : ℕ := 300 * 1000000

/-- Where a task is in `power_mgmt_activity_note`, `power_mgmt_tick` or, with the new mode,
    `mode_apply`. -/
inductive PmPc where
  | out
  | note
  | noteTake
  | noteHeld
  | tick (pumpIdle session : Bool)
  | tickHigh (pumpIdle session : Bool)
  | tickTake
  | tickHeld
  | applyClock (low : Bool)
  | applyRadio (low : Bool)
  | applyProto (low : Bool)
  | applyMode (low : Bool)
  | give
  deriving DecidableEq, Repr

/-- The statics of `power_mgmt.c`, how often `s_hCpuMax` is held, what the radio and the protocol
    have been told, `System_Power_Mode` and the payloads of `EVT_POWER_MODE_CHANGED`. For the
    statements, `noted` is whether a task's last call was `power_mgmt_activity_note`, also from
    within `power_mgmt_tick`, and `sawHigh` whether the mode was HIGH at some moment since that
    call. -/
structure PowerMgmt (ι : Type*) where
  low : Bool
  lastActivityUs : ℕ
  lock : Option ι
  cpuMax : ℤ
  radioLow : Bool
  protoSlow : Bool
  powerMode : UInt8
  published : List Bool
  now : ℕ
  pc : ι → PmPc
  noted : ι → Bool
  sawHigh : ι → Bool

/-- Time passes, a task calls one of the two functions, or it goes on. -/
inductive PmOp (ι : Type*) where
  | pass (us : ℕ)
  | activityNote (i : ι)
  | tick (i : ι) (pumpIdle session : Bool)
  | run (i : ι)

variable {ι : Type*} [DecidableEq ι]

namespace PowerMgmt

variable (s : PowerMgmt ι)

def goto (i : ι) (pc : PmPc) : PowerMgmt ι := { s with pc := Function.update s.pc i pc }

/-- `xSemaphoreTake(s_hLock, portMAX_DELAY)`: the task waits while another one has the mutex. -/
def take (i : ι) (pc : PmPc) : PowerMgmt ι :=
  if s.lock = none then { s.goto i pc with lock := some i } else s

/-- A call of `power_mgmt_activity_note`, up to its first look at the mode. -/
def callNote (i : ι) : PowerMgmt ι :=
  { s.goto i .note with
    lastActivityUs := s.now
    noted := Function.update s.noted i true
    sawHigh := Function.update s.sawHigh i (!s.low) }

/-- The next step of a task. -/
def advance (i : ι) : PowerMgmt ι :=
  match s.pc i with
  | .out => s
  | .note => s.goto i (if s.low then .noteTake else .out)
  | .noteTake => s.take i .noteHeld
  | .noteHeld => s.goto i (if s.low then .applyClock false else .give)
  | .tick pumpIdle session =>
    if s.low then
      -- `power_mgmt_activity_note` from within the tick.
      if !pumpIdle || !session then s.callNote i else s.goto i .out
    else s.goto i (.tickHigh pumpIdle session)
  | .tickHigh pumpIdle session =>
    s.goto i (if pumpIdle && session && decide (powerIdleToLowUs ≤ s.now - s.lastActivityUs)
      then .tickTake else .out)
  | .tickTake => s.take i .tickHeld
  | .tickHeld => s.goto i (if s.low then .give else .applyClock true)
  | .applyClock low =>
    { s.goto i (.applyRadio low) with cpuMax := if low then s.cpuMax - 1 else s.cpuMax + 1 }
  | .applyRadio low => { s.goto i (.applyProto low) with radioLow := low }
  | .applyProto low => { s.goto i (.applyMode low) with protoSlow := low }
  | .applyMode low =>
    { s.goto i .give with
      low := low
      powerMode := if low then 1 else 0
      published := s.published ++ [low] }
  | .give => { s.goto i .out with lock := none }

/-- The moment after a step, for `sawHigh`. -/
def look : PowerMgmt ι := { s with sawHigh := fun i => s.sawHigh i || !s.low }

end PowerMgmt

/-- One step. -/
def pmStep (s : PowerMgmt ι) : PmOp ι → PowerMgmt ι
  | .pass us => { s with now := s.now + us }
  | .activityNote i => if s.pc i = .out then s.callNote i else s
  | .tick i pumpIdle session =>
    if s.pc i = .out then
      { s.goto i (.tick pumpIdle session) with noted := Function.update s.noted i false }
    else s
  | .run i => (s.advance i).look

/-- `power_mgmt_init` has run. -/
def pmBoot (ι : Type*) : PowerMgmt ι where
  low := false
  lastActivityUs := 0
  lock := none
  cpuMax := 1
  radioLow := false
  protoSlow := false
  powerMode := 0
  published := []
  now := 0
  pc := fun _ => .out
  noted := fun _ => false
  sawHigh := fun _ => false

def pmRun (ops : List (PmOp ι)) : PowerMgmt ι := Machine.run pmStep (pmBoot ι) ops

-- ════════════════════════════════════════════════════════════════════════
-- What the mutex protects
-- ════════════════════════════════════════════════════════════════════════

namespace PmPc

/-- The task has the mutex. -/
def inside : PmPc → Bool
  | .noteHeld | .tickHeld | .applyClock _ | .applyRadio _ | .applyProto _ | .applyMode _
    | .give => true
  | _ => false

/-- The mode that the task is about to set. -/
def applying? : PmPc → Option Bool
  | .applyClock low | .applyRadio low | .applyProto low | .applyMode low => some low
  | _ => none

/-- The mode that the clock has while the task is here, when the mode itself is `low`. -/
def clockLow (low : Bool) : PmPc → Bool
  | .applyRadio low' | .applyProto low' | .applyMode low' => low'
  | _ => low

/-- The mode that the radio has been told. -/
def radioLow (low : Bool) : PmPc → Bool
  | .applyProto low' | .applyMode low' => low'
  | _ => low

/-- The mode that the protocol has been told. -/
def protoLow (low : Bool) : PmPc → Bool
  | .applyMode low' => low'
  | _ => low

end PmPc

/-- Where the task that has the mutex is. -/
def PowerMgmt.holder (s : PowerMgmt ι) : PmPc :=
  match s.lock with
  | some i => s.pc i
  | none => .out

/-- The invariant. -/
structure PmInv (s : PowerMgmt ι) : Prop where
  lock : ∀ i, (s.pc i).inside = true ↔ s.lock = some i
  changes : ∀ low ∈ s.holder.applying?, s.low = !low
  cpuMax : s.cpuMax = if s.holder.clockLow s.low then 0 else 1
  radioLow : s.radioLow = s.holder.radioLow s.low
  protoSlow : s.protoSlow = s.holder.protoLow s.low
  powerMode : s.powerMode = if s.low then 1 else 0
  alternate : s.published.IsChain (· ≠ ·)
  first : ∀ low ∈ s.published.head?, low = true
  last : s.published.getLast?.getD false = s.low

variable {s : PowerMgmt ι} {i : ι} {pc : PmPc}

omit [DecidableEq ι] in
theorem holder_eq (hlock : s.lock = some i) : s.holder = s.pc i := by
  rw [PowerMgmt.holder, hlock]

theorem holder_goto_of_ne (hlock : s.lock ≠ some i) : (s.goto i pc).holder = s.holder := by
  unfold PowerMgmt.holder PowerMgmt.goto
  cases hholder : s.lock with
  | none => rfl
  | some j =>
    have hne : j ≠ i := fun hj => hlock (hj ▸ hholder)
    exact Function.update_of_ne hne ..

/-- The task goes on with the mutex, or without it. -/
theorem PmInv.lock_goto (h : PmInv s) (hsame : pc.inside = (s.pc i).inside) (j : ι) :
    ((s.goto i pc).pc j).inside = true ↔ s.lock = some j := by
  by_cases hj : j = i
  · rw [hj, show (s.goto i pc).pc i = pc from Function.update_self .., hsame]
    exact h.lock i
  · rw [show (s.goto i pc).pc j = s.pc j from Function.update_of_ne hj ..]
    exact h.lock j

/-- A task without the mutex goes on without it. -/
theorem PmInv.outside (h : PmInv s) (hin : (s.pc i).inside = false) (hout : pc.inside = false) :
    PmInv (s.goto i pc) := by
  have hholder : (s.goto i pc).holder = s.holder :=
    holder_goto_of_ne fun hlock => by
      rw [(h.lock i).mpr hlock] at hin
      cases hin
  refine ⟨h.lock_goto (hout.trans hin.symm), ?_, ?_, ?_, ?_, h.powerMode, h.alternate, h.first,
    h.last⟩
  · rw [hholder]
    exact h.changes
  · rw [hholder]
    exact h.cpuMax
  · rw [hholder]
    exact h.radioLow
  · rw [hholder]
    exact h.protoSlow

/-- A task that gets the mutex has nothing changed yet. -/
theorem PmInv.take (h : PmInv s) (hin : (s.pc i).inside = false) (hpc : pc.inside = true)
    (hplain : pc = .noteHeld ∨ pc = .tickHeld) : PmInv (s.take i pc) := by
  unfold PowerMgmt.take
  by_cases hlock : s.lock = none
  · rw [if_pos hlock]
    have hfree : s.holder = .out := by rw [PowerMgmt.holder, hlock]
    have hholder : ({ s.goto i pc with lock := some i } : PowerMgmt ι).holder = pc :=
      Function.update_self ..
    have hcpu := h.cpuMax
    have hradio := h.radioLow
    have hproto := h.protoSlow
    rw [hfree] at hcpu hradio hproto
    refine ⟨fun j => ?_, ?_, ?_, ?_, ?_, h.powerMode, h.alternate, h.first, h.last⟩
    · by_cases hj : j = i
      · subst hj
        simp [PowerMgmt.goto, hpc]
      · have hother := h.lock j
        rw [hlock] at hother
        show (Function.update s.pc i pc j).inside = true ↔ some i = some j
        rw [Function.update_of_ne hj, hother]
        exact ⟨nofun, fun hij => absurd (Option.some.inj hij).symm hj⟩
    · rw [hholder]
      rcases hplain with rfl | rfl <;> exact fun _ => nofun
    · rw [hholder]
      rcases hplain with rfl | rfl <;> exact hcpu
    · rw [hholder]
      rcases hplain with rfl | rfl <;> exact hradio
    · rw [hholder]
      rcases hplain with rfl | rfl <;> exact hproto
  · rw [if_neg hlock]
    exact h

/-- The task that has the mutex goes on with it. -/
theorem PmInv.inner (h : PmInv s) (hlock : s.lock = some i) {s' : PowerMgmt ι}
    (hpcs : s'.pc = Function.update s.pc i pc) (hlock' : s'.lock = some i) (hin : pc.inside = true)
    (changes : ∀ low ∈ pc.applying?, s'.low = !low)
    (cpuMax : s'.cpuMax = if pc.clockLow s'.low then 0 else 1)
    (radioLow : s'.radioLow = pc.radioLow s'.low) (protoSlow : s'.protoSlow = pc.protoLow s'.low)
    (powerMode : s'.powerMode = if s'.low then 1 else 0)
    (events : s'.published = s.published ∧ s'.low = s.low ∨
      s'.published = s.published ++ [s'.low] ∧ s.low = !s'.low) : PmInv s' := by
  have hholder : s'.holder = pc := by
    rw [holder_eq hlock', hpcs, Function.update_self]
  refine ⟨fun j => ?_, hholder ▸ changes, hholder ▸ cpuMax, hholder ▸ radioLow, hholder ▸ protoSlow,
    powerMode, ?_, ?_, ?_⟩
  · have hwas : (s.pc i).inside = true := (h.lock i).mpr hlock
    rw [hpcs, hlock', ← hlock]
    exact h.lock_goto (hin.trans hwas.symm) j
  · rcases events with ⟨hsame, -⟩ | ⟨hnew, hlow⟩
    · rw [hsame]
      exact h.alternate
    · rw [hnew]
      refine List.isChain_append.mpr ⟨h.alternate, List.isChain_singleton _, ?_⟩
      intro before hbefore after hafter
      obtain rfl : s'.low = after := by simpa using hafter
      have hlast := h.last
      rw [Option.mem_def.mp hbefore, Option.getD_some] at hlast
      rw [hlast, hlow]
      cases s'.low <;> exact nofun
  · rcases events with ⟨hsame, -⟩ | ⟨hnew, hlow⟩
    · rw [hsame]
      exact h.first
    · rw [hnew]
      cases hpub : s.published with
      | nil =>
        have hlast := h.last
        rw [hpub] at hlast
        intro first hfirst
        obtain rfl : s'.low = first := by simpa using hfirst
        cases hs' : s'.low with
        | true => rfl
        | false =>
          rw [hlow, hs'] at hlast
          cases hlast
      | cons first rest =>
        have hfirst := h.first
        rw [hpub] at hfirst
        exact hfirst
  · rcases events with ⟨hsame, hlow⟩ | ⟨hnew, -⟩
    · rw [hsame, hlow]
      exact h.last
    · rw [hnew, List.getLast?_concat, Option.getD_some]

/-- The task that has the mutex gives it back. -/
theorem PmInv.give (h : PmInv s) (hpc : s.pc i = .give) :
    PmInv { s.goto i .out with lock := none } := by
  have hlock : s.lock = some i := (h.lock i).mp (by rw [hpc]; rfl)
  have hholder : s.holder = .give := (holder_eq hlock).trans hpc
  have hcpu := h.cpuMax
  have hradio := h.radioLow
  have hproto := h.protoSlow
  rw [hholder] at hcpu hradio hproto
  refine ⟨fun j => ?_, fun _ => nofun, hcpu, hradio, hproto, h.powerMode, h.alternate, h.first,
    h.last⟩
  show (Function.update s.pc i .out j).inside = true ↔ none = some j
  by_cases hj : j = i
  · rw [hj, Function.update_self]
    exact ⟨nofun, nofun⟩
  · have hother := h.lock j
    rw [hlock] at hother
    rw [Function.update_of_ne hj, hother]
    exact ⟨fun hij => absurd (Option.some.inj hij).symm hj, nofun⟩

theorem PmInv.advance (h : PmInv s) (i : ι) : PmInv (s.advance i) := by
  have hheld (hin : (s.pc i).inside = true) : s.lock = some i ∧ s.holder = s.pc i :=
    ⟨(h.lock i).mp hin, holder_eq ((h.lock i).mp hin)⟩
  have hcpu := h.cpuMax
  have hradio := h.radioLow
  have hproto := h.protoSlow
  have hchanges := h.changes
  unfold PowerMgmt.advance
  cases hpc : s.pc i with
  | out => exact h
  | note => exact h.outside (by rw [hpc]; rfl) (by cases s.low <;> rfl)
  | noteTake => exact h.take (by rw [hpc]; rfl) rfl (.inl rfl)
  | tick pumpIdle session =>
    have hin : (s.pc i).inside = false := by rw [hpc]; rfl
    dsimp only
    split_ifs
    · have hnote : PmInv (s.goto i .note) := h.outside hin rfl
      exact ⟨hnote.lock, hnote.changes, hnote.cpuMax, hnote.radioLow, hnote.protoSlow,
        hnote.powerMode, hnote.alternate, hnote.first, hnote.last⟩
    · exact h.outside hin rfl
    · exact h.outside hin rfl
  | tickHigh pumpIdle session =>
    refine h.outside (by rw [hpc]; rfl) ?_
    split_ifs <;> rfl
  | tickTake => exact h.take (by rw [hpc]; rfl) rfl (.inr rfl)
  | noteHeld =>
    obtain ⟨hlock, hholder⟩ := hheld (by rw [hpc]; rfl)
    rw [hholder, hpc] at hcpu hradio hproto
    by_cases hlow : s.low = true
    · simp only [if_pos hlow]
      refine h.inner hlock rfl hlock rfl ?_ hcpu hradio hproto h.powerMode (.inl ⟨rfl, rfl⟩)
      rintro low ⟨⟩
      exact hlow
    · simp only [if_neg hlow]
      exact h.inner hlock rfl hlock rfl (fun _ => nofun) hcpu hradio hproto h.powerMode
        (.inl ⟨rfl, rfl⟩)
  | tickHeld =>
    obtain ⟨hlock, hholder⟩ := hheld (by rw [hpc]; rfl)
    rw [hholder, hpc] at hcpu hradio hproto
    by_cases hlow : s.low = true
    · simp only [if_pos hlow]
      exact h.inner hlock rfl hlock rfl (fun _ => nofun) hcpu hradio hproto h.powerMode
        (.inl ⟨rfl, rfl⟩)
    · simp only [if_neg hlow]
      refine h.inner hlock rfl hlock rfl ?_ hcpu hradio hproto h.powerMode (.inl ⟨rfl, rfl⟩)
      rintro low ⟨⟩
      exact Bool.not_eq_true _ ▸ hlow
  | applyClock low =>
    obtain ⟨hlock, hholder⟩ := hheld (by rw [hpc]; rfl)
    rw [hholder, hpc] at hcpu hradio hproto hchanges
    have hlow : s.low = !low := hchanges low rfl
    refine h.inner hlock rfl hlock rfl ?_ ?_ hradio hproto h.powerMode (.inl ⟨rfl, rfl⟩)
    · rintro low' ⟨⟩
      exact hlow
    · show (if low = true then s.cpuMax - 1 else s.cpuMax + 1) = if low = true then 0 else 1
      have hbefore : s.cpuMax = if s.low = true then 0 else 1 := hcpu
      rw [hbefore, hlow]
      cases low <;> rfl
  | applyRadio low =>
    obtain ⟨hlock, hholder⟩ := hheld (by rw [hpc]; rfl)
    rw [hholder, hpc] at hcpu hradio hproto hchanges
    exact h.inner hlock rfl hlock rfl hchanges hcpu rfl hproto h.powerMode (.inl ⟨rfl, rfl⟩)
  | applyProto low =>
    obtain ⟨hlock, hholder⟩ := hheld (by rw [hpc]; rfl)
    rw [hholder, hpc] at hcpu hradio hproto hchanges
    exact h.inner hlock rfl hlock rfl hchanges hcpu hradio rfl h.powerMode (.inl ⟨rfl, rfl⟩)
  | applyMode low =>
    obtain ⟨hlock, hholder⟩ := hheld (by rw [hpc]; rfl)
    rw [hholder, hpc] at hcpu hradio hproto hchanges
    exact h.inner hlock rfl hlock rfl (fun _ => nofun) hcpu hradio hproto rfl
      (.inr ⟨rfl, hchanges low rfl⟩)
  | give => exact h.give hpc

theorem PmInv.step (h : PmInv s) (op : PmOp ι) : PmInv (pmStep s op) := by
  cases op with
  | pass us =>
    exact ⟨h.lock, h.changes, h.cpuMax, h.radioLow, h.protoSlow, h.powerMode, h.alternate, h.first,
      h.last⟩
  | activityNote i =>
    rw [pmStep]
    by_cases hpc : s.pc i = .out
    · have hnote : PmInv (s.goto i .note) := h.outside (by rw [hpc]; rfl) rfl
      rw [if_pos hpc]
      exact ⟨hnote.lock, hnote.changes, hnote.cpuMax, hnote.radioLow, hnote.protoSlow,
        hnote.powerMode, hnote.alternate, hnote.first, hnote.last⟩
    · rw [if_neg hpc]
      exact h
  | tick i pumpIdle session =>
    rw [pmStep]
    by_cases hpc : s.pc i = .out
    · have htick : PmInv (s.goto i (.tick pumpIdle session)) :=
        h.outside (by rw [hpc]; rfl) rfl
      rw [if_pos hpc]
      exact ⟨htick.lock, htick.changes, htick.cpuMax, htick.radioLow, htick.protoSlow,
        htick.powerMode, htick.alternate, htick.first, htick.last⟩
    · rw [if_neg hpc]
      exact h
  | run i =>
    have hrun := h.advance i
    exact ⟨hrun.lock, hrun.changes, hrun.cpuMax, hrun.radioLow, hrun.protoSlow, hrun.powerMode,
      hrun.alternate, hrun.first, hrun.last⟩

theorem pmRun_inv (ops : List (PmOp ι)) : PmInv (pmRun ops) :=
  Machine.run_invariant pmStep (fun _ op h => h.step op)
    ⟨fun _ => ⟨nofun, nofun⟩, fun _ => nofun, rfl, rfl, rfl, rfl, .nil, fun _ => nofun, rfl⟩ ops

-- ════════════════════════════════════════════════════════════════════════
-- What a note of activity does
-- ════════════════════════════════════════════════════════════════════════

/-- What a call of `power_mgmt_activity_note` that is here owes its caller; `saw` is whether the
    mode was HIGH at some moment since it began. -/
def PmPc.Owes (saw : Bool) : PmPc → Prop
  | .note | .noteTake | .noteHeld => True
  | .applyClock low | .applyRadio low | .applyProto low | .applyMode low => low = false
  | .give | .out => saw = true
  | _ => False

/-- Every call that its task has made last is on its way, or has seen the mode HIGH. -/
def Owing (s : PowerMgmt ι) : Prop := ∀ i, s.noted i = true → (s.pc i).Owes (s.sawHigh i)

omit [DecidableEq ι] in
theorem PmPc.Owes.mono {saw saw' : Bool} (h : pc.Owes saw) (hle : saw = true → saw' = true) :
    pc.Owes saw' := by
  cases pc <;> first | exact h | exact hle h

/-- A call of `power_mgmt_activity_note` leaves the other tasks where they are. -/
theorem callNote_frame (s : PowerMgmt ι) (i : ι) : ∀ j, j ≠ i →
    (s.callNote i).noted j = s.noted j ∧ (s.callNote i).sawHigh j = s.sawHigh j ∧
      (s.callNote i).pc j = s.pc j :=
  fun _ hj =>
    ⟨Function.update_of_ne hj .., Function.update_of_ne hj .., Function.update_of_ne hj ..⟩

/-- A step of one task leaves the others where they are. -/
theorem advance_frame (s : PowerMgmt ι) (i : ι) : ∀ j, j ≠ i →
    (s.advance i).noted j = s.noted j ∧ (s.advance i).sawHigh j = s.sawHigh j ∧
      (s.advance i).pc j = s.pc j := by
  intro j hj
  have hgoto (pc : PmPc) : (s.goto i pc).pc j = s.pc j := Function.update_of_ne hj ..
  have htake (pc : PmPc) : (s.take i pc).noted j = s.noted j ∧
      (s.take i pc).sawHigh j = s.sawHigh j ∧ (s.take i pc).pc j = s.pc j := by
    unfold PowerMgmt.take
    split_ifs
    · exact ⟨rfl, rfl, hgoto pc⟩
    · exact ⟨rfl, rfl, rfl⟩
  unfold PowerMgmt.advance
  cases s.pc i with
  | out => exact ⟨rfl, rfl, rfl⟩
  | noteTake | tickTake => exact htake _
  | tick pumpIdle session =>
    dsimp only
    split_ifs
    · exact callNote_frame s i j hj
    · exact ⟨rfl, rfl, hgoto _⟩
    · exact ⟨rfl, rfl, hgoto _⟩
  | _ => exact ⟨rfl, rfl, hgoto _⟩

/-- What a task notes and has seen changes with a call only, here with that of `power_mgmt_tick`. -/
theorem advance_noted (s : PowerMgmt ι) (i : ι) :
    s.advance i = s.callNote i ∨
      (s.advance i).noted i = s.noted i ∧ (s.advance i).sawHigh i = s.sawHigh i := by
  have htake (pc : PmPc) : (s.take i pc).noted i = s.noted i ∧
      (s.take i pc).sawHigh i = s.sawHigh i := by
    unfold PowerMgmt.take
    split_ifs <;> exact ⟨rfl, rfl⟩
  unfold PowerMgmt.advance
  cases s.pc i with
  | noteTake | tickTake => exact .inr (htake _)
  | tick pumpIdle session =>
    dsimp only
    split_ifs
    · exact .inl rfl
    · exact .inr ⟨rfl, rfl⟩
    · exact .inr ⟨rfl, rfl⟩
  | _ => exact .inr ⟨rfl, rfl⟩

theorem goto_pc_self : (s.goto i pc).pc i = pc := Function.update_self ..

/-- The task that notes activity goes on with what it owes. -/
theorem Owing.advance_self (h : Owing s) (hn : s.noted i = true) :
    ((s.advance i).pc i).Owes (s.sawHigh i || !(s.advance i).low) := by
  have howes := h i hn
  unfold PowerMgmt.advance
  cases hpc : s.pc i with
  | out =>
    rw [hpc] at howes
    show (s.pc i).Owes _
    rw [hpc]
    exact Bool.or_eq_true_iff.mpr (.inl howes)
  | note =>
    show ((s.goto i _).pc i).Owes _
    rw [goto_pc_self]
    cases hlow : s.low with
    | true => trivial
    | false => exact Bool.or_eq_true_iff.mpr (.inr (by show (!s.low) = true; rw [hlow]; rfl))
  | noteTake =>
    unfold PowerMgmt.take
    dsimp only
    by_cases hfree : s.lock = none
    · rw [if_pos hfree]
      show ((s.goto i .noteHeld).pc i).Owes _
      rw [goto_pc_self]
      trivial
    · rw [if_neg hfree, hpc]
      trivial
  | noteHeld =>
    show ((s.goto i _).pc i).Owes _
    rw [goto_pc_self]
    cases hlow : s.low with
    | true => exact rfl
    | false => exact Bool.or_eq_true_iff.mpr (.inr (by show (!s.low) = true; rw [hlow]; rfl))
  | applyClock low | applyRadio low | applyProto low =>
    rw [hpc] at howes
    show ((s.goto i _).pc i).Owes _
    rw [goto_pc_self]
    exact howes
  | applyMode low =>
    rw [hpc] at howes
    obtain rfl : low = false := howes
    show ((s.goto i _).pc i).Owes _
    rw [goto_pc_self]
    exact Bool.or_eq_true_iff.mpr (.inr rfl)
  | give =>
    rw [hpc] at howes
    show ((s.goto i _).pc i).Owes _
    rw [goto_pc_self]
    exact Bool.or_eq_true_iff.mpr (.inl howes)
  | tick | tickHigh | tickTake | tickHeld =>
    rw [hpc] at howes
    exact howes.elim

/-- A task that has just called owes all of it. -/
theorem callNote_owes (s : PowerMgmt ι) (i : ι) (saw : Bool) : ((s.callNote i).pc i).Owes saw := by
  show ((s.goto i .note).pc i).Owes saw
  rw [goto_pc_self]
  trivial

theorem Owing.step (h : Owing s) (op : PmOp ι) : Owing (pmStep s op) := by
  intro j hn
  cases op with
  | pass us => exact h j hn
  | activityNote i =>
    rw [pmStep] at hn ⊢
    by_cases hpc : s.pc i = .out
    · rw [if_pos hpc] at hn ⊢
      by_cases hj : j = i
      · subst hj
        exact callNote_owes s j _
      · obtain ⟨hnoted, hsaw, hpcs⟩ := callNote_frame s i j hj
        rw [hsaw, hpcs]
        exact h j (hnoted ▸ hn)
    · rw [if_neg hpc] at hn ⊢
      exact h j hn
  | tick i pumpIdle session =>
    rw [pmStep] at hn ⊢
    by_cases hpc : s.pc i = .out
    · rw [if_pos hpc] at hn ⊢
      by_cases hj : j = i
      · subst hj
        simp only [Function.update_self] at hn
        cases hn
      · simp only [PowerMgmt.goto, Function.update_of_ne hj] at hn ⊢
        exact h j hn
    · rw [if_neg hpc] at hn ⊢
      exact h j hn
  | run i =>
    change (s.advance i).noted j = true at hn
    show ((s.advance i).pc j).Owes ((s.advance i).sawHigh j || !(s.advance i).low)
    by_cases hj : j = i
    · subst hj
      rcases advance_noted s j with hcall | ⟨hnoted, hsaw⟩
      · rw [hcall]
        exact callNote_owes s j _
      · rw [hsaw]
        exact h.advance_self (hnoted ▸ hn)
    · obtain ⟨hnoted, hsaw, hpcs⟩ := advance_frame s i j hj
      rw [hsaw, hpcs]
      exact (h j (hnoted ▸ hn)).mono fun hs => Bool.or_eq_true_iff.mpr (.inl hs)

-- ════════════════════════════════════════════════════════════════════════
-- The modes
-- ════════════════════════════════════════════════════════════════════════

/-- **The modes are changed as a whole**: in every interleaving of any number of tasks one of them
    at most is inside, `s_hCpuMax` is held once or not at all, and the modes that are published
    alternate from LOW on; while nobody is inside, the clock, the radio, the protocol, the datapoint
    and the last of these agree with the mode. -/
theorem mode_changes_whole (ops : List (PmOp ι)) :
    let s := pmRun ops
    (∀ i j, (s.pc i).inside = true → (s.pc j).inside = true → i = j) ∧
    (s.cpuMax = 0 ∨ s.cpuMax = 1) ∧
    s.published.IsChain (· ≠ ·) ∧ (∀ first ∈ s.published.head?, first = true) ∧
    ((∀ i, (s.pc i).inside = false) →
      s.cpuMax = (if s.low then 0 else 1) ∧ s.radioLow = s.low ∧ s.protoSlow = s.low ∧
      s.powerMode = (if s.low then 1 else 0) ∧ s.published.getLast?.getD false = s.low) := by
  intro s
  have h : PmInv s := pmRun_inv ops
  refine ⟨fun i j hi hj => ?_, ?_, h.alternate, h.first, fun hnobody => ?_⟩
  · exact Option.some.inj (((h.lock i).mp hi).symm.trans ((h.lock j).mp hj))
  · rw [h.cpuMax]
    split_ifs
    · exact .inl rfl
    · exact .inr rfl
  · have hfree : s.holder = .out := by
      unfold PowerMgmt.holder
      cases hlock : s.lock with
      | none => rfl
      | some i =>
        have := (h.lock i).mpr hlock
        rw [hnobody i] at this
        cases this
    have hcpu := h.cpuMax
    have hradio := h.radioLow
    have hproto := h.protoSlow
    rw [hfree] at hcpu hradio hproto
    exact ⟨hcpu, hradio, hproto, h.powerMode, h.last⟩

/-- **Activity is not slept through**: a call of `power_mgmt_activity_note` that has returned, also
    one of `power_mgmt_tick`, has seen the mode HIGH, or set it, whatever the other tasks did
    meanwhile. -/
theorem note_finds_high (ops : List (PmOp ι)) (i : ι) :
    let s := pmRun ops
    s.noted i = true → s.pc i = .out → s.sawHigh i = true := by
  intro s hn hout
  have h : Owing s := Machine.run_invariant pmStep (fun _ op h => h.step op) (fun _ => nofun) ops
  have howes := h i hn
  rw [hout] at howes
  exact howes

/-- After five minutes the monitor task, here `true`, sets LOW; then another task notes activity. -/
theorem note_finds_high_from_low :
    let ops : List (PmOp Bool) := .pass 300000000 :: .tick true true true ::
      List.replicate 9 (.run true) ++ .activityNote false :: List.replicate 8 (.run false)
    (pmRun (ops.take 11)).low = true ∧ (pmRun ops).sawHigh false = true :=
  ⟨by decide, note_finds_high _ false (by decide) (by decide)⟩

end Fountainer.Power
