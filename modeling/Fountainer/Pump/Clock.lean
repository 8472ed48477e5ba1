import Fountainer.Lib.OverwriteRing
import Fountainer.Pump.Safety

/-!
# Starts and stops along a run

The state keeps the time of the last start and of the last stop, and the ring of
the last start times. `startTimes` and `stopTimes` list the relay edges of a
whole run; `Control.Tracks` says how the stamps of the state follow them when
time does not run backwards.
-/

namespace Fountainer.Pump

variable {F : Type*}

/-- The times that the calls carry, in order. -/
def callTimes (calls : List (PmCall F)) : List UInt64 := calls.filterMap PmCall.time?

/-- Time does not run backwards. -/
def Timed (calls : List (PmCall F)) : Prop := (callTimes calls).Pairwise (· ≤ ·)

instance (calls : List (PmCall F)) : Decidable (Timed calls) :=
  inferInstanceAs (Decidable (List.Pairwise _ _))

theorem callTimes_concat (calls : List (PmCall F)) (c : PmCall F) :
    callTimes (calls ++ [c]) = callTimes calls ++ c.time?.toList := by
  unfold callTimes
  cases h : c.time? <;> simp [h]

theorem Timed.of_concat {calls : List (PmCall F)} {c : PmCall F} (h : Timed (calls ++ [c])) :
    Timed calls := by
  unfold Timed at h ⊢
  rw [callTimes_concat] at h
  exact (List.pairwise_append.mp h).1

/-- The last call is not earlier than any call before it. -/
theorem Timed.le_last {calls : List (PmCall F)} {c : PmCall F} {t : UInt64}
    (h : Timed (calls ++ [c])) (ht : c.time? = some t) : ∀ u ∈ callTimes calls, u ≤ t := by
  intro u hu
  unfold Timed at h
  rw [callTimes_concat] at h
  exact (List.pairwise_append.mp h).2.2 u hu t (by simp [ht])

/-- The last entry of a list of call times, or 0, is not later than the next call. -/
theorem Timed.getLast_le {calls : List (PmCall F)} {c : PmCall F} {t : UInt64}
    (h : Timed (calls ++ [c])) (ht : c.time? = some t) {edges : List UInt64}
    (hsub : edges.Sublist (callTimes calls)) : edges.getLast?.getD 0 ≤ t := by
  cases hl : edges.getLast? with
  | none => simp
  | some u => exact h.le_last ht u (hsub.subset (List.mem_of_getLast? hl))

/-- The time of a call that switches the relay to `on`. -/
def relayEdge (on : Bool) (s : Pm F) (c : PmCall F) (s' : Pm F) : Option UInt64 :=
  if s.relayOn ≠ on ∧ s'.relayOn = on then c.time? else none

/-- `edges`, followed by the time of the call `c` when it moves the relay from
    `old` to `new` and that is an edge to `on`. -/
def addEdge (on old new : Bool) (c : PmCall F) (edges : List UInt64) : List UInt64 :=
  edges ++ (if old ≠ on ∧ new = on then c.time? else none).toList

section AddEdge

variable (on relay : Bool) (c : PmCall F) (edges : List UInt64)

@[simp] theorem addEdge_same : addEdge on relay relay c edges = edges := by
  cases on <;> cases relay <;> simp [addEdge]

@[simp] theorem addEdge_start : addEdge true false true c edges = edges ++ c.time?.toList := rfl

@[simp] theorem addEdge_stop : addEdge false true false c edges = edges ++ c.time?.toList := rfl

/-- A stop is no start. -/
@[simp] theorem addEdge_not_start : addEdge true relay false c edges = edges := by
  simp [addEdge]

/-- A start is no stop. -/
@[simp] theorem addEdge_not_stop : addEdge false relay true c edges = edges := by
  simp [addEdge]

end AddEdge

/-- The stamps of the state follow the starts and stops of the run. -/
structure Control.Tracks (a : Control F) (starts stops : List UInt64) : Prop where
  ring : OverwriteRing.Keeps 0 a.startsMs a.startsIdx starts
  start_eq : a.pumpStartMs = starts.getLast?.getD 0
  stop_eq : a.pumpStopMs = stops.getLast?.getD 0
  on_started : a.relayOn = true → starts ≠ []
  off_order : a.relayOn = false → a.pumpStartMs ≤ a.pumpStopMs

/-- One call, not earlier than the last start, keeps the stamps on the edges. -/
theorem Effect.tracks {a b : Control F} {c : PmCall F} (he : Effect a c b)
    {starts stops : List UInt64} (h : a.Tracks starts stops)
    (hclock : ∀ t, c.time? = some t → a.pumpStartMs ≤ t) :
    b.Tracks (addEdge true a.relayOn b.relayOn c starts)
      (addEdge false a.relayOn b.relayOn c stops) := by
  cases he with
  | stay | ack | config =>
    rw [addEdge_same, addEdge_same]
    exact ⟨h.ring, h.start_eq, h.stop_eq, h.on_started, h.off_order⟩
  | start now md deadline bar htime hoff hrest hinit hcause hpause hquota =>
    simp only [hoff, addEdge_start, addEdge_not_stop, htime]
    exact ⟨h.ring.push now, by simp, h.stop_eq, by simp, by simp⟩
  | stop now htime hon hrun =>
    simp only [hon, addEdge_not_start, addEdge_stop, htime]
    exact ⟨h.ring, h.start_eq, by simp, by simp, fun _ => hclock now htime⟩
  | latch now f htime hstate hfault =>
    cases hrelay : a.relayOn with
    | true =>
      simp only [addEdge_not_start, addEdge_stop, htime]
      exact ⟨h.ring, h.start_eq, by simp, by simp, fun _ => by simpa using hclock now htime⟩
    | false =>
      -- The pump was off: the stop stamp is not older than the start and stays.
      have hle := h.off_order hrelay
      simp only [addEdge_same, Bool.false_eq_true, false_or, if_neg (UInt64.not_lt.mpr hle)]
      exact ⟨h.ring, h.start_eq, h.stop_eq, by simp, fun _ => hle⟩

variable [FloatArith F]

/-- The times at which the run switches the relay on. -/
def startTimes (cfg : PmConfig F) (calls : List (PmCall F)) : List UInt64 :=
  Machine.collect call (relayEdge true) (pmInit cfg) calls

/-- The times at which the run switches the relay off, for whatever reason. -/
def stopTimes (cfg : PmConfig F) (calls : List (PmCall F)) : List UInt64 :=
  Machine.collect call (relayEdge false) (pmInit cfg) calls

theorem startTimes_concat (cfg : PmConfig F) (calls : List (PmCall F)) (c : PmCall F) :
    startTimes cfg (calls ++ [c]) = addEdge true (pmRun cfg calls).relayOn
      (call (pmRun cfg calls) c).relayOn c (startTimes cfg calls) :=
  Machine.collect_concat _ _ _ _ _

theorem stopTimes_concat (cfg : PmConfig F) (calls : List (PmCall F)) (c : PmCall F) :
    stopTimes cfg (calls ++ [c]) = addEdge false (pmRun cfg calls).relayOn
      (call (pmRun cfg calls) c).relayOn c (stopTimes cfg calls) :=
  Machine.collect_concat _ _ _ _ _

/-- The noted edges are times of calls, in the order of the calls. -/
theorem collect_relayEdge_sublist (on : Bool) (s : Pm F) (calls : List (PmCall F)) :
    (Machine.collect call (relayEdge on) s calls).Sublist (callTimes calls) := by
  induction calls generalizing s with
  | nil => exact List.Sublist.refl _
  | cons c calls ih =>
    have htimes : callTimes (c :: calls) = c.time?.toList ++ callTimes calls := by
      unfold callTimes
      cases h : c.time? <;> simp [h]
    rw [htimes, Machine.collect]
    refine List.Sublist.append ?_ (ih _)
    unfold relayEdge
    split
    · exact List.Sublist.refl _
    · exact List.nil_sublist _

theorem startTimes_sublist (cfg : PmConfig F) (calls : List (PmCall F)) :
    (startTimes cfg calls).Sublist (callTimes calls) :=
  collect_relayEdge_sublist true _ calls

theorem stopTimes_sublist (cfg : PmConfig F) (calls : List (PmCall F)) :
    (stopTimes cfg calls).Sublist (callTimes calls) :=
  collect_relayEdge_sublist false _ calls

/-- **The stamps along a run.** When time does not run backwards, the stamps of
    every reached state are those of the run's last start and last stop, and the
    ring holds its last starts. -/
theorem pmRun_tracks (cfg : PmConfig F) (calls : List (PmCall F)) (h : Timed calls) :
    (pmRun cfg calls).control.Tracks (startTimes cfg calls) (stopTimes cfg calls) := by
  induction calls using List.reverseRecOn with
  | nil =>
    exact ⟨OverwriteRing.keeps_nil 0 0, rfl, rfl, by simp [pmRun, pmInit, Pm.control],
      fun _ => UInt64.le_refl _⟩
  | append_singleton calls c ih =>
    have hprev := ih h.of_concat
    rw [startTimes_concat, stopTimes_concat, pmRun_concat]
    refine (pmRun_effect cfg calls c).tracks hprev (fun t ht => ?_)
    rw [hprev.start_eq]
    exact h.getLast_le ht (startTimes_sublist cfg calls)

/-- The start stamp of a reached state is not later than the next call. -/
theorem pmRun_start_le (cfg : PmConfig F) (calls : List (PmCall F)) (c : PmCall F) (t : UInt64)
    (h : Timed (calls ++ [c])) (ht : c.time? = some t) : (pmRun cfg calls).pumpStartMs ≤ t := by
  have hstart : (pmRun cfg calls).pumpStartMs = (startTimes cfg calls).getLast?.getD 0 :=
    (pmRun_tracks cfg calls h.of_concat).start_eq
  rw [hstart]
  exact h.getLast_le ht (startTimes_sublist cfg calls)

end Fountainer.Pump
