import Fountainer.Canopen.Turns
import Mathlib.Data.List.Chain

/-!
# Inhibit time of event-driven TPDOs

The owner gives the inhibit time in milliseconds, and `co_tpdo_configure` keeps it in tenths of a
millisecond in 16 bits. A time of up to 6553 ms comes out of the record as it went in, and two
transmissions are that far apart; a greater one loses its upper part, and the TPDO is sent earlier.
-/

namespace Fountainer.Canopen

variable {σ : Type*} {A : App σ} {w : World σ} {i : Fin coTpdoCount}

/-- A tick at a time in milliseconds, which the node sees modulo 2 ^ 32, or a change of the
    surroundings. -/
inductive TimedStep (σ : Type*) where
  | tick (time : ℕ)
  | world (g : σ → σ)

/-- The call that a step makes. -/
def TimedStep.call : TimedStep σ → CoCall σ
  | .tick time => .tick (UInt32.ofNat time)
  | .world g => .world g

/-- The time of a tick. -/
def TimedStep.time? : TimedStep σ → Option ℕ
  | .tick time => some time
  | .world _ => none

/-- The times of the ticks. -/
def tickTimes (steps : List (TimedStep σ)) : List ℕ := steps.filterMap TimedStep.time?

/-- A step as a call of the node. -/
def timedStep (A : App σ) (w : World σ) (s : TimedStep σ) : World σ := coStep A w s.call

/-- The time of a step in which the driver took a frame of TPDO `i`. -/
def sentAt (i : Fin coTpdoCount) (_ : World σ) (s : TimedStep σ) (w' : World σ) : Option ℕ :=
  if (tpdoSends i w'.out).any (·.2) then s.time? else none

/-- The times at which TPDO `i` was sent along a run. -/
def sentTimes (A : App σ) (i : Fin coTpdoCount) (w : World σ)
    (steps : List (TimedStep σ)) : List ℕ :=
  Machine.collect (timedStep A) (sentAt i) w steps

/-- An inhibit time that the record can hold comes out as it went in. -/
theorem inhibitMs_toNat {p : TpdoParams} {inhibitMs : UInt16} (h : p.inhibit100us = inhibitMs * 10)
    (hle : inhibitMs.toNat ≤ 6553) : p.inhibitMs.toNat = inhibitMs.toNat := by
  have hfits : inhibitMs.toNat * 10 % 2 ^ 16 = inhibitMs.toNat * 10 := Nat.mod_eq_of_lt (by omega)
  rw [TpdoParams.inhibitMs, h]
  simp only [UInt32.toNat_div, UInt32.toNat_add, UInt16.toNat_toUInt32, UInt16.toNat_mul,
    UInt32.reduceToNat, UInt16.reduceToNat, hfits]
  omega

/-- The 32-bit difference of two times is at most the time between them. -/
theorem elapsed_le {a b : ℕ} (h : a ≤ b) : (UInt32.ofNat b - UInt32.ofNat a).toNat ≤ b - a := by
  simp only [UInt32.toNat_sub, UInt32.toNat_ofNat']
  omega

/-- The TPDO is event-driven with this inhibit time, and was last sent at `last`. -/
structure Spacing (i : Fin coTpdoCount) (inhibitMs : UInt16) (last : Option ℕ) (w : World σ) :
    Prop where
  nmt : w.node.nmt = .operational
  inhibit : (w.node.tpdo i).inhibit100us = inhibitMs * 10
  haveLast : (w.node.tpdo i).haveLast = last.isSome
  time : ∀ t ∈ last, (w.node.tpdo i).lastTxMs = UInt32.ofNat t

section Step

variable {x : UInt16} {last : Option ℕ}

/-- One tick: the TPDO is not sent and stays as it is, or it is sent and the inhibit time has passed
    since it was sent last. -/
theorem Spacing.tick (h : Spacing i x last w) (hx : x.toNat ≤ 6553) {time : ℕ}
    (hle : ∀ t ∈ last, t ≤ time) :
    let w' := timedStep A w (.tick time)
    sentAt i w (.tick time) w' = none ∧ Spacing i x last w' ∨
      sentAt i w (.tick time) w' = some time ∧ Spacing i x (some time) w' ∧
        ∀ t ∈ last, t + x.toNat ≤ time := by
  intro w'
  obtain ⟨hrec, hsends⟩ := coStep_tick (A := A) h.nmt (UInt32.ofNat time) i
  obtain ⟨hturn, hnow, -, hunsent⟩ := tickTurn_at (A := A) h.nmt (UInt32.ofNat time) i
  have hnmt : w'.node.nmt = .operational := (coStep_tick_nmt _).trans h.nmt
  -- A turn that does not change the record.
  have hkeep : w'.node.tpdo i = w.node.tpdo i → Spacing i x last w' := by
    intro hsame
    exact ⟨hnmt, hsame ▸ h.inhibit, hsame ▸ h.haveLast, hsame ▸ h.time⟩
  cases tpdoTickOne_turns A (tickTurn A w (UInt32.ofNat time) i) i with
  | rests hnode hout =>
    rw [hnode, hturn] at hrec
    rw [hout, hunsent] at hsends
    refine .inl ⟨?_, hkeep hrec⟩
    simp only [sentAt, w', timedStep, TimedStep.call, hsends, List.any_nil, Bool.false_eq_true,
      if_false]
  | tries hfree v hv hout hattempt =>
    rw [hunsent] at hout
    cases hattempt with
    | unreadable _ hnode hsent | refused _ _ hnode hsent =>
      rw [hnode, hv, hturn] at hrec
      rw [hsent, hout] at hsends
      refine .inl ⟨?_, hkeep hrec⟩
      simp [sentAt, w', timedStep, TimedStep.call, hsends]
    | sent data _ hnode hsent =>
      rw [hnode, hv] at hrec
      rw [hsent, hout] at hsends
      have hself := hrec.trans (CoNode.setTpdo_self _ _ _)
      rw [hturn, hnow] at hself
      refine .inr ⟨?_, ⟨hnmt, ?_, ?_, ?_⟩, ?_⟩
      · simp [sentAt, w', timedStep, TimedStep.call, hsends, TimedStep.time?]
      · exact (congrArg (fun p : CoTpdo => p.inhibit100us) hself).trans h.inhibit
      · exact congrArg CoTpdo.haveLast hself
      · rintro t ⟨⟩
        exact congrArg CoTpdo.lastTxMs hself
      · intro t ht
        have hlate : ¬ UInt32.ofNat time - UInt32.ofNat t < (w.node.tpdo i).inhibitMs := by
          intro hearly
          refine hfree (.inr ⟨?_, ?_⟩)
          · rw [hturn, h.haveLast, Option.isSome_of_mem ht]
          · rwa [hturn, hnow, h.time t ht]
        rw [UInt32.lt_iff_toNat_lt, not_lt, inhibitMs_toNat h.inhibit hx] at hlate
        have helapsed := elapsed_le (hle t ht)
        have hle' := hle t ht
        omega

theorem Spacing.chain (h : Spacing i x last w) (hx : x.toNat ≤ 6553) {steps : List (TimedStep σ)}
    (hle : ∀ t ∈ last, ∀ time ∈ tickTimes steps, t ≤ time)
    (hsorted : (tickTimes steps).Pairwise (· ≤ ·)) :
    (last.toList ++ sentTimes A i w steps).IsChain (fun a b => a + x.toNat ≤ b) := by
  induction steps generalizing w last with
  | nil =>
    rw [sentTimes, Machine.collect_nil, List.append_nil]
    cases last with
    | none => exact .nil
    | some t => exact .singleton t
  | cons s steps ih =>
    cases s with
    | world g =>
      have hnone : sentAt i w (.world g) (timedStep A w (.world g)) = none := by
        simp [sentAt, TimedStep.time?]
      have hrest : sentTimes A i w (.world g :: steps) =
          sentTimes A i (timedStep A w (.world g)) steps := by
        rw [sentTimes, Machine.collect, hnone]
        rfl
      rw [hrest]
      exact ih ⟨h.nmt, h.inhibit, h.haveLast, h.time⟩ hle hsorted
    | tick time =>
      have htimes : tickTimes (.tick time :: steps) = time :: tickTimes steps := rfl
      rw [htimes] at hle hsorted
      obtain ⟨hfirst, hsorted⟩ := List.pairwise_cons.mp hsorted
      have hrest : sentTimes A i w (.tick time :: steps) =
          (sentAt i w (.tick time) (timedStep A w (.tick time))).toList ++
            sentTimes A i (timedStep A w (.tick time)) steps := rfl
      rw [hrest]
      rcases h.tick (A := A) hx (fun t ht => hle t ht time List.mem_cons_self) with
        ⟨hnone, hkept⟩ | ⟨hsome, hsent, hapart⟩
      · rw [hnone]
        exact ih hkept (fun t ht t' ht' => hle t ht t' (List.mem_cons_of_mem _ ht')) hsorted
      · rw [hsome]
        have hchain := ih hsent (by rintro t ⟨⟩; exact hfirst) hsorted
        cases last with
        | none => exact hchain
        | some t => exact hchain.cons_cons (hapart t rfl)

end Step

/-- **Inhibit time up to 6553 ms**: from a configuration on, in OPERATIONAL or before it, once the
    node is OPERATIONAL and while only ticks and changes of the surroundings happen, two consecutive
    transmissions of the TPDO are at least the inhibit time apart. -/
theorem inhibit_time_kept (A : App σ) (cfg : CoConfig) (nowMs : UInt32) (app : σ)
    (before : List (CoCall σ)) (i : Fin coTpdoCount) (cobId : UInt16) (transType : UInt8)
    (inhibitMs eventMs : UInt16) (map : List UInt32) (hinhibit : inhibitMs.toNat ≤ 6553)
    (hconf : (coTpdoConfigure A (coRun A cfg nowMs app before) (UInt8.ofNat i) cobId transType
      inhibitMs eventMs map).1 = true)
    (opening : List (CoCall σ))
    (hopening : Machine.Guarded (coStep A) Opening (coStep A (coRun A cfg nowMs app before)
      (configureCall i cobId transType inhibitMs eventMs map)) opening)
    (steps : List (TimedStep σ)) (htimes : (tickTimes steps).Pairwise (· ≤ ·)) :
    let w := Machine.run (coStep A) (coStep A (coRun A cfg nowMs app before)
      (configureCall i cobId transType inhibitMs eventMs map)) opening
    w.node.nmt = .operational →
      (sentTimes A i w steps).IsChain (fun a b => a + inhibitMs.toNat ≤ b) := by
  intro w hop
  have hfresh : (w.node.tpdo i).Fresh transType inhibitMs map := opening_fresh hconf hopening
  have hspacing : Spacing i inhibitMs none w :=
    ⟨hop, hfresh.inhibit, hfresh.unsent, fun t ht => absurd ht (by simp)⟩
  exact hspacing.chain hinhibit (fun t ht => absurd ht (by simp)) htimes

/-- An application whose state is an object of one byte at 0x2000, over a driver that takes every
    frame. -/
def byteApp : App UInt8 where
  send s _ := (true, s)
  odRead s index sub cap :=
    (if index = 0x2000 then .single sub (.value cap [s]) else .abort abortNoObject, s)
  odWrite s _ _ _ := (abortReadOnly, s)
  onReset s _ := ([], s)
  onNmtChanged s _ _ := s

/-- The call that starts the node. -/
def startCall : CoCall UInt8 := .rx (CoFrame.ofBytes 0 [0x01, 0]) 0

/-- The object changes behind a transmission, and a tick comes one millisecond later. -/
def changingSteps : List (TimedStep UInt8) := [.tick 0, .world (· + 1), .tick 1, .tick 500]

/-- The TPDO is configured in PRE-OPERATIONAL, and then the node is started. -/
theorem inhibit_time_kept_changing :
    let w := coStep byteApp (coStep byteApp (coRun byteApp exampleConfig 0 0 [])
      (configureCall 0 0 254 500 0 [0x20000008])) startCall
    sentTimes byteApp 0 w (changingSteps ++ [.world (· + 1), .tick 999]) = [0, 500] ∧
      (sentTimes byteApp 0 w (changingSteps ++ [.world (· + 1), .tick 999])).IsChain
        (fun a b => a + 500 ≤ b) := by
  refine ⟨by decide +kernel, ?_⟩
  exact inhibit_time_kept byteApp exampleConfig 0 0 [] 0 0 254 500 0 [0x20000008] (by decide)
    (by decide +kernel) [startCall]
    ⟨⟨fun h => absurd h (by decide +kernel), fun _ => nofun, fun f t h => by
      cases h
      decide +kernel⟩, trivial⟩
    (changingSteps ++ [.world (· + 1), .tick 999]) (by decide) (by decide +kernel)

/-- An inhibit time of 6554 ms is kept as 0.4 ms, and the next tick sends again. -/
theorem inhibit_time_lost :
    (coRun byteApp exampleConfig 0 0 [startCall]).node.nmt = .operational ∧
      (coTpdoConfigure byteApp (coRun byteApp exampleConfig 0 0 [startCall]) 0 0 254 6554 0
        [0x20000008]).1 = true ∧
      ¬ (sentTimes byteApp 0 (coStep byteApp (coRun byteApp exampleConfig 0 0 [startCall])
          (configureCall 0 0 254 6554 0 [0x20000008])) changingSteps).IsChain
        (fun a b => a + 6554 ≤ b) := by
  have hsent : sentTimes byteApp 0 (coStep byteApp (coRun byteApp exampleConfig 0 0 [startCall])
      (configureCall 0 0 254 6554 0 [0x20000008])) changingSteps = [0, 1] := by
    decide +kernel
  refine ⟨by decide +kernel, by decide +kernel, ?_⟩
  rw [hsent]
  simp

end Fountainer.Canopen
