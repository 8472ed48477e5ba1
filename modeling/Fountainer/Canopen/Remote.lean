import Fountainer.Canopen.Turns

/-!
# Remote frames

A remote frame asks for data and carries none. `co_rx` answers one for an enabled TPDO and drops it
where it expects a SYNC or an SDO request, but `nmt_rx` does not look at the flag: a remote frame
with identifier 0 is obeyed as the command that its data bytes happen to spell.
-/

namespace Fountainer.Canopen

open Traces (Grows)

variable {σ : Type*} {A : App σ} {w : World σ} {n : CoNode} {f : CoFrame}

-- ════════════════════════════════════════════════════════════════════════
-- Harmless frames
-- ════════════════════════════════════════════════════════════════════════

/-- The nodes differ in the time and in what is known of the master at most. -/
def Stamped (n n' : CoNode) : Prop :=
  ∃ t seen last, n' = { n with nowMs := t, masterSeen := seen, lastMasterMs := last }

/-- The worlds differ in the time and in what is known of the master at most. -/
structure StampedOnly (w w' : World σ) : Prop where
  node : Stamped w.node w'.node
  app : w'.app = w.app
  out : w'.out = w.out

/-- The action is a write to the object dictionary. -/
def Act.Writes : Act → Prop
  | .write .. => True
  | _ => False

/-- All that a remote frame with the identifier `id` causes: nothing, or in OPERATIONAL one attempt
    to transmit an enabled TPDO with this identifier. -/
inductive RemoteEffect (A : App σ) (id : UInt16) (w w' : World σ) : Prop where
  | nothing (h : StampedOnly w w')
  | attempt (i : Fin coTpdoCount) (hop : w.node.nmt = .operational)
      (hanswers : (w.node.tpdo i).answers id = true) (v : World σ) (hv : StampedOnly w v)
      (h : StampedOnly (tpdoSend A v i) w')

/-- The frame is harmless: up to the stamps and the records of the last transmissions the node stays
    as it is, nothing is written, and the only effect is an attempt to transmit the TPDO asked
    for. -/
structure Harmless (A : App σ) (id : UInt16) (w w' : World σ) : Prop where
  node : Stamped w.node.withoutTx w'.node.withoutTx
  unwritten : Grows (fun e => ¬ e.act.Writes) w.out w'.out
  effect : RemoteEffect A id w w'

theorem Stamped.withoutTx {n' : CoNode} (h : Stamped n n') : Stamped n.withoutTx n'.withoutTx := by
  obtain ⟨t, seen, last, rfl⟩ := h
  exact ⟨t, seen, last, rfl⟩

theorem Stamped.trans {n' n'' : CoNode} (h : Stamped n n') (h' : Stamped n' n'') :
    Stamped n n'' := by
  obtain ⟨t, seen, last, rfl⟩ := h
  obtain ⟨t', seen', last', rfl⟩ := h'
  exact ⟨t', seen', last', rfl⟩

/-- The effect says it all. -/
theorem RemoteEffect.harmless {id : UInt16} {w' : World σ} (h : RemoteEffect A id w w') :
    Harmless A id w w' := by
  refine ⟨?_, ?_, h⟩
  · cases h with
    | nothing h => exact h.node.withoutTx
    | attempt i _ _ v hv h =>
      have hsend : (tpdoSend A v i).node.withoutTx = v.node.withoutTx := (tpdoSend_only i).node
      exact (hv.node.withoutTx.trans ⟨_, _, _, hsend⟩).trans h.node.withoutTx
  · cases h with
    | nothing h => exact Grows.of_eq h.out
    | attempt i _ _ v hv h =>
      rw [h.out, ← hv.out]
      refine (tpdoSend_growsBy A v i).mono ?_
      rintro ⟨nmt, act⟩ ⟨-, p, rfl, hact⟩
      cases act with
      | write => exact False.elim hact
      | send | read | apply | copy => exact not_false

-- ════════════════════════════════════════════════════════════════════════
-- Which remote frames are harmless
-- ════════════════════════════════════════════════════════════════════════

/-- The command finds something to change in the node. -/
def CoNode.Obeys (n : CoNode) : NmtCmd → Prop
  | .start => n.nmt ≠ .operational ∨ ∃ i, (n.tpdo i).haveLast = true
  | .stop => n.nmt ≠ .stopped ∨ n.sdo.state ≠ .idle
  | .preop => n.nmt ≠ .preoperational
  | .resetNode | .resetComm => True

/-- The frame is an NMT command for this node that finds something to change. -/
def CoNode.Commanded (n : CoNode) (f : CoFrame) : Prop :=
  ∃ cmd, n.command f = some cmd ∧ n.Obeys cmd

theorem stampedOnly_noted (w : World σ) (t : UInt32) : StampedOnly w (noted w t) :=
  ⟨⟨t, true, t, rfl⟩, rfl, rfl⟩

theorem stampedOnly_atTime (w : World σ) (t : UInt32) : StampedOnly w (atTime w t) :=
  ⟨⟨t, _, _, rfl⟩, rfl, rfl⟩

theorem StampedOnly.note {w' : World σ} (h : StampedOnly w w') : StampedOnly w (masterNote w') :=
  ⟨h.node.trans ⟨_, true, _, rfl⟩, h.app, h.out⟩

/-- A command that finds nothing to change changes nothing. -/
theorem nmtCommand_idle {cmd : NmtCmd} (h : ¬ w.node.Obeys cmd) : nmtCommand A w cmd = w := by
  cases cmd with
  | start =>
    obtain ⟨hnmt, hlast⟩ := not_or.mp h
    have hset : nmtSet A w .operational = w := if_pos (not_not.mp hnmt)
    have hforget : w.node.forgetLast = w.node := by
      simp only [CoNode.forgetLast]
      congr 1
      funext i
      have hi : (w.node.tpdo i).haveLast = false := Bool.eq_false_iff.mpr fun hi => hlast ⟨i, hi⟩
      rw [← hi]
    simp only [nmtCommand, hset, hforget]
  | stop =>
    obtain ⟨hnmt, hidle⟩ := not_or.mp h
    have hset : nmtSet A w .stopped = w := if_pos (not_not.mp hnmt)
    simp only [nmtCommand, hset, sdoIdle, CoNode.setSdo]
    rw [← not_not.mp hidle]
  | preop => exact if_pos (not_not.mp h)
  | resetNode | resetComm => exact absurd trivial h

theorem pdoRx_remote (hrtr : f.rtr = true) (t : UInt32) :
    RemoteEffect A f.id w (pdoRx A (atTime w t) f).2 ∧
      RemoteEffect A f.id w (masterNote (pdoRx A (atTime w t) f).2) := by
  have hat := stampedOnly_atTime w t
  simp only [pdoRx, hrtr, if_true]
  split
  · next i hfind =>
    have hanswers : (w.node.tpdo i).answers f.id = true :=
      List.find?_some (p := fun i => ((atTime w t).node.tpdo i).answers f.id) hfind
    dsimp only
    split
    · next hop =>
      have hself : StampedOnly (tpdoSend A (atTime w t) i) (tpdoSend A (atTime w t) i) :=
        ⟨⟨_, _, _, rfl⟩, rfl, rfl⟩
      exact ⟨.attempt i hop hanswers _ hat hself, .attempt i hop hanswers _ hat hself.note⟩
    · exact ⟨.nothing hat, .nothing hat.note⟩
  · exact ⟨.nothing hat, .nothing hat.note⟩

/-- A remote frame that is no effective command is harmless. -/
theorem coRx_remote (hrtr : f.rtr = true) (hcmd : ¬ w.node.Commanded f) (t : UInt32) :
    Harmless A f.id w (coRx A w f t) := by
  apply RemoteEffect.harmless
  have hcase := coCall_happens A w (.rx f t)
  rw [show coRx A w f t = coCall A w (.rx f t) from rfl]
  generalize coCall A w (.rx f t) = w' at hcase
  cases hcase with
  | command _ _ cmd h =>
    have hobeys : ¬ (noted w t).node.Obeys cmd := fun hobeys => hcmd ⟨cmd, h, hobeys⟩
    rw [nmtCommand_idle hobeys]
    exact .nothing (stampedOnly_noted w t)
  | request _ _ _ h => exact absurd (hrtr.symm.trans h.2.2) (by simp)
  | sync _ _ _ _ hdata => exact absurd (hrtr.symm.trans hdata) (by simp)
  | pdo _ _ _ _ _ w' hw =>
    rcases hw with rfl | rfl
    · exact (pdoRx_remote hrtr t).2
    · exact (pdoRx_remote hrtr t).1
  | ignored _ _ _ _ w' hw =>
    rcases hw with rfl | rfl
    · exact .nothing (stampedOnly_noted w t)
    · exact .nothing (stampedOnly_atTime w t)

-- ════════════════════════════════════════════════════════════════════════
-- Which are not
-- ════════════════════════════════════════════════════════════════════════

/-- Surroundings that count how often they are told of a new NMT state. -/
def countingApp : App ℕ where
  send s _ := (true, s)
  odRead s _ _ _ := (.abort abortNoObject, s)
  odWrite s _ _ _ := (abortNoObject, s)
  onReset s _ := ([], s)
  onNmtChanged s _ _ := s + 1

/-- A harmless frame leaves NMT as it is. -/
theorem Harmless.nmt {id : UInt16} {w' : World σ} (h : Harmless A id w w') :
    w'.node.nmt = w.node.nmt := by
  obtain ⟨t, seen, last, hnode⟩ := h.node
  show w'.node.withoutTx.nmt = w.node.withoutTx.nmt
  rw [hnode]

/-- A harmless frame takes no baseline away. -/
theorem Harmless.haveLast {id : UInt16} {w' : World σ}
    (h : Harmless A id w w') {i : Fin coTpdoCount}
    (hlast : (w.node.tpdo i).haveLast = true) : (w'.node.tpdo i).haveLast = true := by
  cases h.effect with
  | nothing h =>
    obtain ⟨t, seen, last, hnode⟩ := h.node
    rw [hnode]
    exact hlast
  | attempt j _ _ v hv h =>
    obtain ⟨t, seen, last, hnode⟩ := h.node
    obtain ⟨t', seen', last', hnode'⟩ := hv.node
    have hlast' : (v.node.tpdo i).haveLast = true := by
      rw [hnode']
      exact hlast
    rw [hnode]
    show ((tpdoSend A v j).node.tpdo i).haveLast = true
    by_cases hij : i = j
    · subst hij
      cases tpdoSend_attempt A v i with
      | unreadable _ hsame | refused _ _ hsame => rw [hsame, hlast']
      | sent data _ hsame =>
        rw [hsame, CoNode.setTpdo_self]
        rfl
    · rw [(tpdoSend_turn A v j).others i hij, hlast']

/-- A reset tells the surroundings of the state it ends in. -/
theorem nodeReset_counts (w : World ℕ) (resetNode : Bool) :
    (nodeReset countingApp w resetNode).app = w.app + 1 := by
  have hcall : ∀ w' : World ℕ, (callOnReset countingApp w' resetNode).app = w'.app ∧
      (callOnReset countingApp w' resetNode).node.nmt = w'.node.nmt := by
    intro w'
    simp only [callOnReset]
    split <;> exact ⟨rfl, rfl⟩
  obtain ⟨happ, hnmt⟩ := hcall { w with node := resetComm w.node resetNode }
  simp only [nodeReset, nmtSet]
  rw [if_neg]
  · exact congrArg (· + 1) happ
  · rw [hnmt]
    exact show ¬ NmtState.initialising = .preoperational by decide

/-- A command that finds something to change does harm in some surroundings. -/
theorem coRx_commanded {s : ℕ} {t : UInt32} (h : n.Commanded f)
    (hall : Harmless countingApp f.id ⟨n, s, []⟩ (coRx countingApp ⟨n, s, []⟩ f t)) : False := by
  obtain ⟨cmd, hcmd, hobeys⟩ := h
  rw [show coRx countingApp ⟨n, s, []⟩ f t = coCall countingApp ⟨n, s, []⟩ (.rx f t) from rfl,
    coCall_command (w := ⟨n, s, []⟩) hcmd t] at hall
  have hspine := nmtCommand_spine (A := countingApp) (w := noted ⟨n, s, []⟩ t) cmd
  have hnmt : n.nmt = cmd.target := hall.nmt.symm.trans (congrArg Spine.nmt hspine)
  cases cmd with
  | start =>
    rcases hobeys with hother | ⟨i, hlast⟩
    · exact hother hnmt
    · exact absurd (hall.haveLast (i := i) hlast) Bool.false_ne_true
  | stop =>
    rcases hobeys with hother | hbusy
    · exact hother hnmt
    · obtain ⟨t', seen, last, hnode⟩ := hall.node
      have hsdo : (nmtCommand countingApp (noted ⟨n, s, []⟩ t) .stop).node.withoutTx.sdo =
          n.withoutTx.sdo := by rw [hnode]
      exact hbusy (congrArg CoSdo.state hsdo).symm
  | preop => exact hobeys hnmt
  | resetNode | resetComm =>
    cases hall.effect with
    | nothing h =>
      have happ := (nodeReset_counts (noted ⟨n, s, []⟩ t) _).symm.trans h.app
      exact absurd happ (Nat.succ_ne_self s)
    | attempt i hop => exact absurd (hnmt.symm.trans hop) (by decide)

/-- **Remote frames are harmless but for commands**: whatever its data bytes, a remote frame is
    harmless to a node in all surroundings if and only if it is not an NMT command for the node that
    finds something to change. -/
theorem remote_harmless_iff (n : CoNode) (f : CoFrame) (hrtr : f.rtr = true) (t : UInt32) :
    (∀ (σ : Type) (A : App σ) (s : σ) (out : List Effect),
      Harmless A f.id ⟨n, s, out⟩ (coRx A ⟨n, s, out⟩ f t)) ↔ ¬ n.Commanded f := by
  constructor
  · exact fun hall hcmd => coRx_commanded hcmd (hall ℕ countingApp 0 [])
  · exact fun hcmd σ A s out => coRx_remote (w := ⟨n, s, out⟩) hrtr hcmd t

/-- A remote frame with these data bytes. -/
def remoteFrame (id : UInt16) (bytes : List UInt8) : CoFrame :=
  { CoFrame.ofBytes id bytes with rtr := true }

theorem remote_harmless_iff_request :
    (∀ (σ : Type) (A : App σ) (s : σ) (out : List Effect),
      Harmless A 0x185 ⟨blankNode exampleConfig 0, s, out⟩
        (coRx A ⟨blankNode exampleConfig 0, s, out⟩ (remoteFrame 0x185 [0x81, 0]) 1)) ↔
      ¬ (blankNode exampleConfig 0).Commanded (remoteFrame 0x185 [0x81, 0]) :=
  remote_harmless_iff (blankNode exampleConfig 0) (remoteFrame 0x185 [0x81, 0]) rfl 1

/-- A started node obeys a remote frame that spells the command to stop. -/
theorem remote_stop_obeyed :
    let w := coRun (tableApp fourByteObject) exampleConfig 0
      () [.rx (CoFrame.ofBytes 0 [0x01, 0]) 0]
    (remoteFrame 0 [0x02, 0]).rtr = true ∧
      ¬ Harmless (tableApp fourByteObject) 0 w
        (coRx (tableApp fourByteObject) w (remoteFrame 0 [0x02, 0]) 1) := by
  intro w
  refine ⟨rfl, fun h => ?_⟩
  exact absurd h.nmt (by decide +kernel)

end Fountainer.Canopen
