import Fountainer.Canopen.Gating

/-!
# A reset forgets the history

After a reset the communication objects read as after `co_init` and the owner's
configuration, whatever happened before, except the heartbeat time: it lives in the
configuration and a reset does not restore it. The proof runs the two configurations side
by side; the owner's calls cannot tell the nodes apart, because `map_validate` looks only
at the lengths of the communication objects.
-/

namespace Fountainer.Canopen

variable {σ : Type*} {A : App σ} {w w' : World σ}

-- ════════════════════════════════════════════════════════════════════════
-- The shape of the communication objects
-- ════════════════════════════════════════════════════════════════════════

/-- The shape of a value with `len` bytes. -/
def valueShape (cap len : ℕ) : UInt32 × ℕ := if cap < len then (abortOutOfMemory, 0) else (0, len)

theorem OdRead.value_shape (cap : ℕ) (bytes : List UInt8) :
    (OdRead.value cap bytes).shape = valueShape cap bytes.length :=
  apply_ite OdRead.shape _ _ _

theorem rdU8_shape (cap : ℕ) (v : UInt8) : (rdU8 cap v).shape = valueShape cap 1 :=
  OdRead.value_shape cap _

theorem rdU16_shape (cap : ℕ) (v : UInt16) : (rdU16 cap v).shape = valueShape cap 2 :=
  OdRead.value_shape cap _

theorem rdU32_shape (cap : ℕ) (v : UInt32) : (rdU32 cap v).shape = valueShape cap 4 :=
  OdRead.value_shape cap _

theorem OdRead.single_shape (sub : UInt8) (r : OdRead) :
    (OdRead.single sub r).shape = if sub ≠ 0 then (abortNoSubindex, 0) else r.shape :=
  apply_ite OdRead.shape _ _ _

theorem readMap_shape (cap : ℕ) (sub count : UInt8) (map : Fin coPdoMapMax → UInt32) :
    (readMap cap sub count map).shape = if sub = 0 then valueShape cap 1
      else if (mapSub sub).isSome then valueShape cap 4 else (abortNoSubindex, 0) := by
  rw [readMap, apply_ite OdRead.shape, rdU8_shape]
  cases mapSub sub with
  | none => rfl
  | some k => rw [rdU32_shape]; rfl

/-- The configurations agree up to the heartbeat time. -/
def CoConfig.Agree (c c' : CoConfig) : Prop :=
  { c' with heartbeatMs := 0 } = { c with heartbeatMs := 0 }

/-- The shape of an object does not depend on the state of the node. -/
theorem CoConfig.Agree.sameShapes {n n' : CoNode} (h : n.cfg.Agree n'.cfg) : SameShapes n n' := by
  intro index sub cap
  simp only [CoConfig.Agree, CoConfig.mk.injEq] at h
  obtain ⟨-, -, -, -, -, -, -, hname, hhw, hsw, -⟩ := h
  unfold odInternalRead
  generalize pdoOf 0x1400 coRpdoCount index = a, pdoOf 0x1600 coRpdoCount index = b,
    pdoOf 0x1800 coTpdoCount index = c, pdoOf 0x1A00 coTpdoCount index = d
  simp only [apply_ite OdRead.shape, OdRead.single_shape, rdU8_shape, rdU16_shape, rdU32_shape,
    hname, hhw, hsw]
  iterate 10 refine congrArg _ ?_
  match a, b, c, d with
  | some i, _, _, _ =>
    simp only [apply_ite OdRead.shape, rdU8_shape, rdU32_shape]
  | none, some i, _, _ => simp only [readMap_shape]
  | none, none, some i, _ =>
    simp only [apply_ite OdRead.shape, rdU8_shape, rdU16_shape, rdU32_shape]
  | none, none, none, some i => simp only [readMap_shape]
  | none, none, none, none => rfl

-- ════════════════════════════════════════════════════════════════════════
-- Two nodes side by side
-- ════════════════════════════════════════════════════════════════════════

/-- The nodes show the same communication objects, up to the heartbeat time and the error
    register, to the same application. -/
structure SameComm (w w' : World σ) : Prop where
  app : w'.app = w.app
  cfg : w.node.cfg.Agree w'.node.cfg
  tpdo : ∀ i, (w'.node.tpdo i).toTpdoParams = (w.node.tpdo i).toTpdoParams
  rpdo : ∀ i, (w'.node.rpdo i).toRpdoParams = (w.node.rpdo i).toRpdoParams

theorem CoConfig.Agree.nodeId {c c' : CoConfig} (h : c.Agree c') : c'.nodeId = c.nodeId := by
  simp only [CoConfig.Agree, CoConfig.mk.injEq] at h
  exact h.1

/-- A call of the owner does the same to both nodes. -/
theorem ownerCall_sameComm (h : SameComm w w') (c : OwnerCall) :
    SameComm (ownerCall A w c) (ownerCall A w' c) := by
  cases c with
  | tpdoConfigure n cobId transType inhibitMs eventMs map =>
    obtain ⟨hcode, happ⟩ := mapValidate_congr (A := A) h.cfg.sameShapes h.app map true
    simp only [ownerCall, coTpdoConfigure, hcode]
    split
    · next hn =>
      split
      · exact ⟨happ, by simpa using h.cfg, by simpa using h.tpdo, by simpa using h.rpdo⟩
      · refine ⟨happ, by simpa [CoNode.setTpdo] using h.cfg, fun i => ?_,
          by simpa [CoNode.setTpdo] using h.rpdo⟩
        by_cases hi : i = ⟨n.toNat, hn.1⟩
        · subst hi
          have hmap := congrArg TpdoParams.map (h.tpdo ⟨n.toNat, hn.1⟩)
          simp [CoNode.setTpdo, h.cfg.nodeId, hmap]
        · simpa [hi] using h.tpdo i
    · exact h
  | rpdoConfigure n cobId transType map =>
    obtain ⟨hcode, happ⟩ := mapValidate_congr (A := A) h.cfg.sameShapes h.app map false
    simp only [ownerCall, coRpdoConfigure, hcode]
    split
    · next hn =>
      split
      · exact ⟨happ, by simpa using h.cfg, by simpa using h.tpdo, by simpa using h.rpdo⟩
      · refine ⟨happ, by simpa [CoNode.setRpdo] using h.cfg, by simpa [CoNode.setRpdo] using h.tpdo,
          fun i => ?_⟩
        by_cases hi : i = ⟨n.toNat, hn.1⟩
        · subst hi
          have hmap := congrArg RpdoParams.map (h.rpdo ⟨n.toNat, hn.1⟩)
          simp [CoNode.setRpdo, h.cfg.nodeId, hmap]
        · simpa [hi] using h.rpdo i
    · exact h
  | tpdoRequest n =>
    simp only [ownerCall, coTpdoRequest]
    split
    · next hn =>
      refine ⟨h.app, h.cfg, fun i => ?_, h.rpdo⟩
      by_cases hi : i = ⟨n.toNat, hn⟩
      · subst hi
        simpa using h.tpdo ⟨n.toNat, hn⟩
      · simpa [hi] using h.tpdo i
    · exact h
  | heartbeatSet ms => exact ⟨h.app, h.cfg, h.tpdo, h.rpdo⟩
  | errorRegisterSet bits => exact ⟨h.app, h.cfg, h.tpdo, h.rpdo⟩

theorem ownerCalls_sameComm (h : SameComm w w') (cs : List OwnerCall) :
    SameComm (cs.foldl (ownerCall A) w) (cs.foldl (ownerCall A) w') := by
  induction cs generalizing w w' with
  | nil => exact h
  | cons c cs ih => exact ih (ownerCall_sameComm h c)

/-- The heartbeat time after the owner's calls. -/
def heartbeatAfter (ms : UInt16) (cs : List OwnerCall) : UInt16 :=
  cs.foldl (fun ms c => match c with | .heartbeatSet v => v | _ => ms) ms

/-- The error register after the owner's calls. -/
def registerAfter (reg : UInt8) (cs : List OwnerCall) : UInt8 :=
  cs.foldl (fun reg c => match c with | .errorRegisterSet bits => reg ||| bits | _ => reg) reg

theorem ownerCalls_registers (cs : List OwnerCall) :
    (cs.foldl (ownerCall A) w).node.cfg.heartbeatMs = heartbeatAfter w.node.cfg.heartbeatMs cs ∧
      (cs.foldl (ownerCall A) w).node.errorRegister = registerAfter w.node.errorRegister cs := by
  have hcall : ∀ (w : World σ) (c : OwnerCall),
      (ownerCall A w c).node.cfg.heartbeatMs = heartbeatAfter w.node.cfg.heartbeatMs [c] ∧
        (ownerCall A w c).node.errorRegister = registerAfter w.node.errorRegister [c] := by
    intro w c
    have howned := ownerCall_owned A w c
    generalize (ownerCall A w c).node = n' at howned
    cases howned <;> exact ⟨rfl, rfl⟩
  induction cs generalizing w with
  | nil => exact ⟨rfl, rfl⟩
  | cons c cs ih =>
    obtain ⟨hms, hreg⟩ := hcall w c
    obtain ⟨hms', hreg'⟩ := @ih (ownerCall A w c)
    refine ⟨hms'.trans ?_, hreg'.trans ?_⟩
    · rw [hms]
      rfl
    · rw [hreg]
      rfl

/-- Two heartbeat times become equal only if a call sets them. -/
theorem heartbeatAfter_eq_iff {ms ms' : UInt16} {cs : List OwnerCall} :
    heartbeatAfter ms cs = heartbeatAfter ms' cs ↔ ms = ms' ∨ ∃ v, .heartbeatSet v ∈ cs := by
  induction cs generalizing ms ms' with
  | nil => simp [heartbeatAfter]
  | cons c cs ih =>
    cases c with
    | heartbeatSet v =>
      have hsame : heartbeatAfter ms (.heartbeatSet v :: cs) =
          heartbeatAfter ms' (.heartbeatSet v :: cs) := rfl
      exact iff_of_true hsame (.inr ⟨v, by simp⟩)
    | tpdoConfigure | rpdoConfigure | tpdoRequest | errorRegisterSet =>
      refine (@ih ms ms').trans ?_
      simp

-- ════════════════════════════════════════════════════════════════════════
-- Reading the objects
-- ════════════════════════════════════════════════════════════════════════

/-- Nodes with the same parameters read the same, but for the error register and the
    heartbeat time. -/
theorem SameComm.read_eq (h : SameComm w w') {index : UInt16} {sub : UInt8} {cap : ℕ}
    (hreg : index = 0x1001 → w'.node.errorRegister = w.node.errorRegister)
    (hms : index = 0x1017 → w'.node.cfg.heartbeatMs = w.node.cfg.heartbeatMs) :
    odInternalRead w'.node index sub cap = odInternalRead w.node index sub cap := by
  have hcfg := h.cfg
  simp only [CoConfig.Agree, CoConfig.mk.injEq] at hcfg
  obtain ⟨hid, -, hdev, hvendor, hcode, hrev, hser, hname, hhw, hsw, -⟩ := hcfg
  by_cases h1 : index = 0x1001
  · subst h1
    change OdRead.single sub (rdU8 cap w'.node.errorRegister) =
      OdRead.single sub (rdU8 cap w.node.errorRegister)
    rw [hreg rfl]
  by_cases h2 : index = 0x1017
  · subst h2
    change OdRead.single sub (rdU16 cap w'.node.cfg.heartbeatMs) =
      OdRead.single sub (rdU16 cap w.node.cfg.heartbeatMs)
    rw [hms rfl]
  simp only [odInternalRead, h1, h2, if_false, h.rpdo, h.tpdo, hid, hdev, hvendor, hcode, hrev,
    hser, hname, hhw, hsw]

/-- The heartbeat time is what 0x1017 reads. -/
theorem odInternalRead_heartbeat {n n' : CoNode}
    (h : odInternalRead n' 0x1017 0 2 = odInternalRead n 0x1017 0 2) :
    n'.cfg.heartbeatMs = n.cfg.heartbeatMs := by
  have hbytes : Bytes.leU16 n'.cfg.heartbeatMs = Bytes.leU16 n.cfg.heartbeatMs :=
    congrArg OdRead.bytes h
  have hread := congrArg (fun bytes => coGetU16 (bytes ++ [])) hbytes
  simpa only [coGetU16_append] using hread

-- ════════════════════════════════════════════════════════════════════════
-- The reset
-- ════════════════════════════════════════════════════════════════════════

/-- The configuration that the owner makes in the reset callback, if there is one. -/
def resetCalls (A : App σ) (cfg : CoConfig) (app : σ) (resetNode : Bool) : List OwnerCall × σ :=
  if cfg.onReset then A.onReset app resetNode else ([], app)

/-- The node after `co_init` and the owner's configuration of a reset. -/
def freshNode (A : App σ) (cfg : CoConfig) (nowMs : UInt32) (app : σ) (resetNode : Bool) : CoNode :=
  let r := resetCalls A cfg app resetNode
  (r.1.foldl (ownerCall A) { coInit A cfg nowMs app with app := r.2 }).node

theorem callOnReset_eq (resetNode : Bool) : callOnReset A w resetNode =
    (resetCalls A w.node.cfg w.app resetNode).1.foldl (ownerCall A)
      { w with app := (resetCalls A w.node.cfg w.app resetNode).2 } := by
  simp only [callOnReset, resetCalls]
  split <;> rfl

theorem coInit_node (cfg : CoConfig) (nowMs : UInt32) (app : σ) :
    (coInit A cfg nowMs app).node.cfg = { cfg with nodeId := validNodeId cfg.nodeId } ∧
      (coInit A cfg nowMs app).node.tpdo = defaultTpdo (validNodeId cfg.nodeId) ∧
      (coInit A cfg nowMs app).node.rpdo = defaultRpdo (validNodeId cfg.nodeId) ∧
      (coInit A cfg nowMs app).node.errorRegister = 0 := by
  simp only [coInit, nodeReset, nmtSet_node, callOnReset, resetComm, blankNode]
  exact ⟨rfl, rfl, rfl, rfl⟩

/-- The configuration of a run differs from the one that `co_init` took over in the
    heartbeat time at most. -/
theorem coRun_cfg (cfg : CoConfig) (nowMs : UInt32) (app : σ) (calls : List (CoCall σ)) :
    CoConfig.Agree { cfg with nodeId := validNodeId cfg.nodeId }
      (coRun A cfg nowMs app calls).node.cfg := by
  refine Machine.run_invariant (coStep A) (P := fun w => CoConfig.Agree _ w.node.cfg) ?_ ?_ calls
  · exact fun w c h => (coCall_cfg (w := { w with out := [] }) c).trans h
  · rw [(coInit_node cfg nowMs app).1]
    exact rfl

/-- A reset and `co_init` give the owner's configuration the same node to work on. -/
theorem resetComm_sameComm {cfg : CoConfig} {n : CoNode}
    (h : CoConfig.Agree { cfg with nodeId := validNodeId cfg.nodeId } n.cfg) (nowMs : UInt32)
    (app app' : σ) (out : List Effect) (resetNode : Bool) :
    SameComm { coInit A cfg nowMs app with app := app' } ⟨resetComm n resetNode, app', out⟩ := by
  obtain ⟨hcfg, htpdo, hrpdo, -⟩ := coInit_node (A := A) cfg nowMs app
  have hid : n.cfg.nodeId = validNodeId cfg.nodeId := h.nodeId
  refine ⟨rfl, ?_, fun i => ?_, fun i => ?_⟩
  · rw [hcfg]
    exact h
  · rw [htpdo, ← hid]
    rfl
  · rw [hrpdo, ← hid]
    rfl

/-- What a reset and `co_init` leave, both with the owner's configuration behind them. -/
structure ResetPair (A : App σ) (cfg : CoConfig) (w : World σ) (resetNode : Bool)
    (fresh reset : World σ) : Prop where
  same : SameComm fresh reset
  register : resetNode = true → reset.node.errorRegister = fresh.node.errorRegister
  freshMs : fresh.node.cfg.heartbeatMs =
    heartbeatAfter cfg.heartbeatMs (resetCalls A cfg w.app resetNode).1
  resetMs : reset.node.cfg.heartbeatMs =
    heartbeatAfter w.node.cfg.heartbeatMs (resetCalls A cfg w.app resetNode).1

theorem nodeReset_pair {cfg : CoConfig}
    (h : CoConfig.Agree { cfg with nodeId := validNodeId cfg.nodeId } w.node.cfg) (nowMs : UInt32)
    (resetNode : Bool) : ∃ fresh reset, ResetPair A cfg w resetNode fresh reset ∧
      fresh.node = freshNode A cfg nowMs w.app resetNode ∧
      odInternalRead reset.node = odInternalRead (nodeReset A w resetNode).node := by
  have honReset : w.node.cfg.onReset = cfg.onReset := by
    have hcfg := h
    simp only [CoConfig.Agree, CoConfig.mk.injEq] at hcfg
    exact hcfg.2.2.2.2.2.2.2.2.2.2
  have hcalls : resetCalls A (resetComm w.node resetNode).cfg w.app resetNode =
      resetCalls A cfg w.app resetNode := by
    simp only [resetCalls, resetComm, honReset]
  obtain ⟨hcfg, -, -, hreg⟩ := coInit_node (A := A) cfg nowMs w.app
  have hsame := ownerCalls_sameComm (A := A)
    (resetComm_sameComm (A := A) h nowMs w.app (resetCalls A cfg w.app resetNode).2 w.out resetNode)
    (resetCalls A cfg w.app resetNode).1
  refine ⟨_, _, ⟨hsame, fun hnode => ?_, ?_, ?_⟩, rfl, ?_⟩
  · rw [(ownerCalls_registers _).2, (ownerCalls_registers _).2]
    refine congrArg (registerAfter · _) ?_
    change (if resetNode then 0 else w.node.errorRegister) =
      (coInit A cfg nowMs w.app).node.errorRegister
    rw [hreg, hnode, if_pos rfl]
  · rw [(ownerCalls_registers _).1]
    refine congrArg (heartbeatAfter · _) ?_
    change (coInit A cfg nowMs w.app).node.cfg.heartbeatMs = cfg.heartbeatMs
    rw [hcfg]
  · rw [(ownerCalls_registers _).1]
    rfl
  · rw [nodeReset, nmtSet_node, callOnReset_eq, hcalls]
    rfl

theorem nmtCommand_resets {cmd : NmtCmd} (h : cmd.resets = true) :
    nmtCommand A w cmd = nodeReset A w (decide (cmd = .resetNode)) := by
  cases cmd with
  | start | stop | preop => exact absurd h (by decide)
  | resetNode | resetComm => rfl

/-- **Reset**: after every run and a reset command, the communication objects (without the
    error register if only the communication is reset) read as after `co_init` and the same
    configuration by the owner, if and only if the heartbeat time had its original value
    or the owner's configuration sets it. -/
theorem reset_restores_iff (A : App σ) (cfg : CoConfig) (nowMs : UInt32) (app : σ)
    (calls : List (CoCall σ)) (f : CoFrame) (t : UInt32) (cmd : NmtCmd) (nowMs' : UInt32) :
    let w := coRun A cfg nowMs app calls
    let resetNode := decide (cmd = .resetNode)
    w.node.command f = some cmd → cmd.resets = true →
      ((∀ index sub cap, 0x1000 ≤ index → index < 0x2000 → (resetNode = false → index ≠ 0x1001) →
        odInternalRead (coStep A w (.rx f t)).node index sub cap =
          odInternalRead (freshNode A cfg nowMs' w.app resetNode) index sub cap) ↔
      w.node.cfg.heartbeatMs = cfg.heartbeatMs ∨
        ∃ ms, .heartbeatSet ms ∈ (resetCalls A cfg w.app resetNode).1) := by
  intro w resetNode hcmd hresets
  have hagree : CoConfig.Agree { cfg with nodeId := validNodeId cfg.nodeId } w.node.cfg :=
    coRun_cfg cfg nowMs app calls
  have hstep : coStep A w (.rx f t) = nodeReset A (noted { w with out := [] } t) resetNode :=
    (coCall_command (w := { w with out := [] }) hcmd t).trans (nmtCommand_resets hresets)
  obtain ⟨fresh, reset, hpair, hfresh, hreset⟩ :=
    nodeReset_pair (A := A) (w := noted { w with out := [] } t) hagree nowMs' resetNode
  have hfresh' : freshNode A cfg nowMs' w.app resetNode = fresh.node := hfresh.symm
  rw [hstep, hfresh', ← hreset, ← heartbeatAfter_eq_iff]
  have hms : reset.node.cfg.heartbeatMs = fresh.node.cfg.heartbeatMs ↔
      heartbeatAfter w.node.cfg.heartbeatMs (resetCalls A cfg w.app resetNode).1 =
        heartbeatAfter cfg.heartbeatMs (resetCalls A cfg w.app resetNode).1 := by
    rw [hpair.freshMs, hpair.resetMs]
    rfl
  rw [← hms]
  constructor
  · intro h
    exact odInternalRead_heartbeat (h 0x1017 0 2 (by decide) (by decide) (fun _ => by decide))
  · intro heq index sub cap _ _ hindex
    refine hpair.same.read_eq (fun h1 => hpair.register ?_) (fun _ => heq)
    by_contra hcomm
    exact hindex (Bool.not_eq_true _ ▸ hcomm) h1

/-- A reset of the communication with the heartbeat time as configured. -/
theorem reset_restores_untouched :
    let A := tableApp fourByteObject
    let w := coRun A exampleConfig 0 () []
    w.node.command (CoFrame.ofBytes 0 [0x82, 5]) = some .resetComm ∧
      odInternalRead (coStep A w (.rx (CoFrame.ofBytes 0 [0x82, 5]) 1)).node 0x1017 0 2 =
        odInternalRead (freshNode A exampleConfig 0 () false) 0x1017 0 2 := by
  refine ⟨by decide, ?_⟩
  exact (reset_restores_iff (tableApp fourByteObject) exampleConfig 0 () []
    (CoFrame.ofBytes 0 [0x82, 5])
    1 .resetComm 0 (by decide) (by decide)).mpr (.inl (by decide)) 0x1017 0 2
    (by decide) (by decide)
    (fun _ => by decide)

/-- A heartbeat time of 200 ms written over SDO outlives a reset of the communication. -/
theorem reset_keeps_heartbeat :
    let A := tableApp fourByteObject
    let w := coRun A exampleConfig 0 ()
      [.rx (CoFrame.ofBytes 0x605 [0x2B, 0x17, 0x10, 0, 200, 0, 0, 0]) 1]
    w.node.command (CoFrame.ofBytes 0 [0x82, 5]) = some .resetComm ∧
      ¬ ∀ index sub cap, 0x1000 ≤ index → index < 0x2000 → index ≠ 0x1001 →
        odInternalRead (coStep A w (.rx (CoFrame.ofBytes 0 [0x82, 5]) 2)).node index sub cap =
          odInternalRead (freshNode A exampleConfig 0 () false) index sub cap := by
  refine ⟨by decide, fun h => ?_⟩
  exact absurd
    (congrArg OdRead.bytes (h 0x1017 0 2 (by decide) (by decide) (by decide))) (by decide)

end Fountainer.Canopen
