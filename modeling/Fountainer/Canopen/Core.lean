import Fountainer.Canopen.Pdo
import Fountainer.Canopen.Sdo
import Fountainer.Lib.Runs

/-!
# The node and its runs

Parts 6 and 7 of `co_core.c`: NMT, heartbeat, the configuration calls and the two entry
points `co_rx` and `co_tick`. The owner calls them from one context, so a run is a list
of calls; between two of them the application and the driver may do anything to their
own state.
-/

namespace Fountainer.Canopen

variable {σ : Type*} (A : App σ)

/-- The TPDO `i` as a reset leaves it. -/
def defaultTpdo (nodeId : UInt8) (i : Fin coTpdoCount) : CoTpdo where
  cobId := cobIdInvalid ||| (0x180 + 0x100 * UInt32.ofNat i + nodeId.toUInt32)
  transType := 255
  inhibit100us := 0
  eventMs := 0
  mapCount := 0
  map := fun _ => 0
  lastTxMs := 0
  haveLast := false
  lastData := []
  syncCount := 0

/-- The RPDO `i` as a reset leaves it. -/
def defaultRpdo (nodeId : UInt8) (i : Fin coRpdoCount) : CoRpdo where
  cobId := cobIdInvalid ||| (0x200 + 0x100 * UInt32.ofNat i + nodeId.toUInt32)
  transType := 255
  mapCount := 0
  map := fun _ => 0
  pending := false
  len := 0
  data := Vector.replicate 8 0

/-- A mapping with its first entries replaced. -/
def mapCopy (old : Fin coPdoMapMax → UInt32) (map : List UInt32) : Fin coPdoMapMax → UInt32 :=
  fun k => map.getD k (old k)

/-- `co_tpdo_configure`. -/
def coTpdoConfigure (w : World σ) (n : UInt8) (cobId : UInt16) (transType : UInt8)
    (inhibitMs eventMs : UInt16) (map : List UInt32) : Bool × World σ :=
  if h : n.toNat < coTpdoCount ∧ map.length ≤ coPdoMapMax then
    let i : Fin coTpdoCount := ⟨n.toNat, h.1⟩
    let r := mapValidate A w map true
    if r.1 ≠ 0 then (false, r.2)
    else
      let p := r.2.node.tpdo i
      let p' := { p with
        cobId := if cobId ≠ 0 then (cobId &&& 0x7FF).toUInt32
          else 0x180 + 0x100 * n.toUInt32 + r.2.node.cfg.nodeId.toUInt32
        transType, inhibit100us := inhibitMs * 10, eventMs
        mapCount := UInt8.ofNat map.length, map := mapCopy p.map map
        haveLast := false, syncCount := 0 }
      (true, { r.2 with node := r.2.node.setTpdo i p' })
  else (false, w)

/-- `co_rpdo_configure`. -/
def coRpdoConfigure (w : World σ) (n : UInt8) (cobId : UInt16) (transType : UInt8)
    (map : List UInt32) : Bool × World σ :=
  if h : n.toNat < coRpdoCount ∧ map.length ≤ coPdoMapMax then
    let i : Fin coRpdoCount := ⟨n.toNat, h.1⟩
    let r := mapValidate A w map false
    if r.1 ≠ 0 then (false, r.2)
    else
      let p := r.2.node.rpdo i
      let p' := { p with
        cobId := if cobId ≠ 0 then (cobId &&& 0x7FF).toUInt32
          else 0x200 + 0x100 * n.toUInt32 + r.2.node.cfg.nodeId.toUInt32
        transType, mapCount := UInt8.ofNat map.length, map := mapCopy p.map map
        pending := false }
      (true, { r.2 with node := r.2.node.setRpdo i p' })
  else (false, w)

/-- `co_tpdo_request`. -/
def coTpdoRequest (w : World σ) (n : UInt8) : World σ :=
  if h : n.toNat < coTpdoCount then
    let i : Fin coTpdoCount := ⟨n.toNat, h⟩
    { w with node := w.node.setTpdo i { w.node.tpdo i with haveLast := false } }
  else w

/-- `co_heartbeat_set`. -/
def coHeartbeatSet (w : World σ) (ms : UInt16) : World σ :=
  { w with node := { w.node with
    cfg := { w.node.cfg with heartbeatMs := ms }, hbLastMs := w.node.nowMs } }

/-- A call of the owner. -/
def ownerCall (w : World σ) : OwnerCall → World σ
  | .tpdoConfigure n cobId transType inhibitMs eventMs map =>
    (coTpdoConfigure A w n cobId transType inhibitMs eventMs map).2
  | .rpdoConfigure n cobId transType map => (coRpdoConfigure A w n cobId transType map).2
  | .tpdoRequest n => coTpdoRequest w n
  | .heartbeatSet ms => coHeartbeatSet w ms
  | .errorRegisterSet bits =>
    { w with node := { w.node with errorRegister := w.node.errorRegister ||| bits } }

/-- The reset callback, when it is installed. -/
def callOnReset (w : World σ) (resetNode : Bool) : World σ :=
  if w.node.cfg.onReset then
    let r := A.onReset w.app resetNode
    r.1.foldl (ownerCall A) { w with app := r.2 }
  else w

/-- `node_reset` up to the callback: the server idle, the PDOs at their defaults. -/
def resetComm (n : CoNode) (resetNode : Bool) : CoNode :=
  { n with
    sdo := { n.sdo with state := .idle }
    tpdo := defaultTpdo n.cfg.nodeId
    rpdo := defaultRpdo n.cfg.nodeId
    errorRegister := if resetNode then 0 else n.errorRegister
    nmt := .initialising }

/-- `node_reset`. -/
def nodeReset (w : World σ) (resetNode : Bool) : World σ :=
  let w := callOnReset A { w with node := resetComm w.node resetNode } resetNode
  nmtSet A { w with node := { w.node with bootupPending := true, hbLastMs := w.node.nowMs } }
    .preoperational

/-- The TPDOs with the record of the last transmission dropped. -/
def CoNode.forgetLast (n : CoNode) : CoNode :=
  { n with tpdo := fun i => { n.tpdo i with haveLast := false } }

/-- The NMT commands. -/
inductive NmtCmd where
  | start
  | stop
  | preop
  | resetNode
  | resetComm
  deriving DecidableEq, Repr

/-- The command byte. -/
def NmtCmd.ofByte (b : UInt8) : Option NmtCmd :=
  if b = 0x01 then some .start
  else if b = 0x02 then some .stop
  else if b = 0x80 then some .preop
  else if b = 0x81 then some .resetNode
  else if b = 0x82 then some .resetComm
  else none

/-- The frame is long enough for a command and addresses this node or all nodes. -/
def CoNode.addressed (n : CoNode) (f : CoFrame) : Bool :=
  2 ≤ f.dlc.val && (f.data[1] == 0 || f.data[1] == n.cfg.nodeId)

/-- The switch of `nmt_rx` on the command. -/
def nmtCommand (w : World σ) : NmtCmd → World σ
  | .start =>
    let w := nmtSet A w .operational
    { w with node := w.node.forgetLast }
  | .stop => sdoIdle (nmtSet A w .stopped)
  | .preop => nmtSet A w .preoperational
  | .resetNode => nodeReset A w true
  | .resetComm => nodeReset A w false

/-- `nmt_rx`. -/
def nmtRx (w : World σ) (f : CoFrame) : World σ :=
  if w.node.addressed f then
    match NmtCmd.ofByte f.cmd with
    | some cmd => nmtCommand A w cmd
    | none => w
  else w

/-- `heartbeat_tick`. -/
def heartbeatTick (w : World σ) : World σ :=
  let id := 0x700 + w.node.cfg.nodeId.toUInt16
  if w.node.bootupPending then
    let r := tx A w .bootup id [0]
    if r.1 then
      { r.2 with node := { r.2.node with bootupPending := false, hbLastMs := r.2.node.nowMs } }
    else r.2
  else if w.node.cfg.heartbeatMs = 0 then w
  else if w.node.cfg.heartbeatMs.toUInt32 ≤ w.node.nowMs - w.node.hbLastMs then
    let w := (tx A w .heartbeat id [w.node.nmt.code]).2
    { w with node := { w.node with hbLastMs := w.node.nowMs } }
  else w

/-- `master_note`. -/
def masterNote (w : World σ) : World σ :=
  { w with node := { w.node with masterSeen := true, lastMasterMs := w.node.nowMs } }

/-- `co_master_active`. -/
def coMasterActive (n : CoNode) (nowMs timeoutMs : UInt32) : Bool :=
  n.masterSeen && nowMs - n.lastMasterMs ≤ timeoutMs

/-- The identifier of requests to the SDO server. -/
def CoNode.sdoRxId (n : CoNode) : UInt16 := 0x600 + n.cfg.nodeId.toUInt16

/-- The time of the call taken over. -/
def atTime (w : World σ) (nowMs : UInt32) : World σ := { w with node := { w.node with nowMs } }

/-- `co_rx`. -/
def coRx (w : World σ) (f : CoFrame) (nowMs : UInt32) : World σ :=
  let w := atTime w nowMs
  if f.id = 0 then nmtRx A (if w.node.addressed f then masterNote w else w) f
  else if w.node.nmt = .initialising then w
  else if f.id = 0x080 ∧ ¬ f.rtr then syncRx A (masterNote w)
  else if w.node.nmt = .stopped then w
  else if f.id = w.node.sdoRxId then sdoRx A (masterNote w) f
  else
    let r := pdoRx A w f
    if r.1 then masterNote r.2 else r.2

/-- The timeout check of `co_tick`. -/
def sdoTimeout (w : World σ) : World σ :=
  let sdo := w.node.sdo
  if sdo.state ≠ .idle ∧ coSdoTimeoutMs < w.node.nowMs - sdo.lastMs then
    sdoAbort A w sdo.index sdo.sub abortTimeout
  else w

/-- `co_tick`. -/
def coTick (w : World σ) (nowMs : UInt32) : World σ :=
  tpdoTick A (sdoTimeout A (heartbeatTick A (atTime w nowMs)))

/-- The node before `co_init` has reset it. -/
def blankNode (cfg : CoConfig) (nowMs : UInt32) : CoNode where
  cfg := { cfg with
    nodeId := if cfg.nodeId = 0 ∨ 127 < cfg.nodeId then 127 else cfg.nodeId, onReset := false }
  nmt := .initialising
  errorRegister := 0
  nowMs
  hbLastMs := 0
  bootupPending := false
  sdo :=
    { state := .idle, index := 0, sub := 0, toggle := 0, len := 0, pos := 0, buf := fun _ => 0,
      lastMs := 0 }
  tpdo := defaultTpdo 0
  rpdo := defaultRpdo 0
  masterSeen := false
  lastMasterMs := 0

/-- `co_init`: the same path as a reset of the node, without the owner's callback. -/
def coInit (cfg : CoConfig) (nowMs : UInt32) (app : σ) : World σ :=
  let w := nodeReset A { node := blankNode cfg nowMs, app, out := [] } true
  { w with node := { w.node with cfg := { w.node.cfg with onReset := cfg.onReset } } }

/-- A call of the owner's task, or a change of the application between two calls. -/
inductive CoCall (σ : Type*) where
  | rx (f : CoFrame) (nowMs : UInt32)
  | tick (nowMs : UInt32)
  | emcy (code : UInt16) (errBits : UInt8) (mfr : Option (Vector UInt8 5))
  | owner (c : OwnerCall)
  | world (g : σ → σ)

/-- One call, with its effects added to those recorded. -/
def coCall (w : World σ) : CoCall σ → World σ
  | .rx f nowMs => coRx A w f nowMs
  | .tick nowMs => coTick A w nowMs
  | .emcy code errBits mfr => coEmcy A w code errBits mfr
  | .owner c => ownerCall A w c
  | .world g => { w with app := g w.app }

/-- One call of a run: `out` has the effects of this call alone. -/
def coStep (w : World σ) (c : CoCall σ) : World σ := coCall A { w with out := [] } c

/-- The world after `co_init` and the calls. -/
def coRun (cfg : CoConfig) (nowMs : UInt32) (app : σ) (calls : List (CoCall σ)) : World σ :=
  Machine.run (coStep A) (coInit A cfg nowMs app) calls

@[simp] theorem coRun_concat (cfg : CoConfig) (nowMs : UInt32) (app : σ) (calls : List (CoCall σ))
    (c : CoCall σ) :
    coRun A cfg nowMs app (calls ++ [c]) = coStep A (coRun A cfg nowMs app calls) c :=
  Machine.run_concat _ _ _ _

end Fountainer.Canopen
