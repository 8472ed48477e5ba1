import Fountainer.Network.TaskCom
import Fountainer.Protocol.Replay

/-!
# The answer to a write

`handle_dp_write` of the session with the callback that `task_com.c` installs. A verified write
must be answered by one `dp_write_result`; the loop over `dp->child` decides when it is.
-/

namespace Fountainer.Network

open Bytes Outage
open Datapoints Logging
open Protocol

/-- The power stays on during the NVS transactions to come. -/
def Board.Powered (b : Board) : Prop := ∀ i n, b.fate i ≠ .lost n

variable {b : Board} {reboots : Bool}

/-- `network_config_save_handle` returns while there is power. -/
theorem networkConfigSaveHandle_returns (hpower : b.Powered) (action : UInt8) :
    Wp (Board.networkConfigSaveHandle reboots action) (fun _ _ => True) (fun _ _ => False) b := by
  have hsave : ∀ i, (∃ n, b.fate i = .lost n) → False := fun i ⟨n, h⟩ => hpower i n h
  unfold Board.networkConfigSaveHandle
  split
  · simp only [wp_bind, wp_logging, wp_dpConfigSave, wp_pure, fate_setLog]
    cases hfate : b.fate 0 <;> first | trivial | exact hsave 0 ⟨_, hfate⟩
  · simp only [wp_bind, wp_logging, wp_dpConfigSave, wp_systemRebootDeferred, fate_setLog]
    cases hfate : b.fate 0 <;> first | trivial | exact hsave 0 ⟨_, hfate⟩
  · simp only [wp_bind, wp_logging, wp_modify, wp_dpConfigSave, wp_pure, fate_setLog, fate_setImg]
    cases hfate : b.fate 0 <;> first | trivial | exact hsave 0 ⟨_, hfate⟩
  · simp only [wp_bind, wp_get, wp_ite]
    split_ifs
    · trivial
    · simp only [wp_bind, wp_logging, wp_dpConfigSave, wp_trialNvsSet, wp_systemRebootDeferred]
      cases hfate : b.fate 0 <;> cases hflag : b.fate 1 <;>
        simp only [fate_setLog, fate_saveFirst, fate_popFate, hfate, hflag]
      all_goals first | exact hsave 0 ⟨_, hfate⟩ | exact hsave 1 ⟨_, hflag⟩
  · trivial

/-- The answer has one status. -/
def OneStatus (fields : List (String × Json)) : Prop :=
  ∃ applied, fields.filter (fun f => f.1 == "status") = [statusField applied]

/-- A field without a status in front of an answer. -/
theorem OneStatus.append {warning fields : List (String × Json)} (h : OneStatus fields)
    (hwarning : ∀ f ∈ warning, f.1 ≠ "status") : OneStatus (warning ++ fields) := by
  obtain ⟨applied, hfields⟩ := h
  refine ⟨applied, ?_⟩
  rw [List.filter_append, hfields, List.filter_eq_nil_iff.mpr (by simpa using hwarning),
    List.nil_append]

theorem oneStatus_rejected (name : String) (json : Json) (hname : name ≠ "status") :
    OneStatus [statusField false, (name, json)] :=
  ⟨false, by simp [statusField, hname]⟩

/-- The batch of a write returns while there is power, with at most a warning. -/
theorem applyBatch_returns (hpower : ∀ n, b.fate 0 ≠ .lost n) (dpIn : Json) :
    Wp (applyBatch dpIn)
      (fun r b' => r.1 = Datapoints.dpWriteBatch b.img dpIn ∧ (∀ f ∈ r.2, f.1 ≠ "status") ∧
        (r.1.ok = true → ∀ i, b'.fate i = b.fate (i + 1)))
      (fun _ _ => False) b := by
  rw [applyBatch, Board.dpWriteBatch]
  simp only [wp_bind, wp_get, wp_ite, wp_pure, wp_modify, wp_dpConfigSave, fate_setImg, wp_espLogW,
    wp_logEmit0]
  cases hok : (Datapoints.dpWriteBatch b.img dpIn).ok
  · simp
  · cases hfate : b.fate 0 with
    | done => exact ⟨trivial, by simp, fun _ i => by simp⟩
    | failed n => exact ⟨trivial, by simp, fun _ i => by simp⟩
    | lost n => exact (hpower n hfate).elim

/-- The answer to an applied write has one status, unless the pointer is null. -/
theorem appliedAnswer_status (dp : Option Json) (action : UInt8) :
    Wp (appliedAnswer dp action) (fun fields _ => OneStatus fields ∧ dp ≠ none)
      (fun e _ => e = .nullPointer ∧ dp = none) b := by
  cases dp with
  | none => exact ⟨rfl, rfl⟩
  | some dp =>
    simp only [appliedAnswer, wp_bind, wp_get, wp_pure]
    refine ⟨⟨true, ?_⟩, by simp⟩
    split_ifs <;> simp [statusField]

/-- The answer to a write, while there is power: there is one with one status, unless the pointer
    is null and the empty batch is accepted. -/
theorem taskComApplyDpWrite_answers (hpower : b.Powered) (reboots : Bool) (dp : Option Json) :
    Wp (Board.taskComApplyDpWrite reboots dp)
      (fun fields _ => OneStatus fields ∧
        (dp = none → (Datapoints.dpWriteBatch b.img (batchOf .null)).ok = false))
      (fun e _ => e = .nullPointer ∧ dp = none ∧
        (Datapoints.dpWriteBatch b.img (batchOf .null)).ok = true) b := by
  have hlog := logOnly_afterLogCommand (dp.getD .null) b
  rw [Board.taskComApplyDpWrite]
  simp only [wp_bind, wp_modify]
  refine (applyBatch_returns (fun n => ?_) _).mono (fun r b₂ h => ?_) (fun _ _ h => h.elim)
  · rw [hlog.fates]
    exact hpower 0 n
  obtain ⟨hr, hwarning, hfates⟩ := h
  rw [hlog.img] at hr
  cases hok : r.1.ok with
  | false =>
    refine ⟨oneStatus_rejected _ _ (by decide), ?_⟩
    rintro rfl
    rw [← hok, hr]
    rfl
  | true =>
    have hanswer (b₃ : Board) : Wp (appliedAnswer dp (networkSave (dp.getD .null)))
        (fun answer _ => OneStatus (r.2 ++ answer) ∧
          (dp = none → (Datapoints.dpWriteBatch b.img (batchOf .null)).ok = false))
        (fun e _ => e = .nullPointer ∧ dp = none ∧
          (Datapoints.dpWriteBatch b.img (batchOf .null)).ok = true) b₃ := by
      refine (appliedAnswer_status dp _).mono (fun answer _ h => ⟨h.1.append hwarning, ?_⟩)
        (fun _ _ h => ⟨h.1, h.2, ?_⟩)
      · exact fun hnone => (h.2 hnone).elim
      · rw [← hok, hr, h.2]
        rfl
    simp only [Bool.not_true, Bool.false_eq_true, if_false, wp_bind]
    rw [runNetworkSave]
    split_ifs with haction
    · simp only [wp_pure, Bool.not_true, Bool.false_eq_true, if_false, wp_bind]
      exact hanswer b₂
    · have hpower₂ : b₂.Powered := by
        intro i n
        rw [hfates hok, hlog.fates]
        exact hpower (i + 1) n
      refine (networkConfigSaveHandle_returns hpower₂ _).mono (fun saved b₃ _ => ?_)
        (fun _ _ h => h.elim)
      cases saved with
      | false =>
        refine ⟨?_, ?_⟩
        · exact (oneStatus_rejected _ _ (by decide)).append hwarning
        · -- A null pointer asks for no action.
          rintro rfl
          exact (haction rfl).elim
      | true =>
        simp only [Bool.not_true, Bool.false_eq_true, if_false, wp_bind]
        exact hanswer b₃

/-- The empty batch is accepted where the image satisfies the cross-field rules. -/
theorem dpWriteBatch_empty (img : Mem) :
    (Datapoints.dpWriteBatch img (batchOf .null)).ok = decide (dpConstraintsOk img = .ok ()) := by
  have hvalid : validate dpList img (batchOf .null).children = (img, []) := rfl
  rw [Datapoints.dpWriteBatch, dpWriteBatchWith, hvalid]
  cases hrules : dpConstraintsOk img with
  | error bad => simp [hrules]
  | ok => simp [hrules]

/-- A null pointer is read through where the image satisfies the cross-field rules. -/
theorem taskComApplyDpWrite_null (hpower : b.Powered) (hrules : dpConstraintsOk b.img = .ok ())
    (reboots : Bool) :
    ∃ b', Board.taskComApplyDpWrite reboots none b = .error .nullPointer b' := by
  have hans := taskComApplyDpWrite_answers hpower reboots none
  rw [dpWriteBatch_empty, decide_eq_true hrules] at hans
  obtain ⟨e, b', hrun, rfl, -⟩ := (hans.mono (fun _ _ h => absurd (h.2 rfl) (by decide))
    (fun _ _ h => h)).exists_error
  exact ⟨b', hrun⟩

/-- The callback `on_dp_write` of `task_com.c`. A stopped application stays stopped. -/
def onDpWrite (reboots : Bool) (app : Except Stop Board) (dp : Option Json) :
    List (String × Json) × Except Stop Board :=
  match app with
  | .error e => ([], .error e)
  | .ok b =>
    match Board.taskComApplyDpWrite reboots dp b with
    | .ok fields b' => (fields, .ok b')
    | .error e _ => ([], .error e)

/-- The step went on without a fault and sent one message, a `dp_write_result` with one status. -/
def Answered (cfg : FpConfig) (now : Float) (m : Json)
    (w w' : FpWorld (Except Stop Board)) : Prop :=
  (∃ b, w'.app = .ok b) ∧ ∃ fields, OneStatus fields ∧ w'.out = w.out ++
    [.call (.onDpWrite (Json.get? m "dp")),
      .send (.object (fpEnvelopeBuild cfg now .dpWriteResult fields none (strOf m "msg_id")))]

/-- Whether a verified write is answered is whether the callback returns. -/
theorem answered_iff_returns (P : Primitives) (A : FpApp (Except Stop Board)) (cfg : FpConfig)
    (now : Float) (w : FpWorld (Except Stop Board)) (m : Json) (happ : w.app = .ok b)
    (hpower : b.Powered) (hverify : (verifyS2c P cfg w.session m).1 = true) :
    Answered cfg now m w
    (handleDpWrite P { A with onDpWrite := some (onDpWrite reboots) } cfg now w m) ↔
      ∃ fields b', Board.taskComApplyDpWrite reboots (Json.get? m "dp") b = .ok fields b' := by
  have hans := taskComApplyDpWrite_answers hpower reboots (Json.get? m "dp")
  cases hrun : Board.taskComApplyDpWrite reboots (Json.get? m "dp") b with
  | ok fields b' =>
    refine iff_of_true ⟨⟨b', ?_⟩, fields, (hans.of_ok hrun).1, ?_⟩ ⟨fields, b', rfl⟩
    · simp [handleDpWrite, hverify, happ, onDpWrite, hrun, sendMsg, FpWorld.emit]
    · simp [handleDpWrite, hverify, happ, onDpWrite, hrun, sendMsg, FpWorld.emit]
  | error e b' =>
    refine iff_of_false ?_ ?_
    case refine_2 =>
      rintro ⟨_, _, hok⟩
      exact error_ne_ok hok
    rintro ⟨⟨b'', happ'⟩, -⟩
    simp [handleDpWrite, hverify, happ, onDpWrite, hrun, sendMsg, FpWorld.emit] at happ'

/-- **A verified write is answered.** It is unless its `dp` is missing and the image satisfies the
    cross-field rules: then the empty batch is accepted, and the readback follows the null
    pointer. -/
theorem dpWrite_answered_iff (P : Primitives) (A : FpApp (Except Stop Board)) (cfg : FpConfig)
    (now : Float) (w : FpWorld (Except Stop Board)) (m : Json) (happ : w.app = .ok b)
    (hpower : b.Powered) (hverify : (verifyS2c P cfg w.session m).1 = true) :
    Answered cfg now m w
    (handleDpWrite P { A with onDpWrite := some (onDpWrite reboots) } cfg now w m) ↔
      (Json.get? m "dp").isSome = true ∨ dpConstraintsOk b.img ≠ .ok () := by
  have hans := taskComApplyDpWrite_answers hpower reboots (Json.get? m "dp")
  rw [dpWriteBatch_empty] at hans
  rw [answered_iff_returns P A cfg now w m happ hpower hverify]
  cases hrun : Board.taskComApplyDpWrite reboots (Json.get? m "dp") b with
  | ok fields b' =>
    refine iff_of_true ⟨fields, b', rfl⟩ ?_
    cases hdp : Json.get? m "dp" with
    | some dp => exact .inl rfl
    | none => exact .inr (by simpa using (hans.of_ok hrun).2 hdp)
  | error e b' =>
    obtain ⟨-, hdp, hrules⟩ := hans.of_error hrun
    refine iff_of_false (fun ⟨_, _, hok⟩ => error_ne_ok hok) ?_
    rintro (hsome | hbad)
    · simp [hdp] at hsome
    · exact hbad (by simpa using hrules)

-- ════════════════════════════════════════════════════════════════════════
-- Two signed writes
-- ════════════════════════════════════════════════════════════════════════

/-- The input of a write's MAC, with the hash of its body. -/
def writeInput (bodyHash : String) : List UInt8 :=
  text "2\x1fdp_write\x1fs2c\x1fdev1\x1f\x1f\x1f\x1f\x1fk1\x1f1\x1fc2Vy\x1fAAAAAAAAAAAAAAAAAAAAAA==\x1f" ++
  text bodyHash

/-- The primitives on the two writes: the hashes of their bodies and the MACs under the key `key`
    are those of SHA-256. -/
def writePrimitives : Primitives where
  parse _ := none
  sha256 data :=
    if data = text "\x7b\x7d" then
      #v[68, 19, 111, 163, 85, 179, 103, 138, 17, 70, 173, 22, 247, 232, 100, 158,
        148, 251, 79, 194,
        31, 231, 126, 131, 16, 192, 96, 246, 28, 170, 255, 138]
    else if data = text "\x7b\"dp\":null\x7d" then
      #v[59, 106, 41, 16, 68, 114, 189, 153, 126, 177, 64, 24, 70, 159, 60, 247, 161, 31, 150, 194,
        38, 179, 71, 60, 231, 84, 139, 147, 67, 30, 135, 136]
    else Vector.replicate 32 0
  hmac128 _ input :=
    if input = writeInput "44136fa355b3678a1146ad16f7e8649e94fb4fc21fe77e8310c060f61caaff8a" then
      [208, 96, 150, 38, 208, 151, 29, 19, 69, 5, 130, 57, 130, 90, 96, 62]
    else if input =
      writeInput "3b6a29104472bd997eb14018469f3cf7a11f96c226b3473ce7548b93431e8788" then
      [73, 57, 167, 99, 91, 193, 187, 82, 38, 120, 234, 2, 57, 20, 236, 70]
    else List.replicate 17 0 ++ input
  formatG _ _ := []
  strtod _ := 0

/-- A write with these fields for its `dp`, and its MAC. -/
def signedWrite (dp : List (String × Json)) (mac : CString) : Json :=
  .object ([("v", .number 2), ("type", .string (literal "dp_write"))] ++ dp ++
    [("auth",
      .object [("kid", .string exampleDevice.authKid), ("seq", .number 1), ("mac", .string mac)])])

/-- A write of `null`. -/
def nullWrite : Json := signedWrite [("dp", .null)] (literal "STmnY1vBu1ImeOoCORTsRg==")

/-- A write without `dp`. -/
def missingWrite : Json := signedWrite [] (literal "0GCWJtCXHRNFBYI5glpgPg==")

/-- A session that runs, and the board behind it. -/
def writeWorld : FpWorld (Except Stop Board) where
  session :=
    { serverNonce := exampleNonce, clientNonce := literal "AAAAAAAAAAAAAAAAAAAAAA=="
      kid := exampleDevice.authKid, replayS2c := 0, c2sSeq := 0, reportSeq := 0, negotiated := true
      running := true }
  app := .ok exampleBoard
  out := []

/-- No callback. -/
def noCallbacks : FpApp (Except Stop Board) where
  fillSnapshot := none
  onCommand := none
  onDpWrite := none
  onReady := none
  onOta := none
  fillLogBatch := none
  onLogAckPrev := none
  fillHistoryBatch := none

theorem exampleBoard_powered : exampleBoard.Powered := by
  intro i n
  simp [exampleBoard, Board.fate]

theorem exampleBoard_rules : dpConstraintsOk exampleBoard.img = .ok () := by decide +kernel

/-- A write of `null` is answered. -/
theorem dpWrite_answered_null :
    Answered exampleDevice 0 nullWrite writeWorld (handleDpWrite writePrimitives
      { noCallbacks with onDpWrite := some (onDpWrite true) } exampleDevice 0
      writeWorld nullWrite) :=
  (dpWrite_answered_iff writePrimitives noCallbacks exampleDevice 0 writeWorld nullWrite rfl
    exampleBoard_powered (by decide +kernel)).mpr (.inl (by decide +kernel))

/-- A write without `dp` faults on the null pointer, and is not answered. -/
theorem dpWrite_missing_unanswered :
    (verifyS2c writePrimitives exampleDevice writeWorld.session missingWrite).1 = true ∧
      (onDpWrite true writeWorld.app (Json.get? missingWrite "dp")).2 = .error .nullPointer ∧
      ¬ Answered exampleDevice 0 missingWrite writeWorld (handleDpWrite writePrimitives
        { noCallbacks with onDpWrite := some (onDpWrite true) } exampleDevice 0 writeWorld
        missingWrite) := by
  have hverify :
    (verifyS2c writePrimitives exampleDevice writeWorld.session missingWrite).1 = true := by
    decide +kernel
  have hmissing : Json.get? missingWrite "dp" = none := by decide +kernel
  obtain ⟨b', hrun⟩ := taskComApplyDpWrite_null exampleBoard_powered exampleBoard_rules true
  refine ⟨hverify, ?_, ?_⟩
  · rw [hmissing, writeWorld, onDpWrite, hrun]
  · rw [answered_iff_returns _ _ _ _ _ _ rfl exampleBoard_powered hverify, hmissing, hrun]
    exact fun ⟨_, _, hok⟩ => error_ne_ok hok

end Fountainer.Network
