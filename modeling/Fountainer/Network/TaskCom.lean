import Fountainer.Lib.Hex
import Fountainer.Network.NetworkConfig

/-!
# Writes on the board

`task_com_apply_dp_write` with everything that it touches: the store, the NVS content, the
trial flag, the log ring and the acknowledgement of the previous boot's log. The command points
`Log_Command` and `Network_Save` are taken out of the batch and run before it is validated and
after it is committed, and that decides what a rejected write leaves behind.
-/

namespace Fountainer.Network

open Bytes
open Datapoints Logging
open Protocol (Json.get? literal rejected)

/-- `ESP_LOGW`, captured by the hook of `logging_bridge.c`. -/
def espLogW (tag msg : CString) : Prog Unit :=
  modify fun b =>
    let ms := (b.timeUs / 1000).toUInt32
    let lead := literal "W (" ++ decimal ms.toNat ++ literal ") "
    b.setLog
      (b.log.emit ms logLevelWarn 8 800
        ((tag ++ literal ": " ++ msg).take (47 - lead.bytes.length)))

/-- `LOG_EMIT0`. -/
def logEmit0 (level module : UInt8) (eventId : UInt16) (text : CString) : Prog Unit :=
  modify fun b => b.setLog (b.log.emit (b.timeUs / 1000).toUInt32 level module eventId text)

/-- `dp_write_batch`: its answer, and whether the NVS save went well. -/
def Board.dpWriteBatch (dpIn : Json) : Prog (BatchResult × Bool) := do
  let b ← get
  let r := Datapoints.dpWriteBatch b.img dpIn
  if !r.ok then return (r, true)
  else
    modify (·.setImg r.img)
    if ← dpConfigSave then return (r, true)
    else
      espLogW (literal "dp") (literal "config applied in RAM but NVS save failed")
      return (r, false)

/-- `log_command_handle`. -/
def logCommandHandle (cmd : UInt8) (b : Board) : Board :=
  match cmd with
  | 1 => b.setLog b.log.clear
  | 2 => { b with prevBoot := (loggingAckPreviousBoot b.prevBoot 0).2 }
  | _ => b

/-- The command for the log that a write has. -/
def logCommand (dp : Json) : Option UInt8 :=
  match Json.get? dp "Log_Command" with
  | some (.number x) => some x.toUInt8
  | _ => none

/-- The board after the command for the log, if the write has one. -/
def afterLogCommand (dp : Json) (b : Board) : Board :=
  match logCommand dp with
  | some cmd => logCommandHandle cmd b
  | none => b

/-- `%016llX` of the eight bytes. -/
def hexString (bytes : List UInt8) : CString where
  bytes := Hex.text Hex.upperDigit bytes.reverse
  nonzero := Hex.text_ne_zero Hex.upperDigit_ne_zero

/-- `dp_value_to_json`. -/
def dpValueToJson (d : DpDesc) (img : Mem) : Json :=
  match d.type with
  | .bool => .bool (img d.off != 0)
  | .u64 => .string (hexString (d.slot img))
  | .str => .string (fieldString img d.name)
  | type => .number ((dpSlotAsDouble type img d.off).getD 0)

/-- `dp_read_into` with names that are all strings. -/
def dpReadInto (img : Mem) (names : List String) : Json :=
  .object <|
    if names = [] then (gDp dpList).map fun d => (d.name, dpValueToJson d img)
    else names.filterMap fun name => (dpFind dpList name).map fun d => (d.name, dpValueToJson d img)

theorem noNul_errorText (err : DpError) : (Protocol.text err.text).all (· != 0) = true := by
  cases err <;> decide

/-- The object `errors` of an answer. -/
def errorsObject (errors : List (String × DpError)) : Json :=
  .object (errors.map fun e => (e.1, .string (literal e.2.text (noNul_errorText e.2))))

/-- The field `status` of an answer. -/
def statusField (applied : Bool) : String × Json :=
  ("status", .string (if applied then literal "applied" else rejected))

/-- The batch of a write, and the field `warning` that a failed save puts into the answer. -/
def applyBatch (dpIn : Json) : Prog (BatchResult × List (String × Json)) := do
  let r ← Board.dpWriteBatch dpIn
  if r.2 then return (r.1, [])
  else
    logEmit0 logLevelError 1 121 (literal "dp config in RAM only")
    return (r.1, [("warning", .string (literal "nvs_save_failed"))])

/-- The action of a write, if it has one. -/
def runNetworkSave (reboots : Bool) (action : UInt8) : Prog Bool := do
  if action = 0 then return true
  else Board.networkConfigSaveHandle reboots action

/-- The answer to an applied write, with the readback of its keys. The loop over `dp->child`
    reads through the pointer. -/
def appliedAnswer (dp : Option Json) (action : UInt8) : Prog (List (String × Json)) := do
  match dp with
  | none => throw .nullPointer
  | some dp =>
    let b ← get
    let save : List (String × Json) :=
      if action = 0 then [] else [("network_save", .number action.toFloat)]
    return save ++ [statusField true, ("readback", dpReadInto b.img (dp.children.filterMap (·.1)))]

/-- `task_com_apply_dp_write`: the fields of its answer. A pointer `dp` that is null is `none`;
    the cJSON functions take it for a value without items. -/
def Board.taskComApplyDpWrite (reboots : Bool) (dp : Option Json) :
    Prog (List (String × Json)) := do
  let item := dp.getD .null
  modify (afterLogCommand item)
  let r ← applyBatch (batchOf item)
  if !r.1.ok then return [statusField false, ("errors", errorsObject r.1.errors)]
  else
    let saved ← runNetworkSave reboots (networkSave item)
    if !saved then
      return r.2 ++ [statusField false, ("error", .string (literal "invalid_network_save"))]
    else
      let answer ← appliedAnswer dp (networkSave item)
      return r.2 ++ answer

-- ════════════════════════════════════════════════════════════════════════
-- Rejected writes
-- ════════════════════════════════════════════════════════════════════════

section

open Outage

variable {b : Board} {reboots : Bool}

/-- The action saves the image before it can be refused. -/
def SavesFirst (action : UInt8) (img : Mem) : Prop :=
  action = 2 ∨ action = 4 ∧ img (imgOff "Backup_SSID") ≠ 0

instance (action : UInt8) (img : Mem) : Decidable (SavesFirst action img) :=
  inferInstanceAs (Decidable (_ ∨ _))

/-- What a refused action of `Network_Save` does. -/
structure Refused (action : UInt8) (b b' : Board) : Prop where
  img : b'.img = b.img
  prevBoot : b'.prevBoot = b.prevBoot
  nvs : b'.nvs =
    if SavesFirst action b.img then
      dpConfigSaveFirst dpList (b.fate 0).writes b.img b.nvs
    else b.nvs
  trial : b'.trial =
    if action = 4 ∧ SavesFirst action b.img ∧ b.fate 1 = .done then some 1
    else b.trial
  log : ∃ k, b.log.Appended b'.log k ∧ k ≤ 2 ∧ (k = 0 ↔ b.log.storesLow = false)

/-- One or two lines of `logging`. -/
theorem logged_lines {l l' : RuntimeLog} {n : ℕ} (hn : 0 < n) (hle : n ≤ 2)
    (h : l.Appended l' (if l.storesLow then n else 0)) :
    ∃ k, l.Appended l' k ∧ k ≤ 2 ∧ (k = 0 ↔ l.storesLow = false) := by
  refine ⟨_, h, ?_, ?_⟩ <;> cases l.storesLow <;> simp <;> omega

theorem appended_two_lines (l : RuntimeLog) (ms ms' : UInt32) (tag msg tag' msg' : CString) :
    l.Appended ((l.logging ms .low tag msg).logging ms' .low tag' msg')
      (if l.storesLow then 2 else 0) := by
  have hfirst := l.appended_logging ms tag msg
  have hsecond := (l.logging ms .low tag msg).appended_logging ms' tag' msg'
  have h := hfirst.trans hsecond
  rw [hfirst.storesLow] at h
  cases hs : l.storesLow <;> simpa [hs] using h

/-- An action that is refused logs, and saves first where it reboots. -/
theorem networkConfigSaveHandle_refused (action : UInt8) :
    Wp (Board.networkConfigSaveHandle reboots action)
      (fun ok b' => ok = false → Refused action b b') (fun _ _ => True) b := by
  unfold Board.networkConfigSaveHandle
  split
  · simp only [wp_bind, wp_logging, wp_dpConfigSave, wp_pure]
    split <;> simp
  · have hline := fun tag msg tag' msg' => logged_lines (by decide) (by decide)
      (appended_two_lines b.log (b.timeUs / 1000).toUInt32
        (b.timeUs / 1000).toUInt32 tag msg tag' msg')
    have hsaves : SavesFirst 2 b.img := .inl rfl
    simp only [wp_bind, wp_logging, wp_dpConfigSave, wp_systemRebootDeferred]
    cases hfate : b.fate 0 <;> simp only [fate_setLog, hfate]
    · exact fun _ => ⟨rfl, rfl, by simp [hsaves, hfate], by simp, hline _ _ _ _⟩
    · exact fun _ => ⟨rfl, rfl, by simp [hsaves, hfate, Fate.writes], by simp, hline _ _ _ _⟩
  · simp only [wp_bind, wp_logging, wp_modify, wp_dpConfigSave, wp_pure]
    split <;> simp
  · simp only [wp_bind, wp_get, wp_ite]
    split_ifs with hssid
    · have hrefused : ¬ SavesFirst 4 b.img := by
        rintro (h | h)
        · exact absurd h (by decide)
        · exact h.2 hssid
      simp only [wp_logging, wp_pure]
      exact fun _ => ⟨rfl, rfl, by simp [hrefused], by simp [hrefused],
        logged_lines (by decide) (by decide) (b.log.appended_logging _ _ _)⟩
    · have hline := fun tag msg tag' msg' => logged_lines (by decide) (by decide)
        (appended_two_lines b.log (b.timeUs / 1000).toUInt32
          (b.timeUs / 1000).toUInt32 tag msg tag' msg')
      have hsaves : SavesFirst 4 b.img := .inr ⟨rfl, hssid⟩
      simp only [wp_bind, wp_logging, wp_dpConfigSave, wp_trialNvsSet, wp_systemRebootDeferred]
      cases hfate : b.fate 0 <;> cases hflag : b.fate 1 <;>
        simp only [fate_setLog, fate_saveFirst, fate_popFate, hfate, hflag]
      all_goals exact fun _ => ⟨rfl, rfl, by simp [hsaves, hfate, Fate.writes],
        by simp [hsaves, hflag], hline _ _ _ _⟩
  · next h1 h2 h3 h4 =>
    have hrefused : ¬ SavesFirst action b.img := by
      rintro (h | h)
      · exact h2 h
      · exact h4 h.1
    simp only [wp_bind, wp_logging, wp_pure]
    exact fun _ => ⟨rfl, rfl, by simp [hrefused], by simp [hrefused],
      logged_lines (by decide) (by decide) (b.log.appended_logging _ _ _)⟩

@[simp] theorem wp_espLogW (tag msg : CString) {Q : Unit → Board → Prop} {E : Stop → Board → Prop} :
    Wp (espLogW tag msg) Q E b ↔
      Q () (b.setLog (b.log.emit (b.timeUs / 1000).toUInt32 logLevelWarn 8 800
        ((tag ++ literal ": " ++ msg).take (47 - (literal "W (" ++
          decimal (b.timeUs / 1000).toUInt32.toNat ++ literal ") ").bytes.length)))) := Iff.rfl

@[simp] theorem wp_logEmit0 (level module : UInt8) (eventId : UInt16) (text : CString)
    {Q : Unit → Board → Prop} {E : Stop → Board → Prop} :
    Wp (logEmit0 level module eventId text) Q E b ↔
      Q () (b.setLog (b.log.emit (b.timeUs / 1000).toUInt32 level module eventId text)) := Iff.rfl

/-- What an accepted batch does: it is committed, the image is saved as far as the save gets, and
    a save that fails is logged. -/
structure Committed (dpIn : Json) (b b' : Board) : Prop where
  img : b'.img = (Datapoints.dpWriteBatch b.img dpIn).img
  nvs : b'.nvs = dpConfigSaveFirst dpList (b.fate 0).writes b'.img b.nvs
  trial : b'.trial = b.trial
  prevBoot : b'.prevBoot = b.prevBoot
  powered : ∀ n, b.fate 0 ≠ .lost n
  fates : ∀ i, b'.fate i = b.fate (i + 1)
  window : b'.trialActive = b.trialActive ∧ b'.trialDeadlineS = b.trialDeadlineS
  log : ∃ k, b.log.Appended b'.log k ∧ k ≤ 2 ∧
    (k = 0 ↔ b.fate 0 = .done ∨ b.log.isEnabledFast logLevelError = false)

/-- A batch is rejected without effect, or it is committed, or the power goes out in its save. -/
theorem applyBatch_committed (dpIn : Json) :
    Wp (applyBatch dpIn)
      (fun r b' => r.1 = Datapoints.dpWriteBatch b.img dpIn ∧ statusField false ∉ r.2 ∧
        (r.1.ok = false ∧ b' = b ∨ r.1.ok = true ∧ Committed dpIn b b'))
      (fun _ b' => (Datapoints.dpWriteBatch b.img dpIn).ok = true ∧ ∃ n, b.fate 0 = .lost n ∧
        b' = (b.setImg (Datapoints.dpWriteBatch b.img dpIn).img).popFate.saveFirst n) b := by
  rw [applyBatch, Board.dpWriteBatch]
  simp only [wp_bind, wp_get, wp_ite, wp_pure, wp_modify, wp_dpConfigSave, fate_setImg, wp_espLogW,
    wp_logEmit0]
  cases hok : (Datapoints.dpWriteBatch b.img dpIn).ok
  · simp
  · cases hfate : b.fate 0 with
    | done =>
      refine ⟨trivial, by simp,
        .inr ⟨rfl, rfl, ?_, rfl, rfl, by simp [hfate], ?_, ⟨rfl, rfl⟩, 0, .refl _, by omega, ?_⟩⟩
      · rw [hfate]
        rfl
      · simp
      · simp [hfate]
    | failed n =>
      have hwarn := b.log.appended_emit (b.timeUs / 1000).toUInt32 logLevelWarn
      have herror := fun l : RuntimeLog => l.appended_emit (b.timeUs / 1000).toUInt32 logLevelError
      refine ⟨trivial, by simp [statusField], .inr ⟨rfl, rfl, ?_, rfl, rfl, by simp [hfate], ?_,
        ⟨rfl, rfl⟩, _, (hwarn _ _ _).trans (herror _ _ _ _), ?_, ?_⟩⟩
      · rw [hfate]
        rfl
      · simp
      · split_ifs <;> omega
      · rw [(hwarn _ _ _).isEnabledFast]
        have hmono := b.log.isEnabledFast_mono (by decide : logLevelError ≠ 0)
          (by decide : logLevelError ≤ logLevelWarn)
        cases herr : b.log.isEnabledFast logLevelError <;>
          cases hwa : b.log.isEnabledFast logLevelWarn <;> simp_all
    | lost n => exact ⟨rfl, n, rfl, rfl⟩

/-- A command for the log touches the ring and the acknowledgement only. -/
structure LogOnly (b b' : Board) : Prop where
  img : b'.img = b.img
  nvs : b'.nvs = b.nvs
  trial : b'.trial = b.trial
  fates : ∀ i, b'.fate i = b.fate i
  window : b'.trialActive = b.trialActive ∧ b'.trialDeadlineS = b.trialDeadlineS
  nextSeq : b'.log.ring.nextSeq = b.log.ring.nextSeq
  gate : ∀ level, b'.log.isEnabledFast level = b.log.isEnabledFast level
  lines : b'.log.storesLow = b.log.storesLow

theorem logOnly_afterLogCommand (dp : Json) (b : Board) : LogOnly b (afterLogCommand dp b) := by
  have hrefl : ∀ b : Board, LogOnly b b := fun b =>
    ⟨rfl, rfl, rfl, fun _ => rfl, ⟨rfl, rfl⟩, rfl, fun _ => rfl, rfl⟩
  rw [afterLogCommand]
  cases logCommand dp with
  | none => exact hrefl b
  | some cmd =>
    dsimp only
    unfold logCommandHandle
    split
    · exact ⟨rfl, rfl, rfl, fun _ => rfl, ⟨rfl, rfl⟩, rfl, fun _ => rfl, rfl⟩
    · exact ⟨rfl, rfl, rfl, fun _ => rfl, ⟨rfl, rfl⟩, rfl, fun _ => rfl, rfl⟩
    · exact hrefl b

/-- What the claim of a rejection covers is as before. -/
structure Untouched (b b' : Board) : Prop where
  img : b'.img = b.img
  nvs : b'.nvs = b.nvs
  ring : b'.log.ring = b.log.ring
  prevBoot : b'.prevBoot = b.prevBoot
  trial : b'.trial = b.trial

/-- The keys that a refused write saves: those of the batch, and those of the action. -/
def keysSaved (action : UInt8) (b : Board) : ℕ :=
  if SavesFirst action b.img then max (b.fate 0).writes (b.fate 1).writes else (b.fate 0).writes

/-- An accepted batch and an action that is refused after it have nothing to change: no record
    passes the gate of the log, the image has the values of the batch, the keys have those of the
    image, and the trial flag is set where the action sets it. -/
structure NothingToDo (action : UInt8) (dpIn : Json) (b : Board) : Prop where
  lines : b.log.storesLow = false
  warning : b.fate 0 = .done ∨ b.log.isEnabledFast logLevelError = false
  img : (Datapoints.dpWriteBatch b.img dpIn).img = b.img
  keys : ∀ d ∈ (savedPoints dpList).take (keysSaved action b),
    b.nvs (dpNvsKey d) = some (.blob (d.slot b.img))
  trial : action = 4 → SavesFirst action b.img → b.fate 2 = .done → b.trial = some 1

/-- A command 1 for the log finds the ring as it clears it, a command 2 has no log of the previous
    boot that it can acknowledge, and an accepted batch has nothing to do. -/
def NoTrace (dp : Json) (b : Board) : Prop :=
  (logCommand dp = some 1 → b.log.ring.IsClear) ∧
    (logCommand dp = some 2 → ¬ b.prevBoot.Acknowledgeable) ∧
    ((Datapoints.dpWriteBatch b.img (batchOf dp)).ok = true →
      NothingToDo (networkSave dp) (batchOf dp) b)

/-- When the command for the log changes nothing. -/
theorem afterLogCommand_same (dp : Json) (b : Board) :
    ((afterLogCommand dp b).log.ring = b.log.ring ∧ (afterLogCommand dp b).prevBoot = b.prevBoot) ↔
      (logCommand dp = some 1 → b.log.ring.IsClear) ∧
        (logCommand dp = some 2 → ¬ b.prevBoot.Acknowledgeable) := by
  rw [afterLogCommand]
  cases logCommand dp with
  | none => simp
  | some cmd =>
    dsimp only
    unfold logCommandHandle
    split
    · have hring : b.log.clear.ring = b.log.ring.logRingClear := rfl
      simp [hring, b.log.ring.logRingClear_eq_self_iff]
    · simp [loggingAckPreviousBoot_eq_self_iff]
    · next h1 h2 => simp [show cmd ≠ 1 from h1, show cmd ≠ 2 from h2]

/-- A save leaves the NVS content exactly when the keys that it gets to have the values. -/
theorem dpConfigSaveFirst_eq_self {n : ℕ} {img : Mem} {nvs : Nvs} :
    dpConfigSaveFirst dpList n img nvs = nvs ↔
      ∀ d ∈ (savedPoints dpList).take n, nvs (dpNvsKey d) = some (.blob (d.slot img)) := by
  constructor
  · intro h d hd
    have hkey := dpConfigSaveFirst_key (List.mem_of_mem_take hd) n img nvs
    rwa [if_pos hd, h] at hkey
  · intro h
    funext key
    by_cases hkey : ∃ d ∈ (savedPoints dpList).take n, dpNvsKey d = key
    · obtain ⟨d, hd, rfl⟩ := hkey
      rw [dpConfigSaveFirst_key (List.mem_of_mem_take hd), if_pos hd, h d hd]
    · exact foldl_saveKey_other (fun d hd hkey' => hkey ⟨d, hd, hkey'⟩) img nvs

/-- A save after a save of the same image. -/
theorem dpConfigSaveFirst_twice (n k : ℕ) (img : Mem) (nvs : Nvs) :
    dpConfigSaveFirst dpList k img (dpConfigSaveFirst dpList n img nvs) =
      dpConfigSaveFirst dpList (max n k) img nvs := by
  have hmax : ∀ d, d ∈ (savedPoints dpList).take (max n k) ↔
      d ∈ (savedPoints dpList).take n ∨ d ∈ (savedPoints dpList).take k := by
    intro d
    rcases le_total n k with hle | hle
    · have hsub := (List.take_prefix_take_left (l := savedPoints dpList) hle).subset
      rw [max_eq_right hle]
      exact ⟨.inr, fun h => h.elim (fun h => hsub h) id⟩
    · have hsub := (List.take_prefix_take_left (l := savedPoints dpList) hle).subset
      rw [max_eq_left hle]
      exact ⟨.inl, fun h => h.elim id (fun h => hsub h)⟩
  funext key
  by_cases hkey : ∃ d ∈ savedPoints dpList, dpNvsKey d = key
  · obtain ⟨d, hd, rfl⟩ := hkey
    rw [dpConfigSaveFirst_key hd, dpConfigSaveFirst_key hd, dpConfigSaveFirst_key hd, ← ite_or]
    simp only [hmax d, or_comm]
  · have hother : ∀ m : ℕ, ∀ d ∈ (savedPoints dpList).take m, dpNvsKey d ≠ key :=
      fun m d hd hd' => hkey ⟨d, List.mem_of_mem_take hd, hd'⟩
    rw [dpConfigSaveFirst, dpConfigSaveFirst, dpConfigSaveFirst, foldl_saveKey_other (hother k),
      foldl_saveKey_other (hother n), foldl_saveKey_other (hother (max n k))]

theorem statusField_ne : statusField true ≠ statusField false := by
  intro h
  have hval : literal "applied" = rejected := Json.string.inj (congrArg Prod.snd h)
  exact absurd (congrArg CString.bytes hval) (by decide)

/-- After a refused action, the state is as before exactly when there was nothing to do. -/
theorem untouched_of_refused {dpIn : Json} {action : UInt8} {b b₁ b₂ b' : Board}
    (hlog : LogOnly b b₁) (hcommit : Committed dpIn b₁ b₂) (hrefused : Refused action b₂ b') :
    Untouched b b' ↔
      b₁.log.ring = b.log.ring ∧ b₁.prevBoot = b.prevBoot ∧ NothingToDo action dpIn b := by
  have himg : b₂.img = (Datapoints.dpWriteBatch b.img dpIn).img := by rw [hcommit.img, hlog.img]
  have hnvs : b'.nvs = dpConfigSaveFirst dpList
      (if SavesFirst action b₂.img then max (b.fate 0).writes (b.fate 1).writes
        else (b.fate 0).writes) b₂.img b.nvs := by
    rw [hrefused.nvs, hcommit.nvs, hcommit.fates, hlog.fates, hlog.fates, hlog.nvs]
    split_ifs
    · exact dpConfigSaveFirst_twice _ _ _ _
    · rfl
  have htrial : b'.trial =
      if action = 4 ∧ SavesFirst action b₂.img ∧ b.fate 2 = .done then some 1 else b.trial := by
    rw [hrefused.trial, hcommit.fates, hlog.fates, hcommit.trial, hlog.trial]
  -- The records of the warning and of the refusal, after the command for the log.
  obtain ⟨k₁, happ₁, hle₁, hzero₁⟩ := hcommit.log
  obtain ⟨k₂, happ₂, hle₂, hzero₂⟩ := hrefused.log
  have happ := happ₁.trans happ₂
  rw [happ₁.storesLow, hlog.lines] at hzero₂
  rw [hlog.fates, hlog.gate] at hzero₁
  have hprev : b'.prevBoot = b₁.prevBoot := hrefused.prevBoot.trans hcommit.prevBoot
  constructor
  · intro h
    have hsame : b₂.img = b.img := hrefused.img.symm.trans h.img
    have hzero : k₁ + k₂ = 0 := by
      by_contra hpos
      apply happ.nextSeq_ne (by omega) (by omega)
      rw [h.ring, hlog.nextSeq]
    rw [hsame] at hnvs htrial
    refine ⟨?_, hprev.symm.trans h.prevBoot, ?_⟩
    · rw [← happ.same hzero, h.ring]
    · refine ⟨hzero₂.mp (by omega), hzero₁.mp (by omega), himg.symm.trans hsame, ?_, ?_⟩
      · exact dpConfigSaveFirst_eq_self.mp (hnvs.symm.trans h.nvs)
      · intro haction hsaves hdone
        rw [← h.trial, htrial, if_pos ⟨haction, hsaves, hdone⟩]
  · rintro ⟨hring, hboot, hdo⟩
    have hsame : b₂.img = b.img := himg.trans hdo.img
    have hzero : k₁ + k₂ = 0 := by
      rw [hzero₁.mpr hdo.warning, hzero₂.mpr hdo.lines]
    rw [hsame] at hnvs htrial
    refine ⟨hrefused.img.trans hsame, ?_, ?_, hprev.trans hboot, ?_⟩
    · rw [hnvs]
      exact dpConfigSaveFirst_eq_self.mpr hdo.keys
    · rw [happ.same hzero, hring]
    · rw [htrial]
      split_ifs with hset
      · exact (hdo.trial hset.1 hset.2.1 hset.2.2).symm
      · rfl

/-- The answer to an applied write is no rejection, and leaves the image. -/
theorem appliedAnswer_applied (dp : Option Json) (action : UInt8) :
    Wp (appliedAnswer dp action)
      (fun answer b' => statusField false ∉ answer ∧ statusField true ∈ answer ∧ b' = b)
      (fun _ _ => True) b := by
  cases dp with
  | none => trivial
  | some dp =>
    simp only [appliedAnswer]
    simp only [wp_bind, wp_get, wp_pure]
    have hstatus := statusField_ne.symm
    split_ifs <;> simp [hstatus] <;> simp [statusField]

/-- A write with an invalid batch runs its command for the log. -/
theorem taskComApplyDpWrite_invalid (reboots : Bool) (dp : Option Json)
    (hbatch : (Datapoints.dpWriteBatch b.img (batchOf (dp.getD .null))).ok = false) :
    Wp (Board.taskComApplyDpWrite reboots dp)
      (fun fields b' => statusField false ∈ fields ∧ b' = afterLogCommand (dp.getD .null) b)
      (fun _ _ => False) b := by
  have hlog := logOnly_afterLogCommand (dp.getD .null) b
  rw [Board.taskComApplyDpWrite]
  simp only [wp_bind, wp_modify]
  refine (applyBatch_committed _).mono (fun r b₂ h => ?_) (fun _ _ h => ?_)
  · obtain ⟨hr, -, ⟨hok, rfl⟩ | ⟨hok, -⟩⟩ := h
    · rw [hok]
      exact ⟨by simp, rfl⟩
    · rw [hr, hlog.img, hbatch] at hok
      cases hok
  · rw [hlog.img, hbatch] at h
    cases h.1

/-- The answer of the action and its image are those of the model without flash and log. -/
theorem networkConfigSaveHandle_refines (action : UInt8) :
    Wp (Board.networkConfigSaveHandle reboots action)
      (fun ok b' => (ok, b'.img) = networkConfigSaveHandle reboots b.img action)
      (fun _ _ => True) b := by
  unfold Board.networkConfigSaveHandle networkConfigSaveHandle
  split
  · simp only [wp_bind, wp_logging, wp_dpConfigSave, wp_pure]
    split <;> trivial
  · simp only [wp_bind, wp_logging, wp_dpConfigSave, wp_systemRebootDeferred]
    split <;> trivial
  · simp only [wp_bind, wp_logging, wp_modify, wp_dpConfigSave, wp_pure]
    split <;> simp
  · simp only [wp_bind, wp_get, wp_ite]
    split_ifs with hssid
    · exact rfl
    · simp only [wp_bind, wp_logging, wp_dpConfigSave, wp_trialNvsSet, wp_systemRebootDeferred]
      split
      · split <;> trivial
      · split <;> trivial
      · trivial
  · simp only [wp_bind, wp_logging, wp_pure]
    simp_all

/-- **The board refines the image.** What a write answers and what it leaves in the image is as
    in the model that has the image only. -/
theorem taskComApplyDpWrite_refines (dp : Option Json) :
    Wp (Board.taskComApplyDpWrite reboots dp)
      (fun fields b' =>
        b'.img = (taskComApplyDpWrite reboots b.img (dp.getD .null)).2 ∧
          statusField (taskComApplyDpWrite reboots b.img (dp.getD .null)).1.applied ∈ fields)
      (fun _ _ => True) b := by
  have hlog := logOnly_afterLogCommand (dp.getD .null) b
  rw [Board.taskComApplyDpWrite, taskComApplyDpWrite]
  simp only [wp_bind, wp_modify]
  refine (applyBatch_committed _).mono (fun r b₂ h => ?_) (fun _ _ _ => trivial)
  obtain ⟨hr, -, h⟩ := h
  rw [hlog.img] at hr
  rw [← hr]
  obtain ⟨hok, rfl⟩ | ⟨hok, hcommit⟩ := h
  · have himg : r.1.img = b.img := by
      rw [hr] at hok ⊢
      rcases dpWriteBatchWith_cases dpList dpConstraintsOk b.img (batchOf (dp.getD .null)) with
        ⟨-, himg⟩ | ⟨hok', -⟩
      · exact himg
      · exact absurd (hok'.symm.trans hok) (by decide)
    simp [hok, himg, hlog.img]
  · have himg : b₂.img = r.1.img := by rw [hcommit.img, hlog.img, ← hr]
    have hanswer (b₃ : Board) : Wp (appliedAnswer dp (networkSave (dp.getD .null)))
        (fun answer b' => b'.img = b₃.img ∧ statusField true ∈ r.2 ++ answer)
        (fun _ _ => True) b₃ :=
      (appliedAnswer_applied dp _).mono
        (fun _ _ h => ⟨by rw [h.2.2], List.mem_append_right _ h.2.1⟩) (fun _ _ _ => trivial)
    rw [hok]
    simp only [Bool.not_true, Bool.false_eq_true, if_false, wp_bind]
    rw [runNetworkSave]
    by_cases haction : networkSave (dp.getD .null) = 0
    · rw [if_pos haction, if_pos haction]
      simp only [wp_pure, Bool.not_true, Bool.false_eq_true, if_false, wp_bind]
      exact (hanswer b₂).mono (fun _ _ h => ⟨h.1.trans himg, h.2⟩) (fun _ _ _ => trivial)
    · rw [if_neg haction, if_neg haction]
      refine (networkConfigSaveHandle_refines _).mono (fun saved b₃ hsaved => ?_)
        (fun _ _ _ => trivial)
      rw [← himg, ← hsaved]
      cases saved with
      | false => simp
      | true =>
        simp only [Bool.not_true, Bool.false_eq_true, if_false, wp_bind]
        exact hanswer b₃

/-- An unknown action is refused behind the commit of the batch. -/
theorem taskComApplyDpWrite_unknown (reboots : Bool) (dp : Json) {action : UInt8}
    (haction : networkSave dp = action) (hunknown : 4 < action) (hpower : ∀ n, b.fate 0 ≠ .lost n) :
    ∃ fields b', Board.taskComApplyDpWrite reboots (some dp) b = .ok fields b' ∧
      statusField false ∈ fields := by
  suffices h : Wp (Board.taskComApplyDpWrite reboots (some dp))
      (fun fields _ => statusField false ∈ fields) (fun _ _ => False) b from h.exists_ok
  have hlog := logOnly_afterLogCommand dp b
  rw [Board.taskComApplyDpWrite]
  simp only [wp_bind, wp_modify, Option.getD_some, haction]
  refine (applyBatch_committed _).mono (fun r b₂ _ => ?_) (fun _ _ h => ?_)
  · simp only [wp_ite, wp_pure]
    split_ifs with hok
    · simp
    · have hzero : action ≠ 0 := by
        rintro rfl
        exact absurd hunknown (by decide)
      rw [runNetworkSave, if_neg hzero]
      have hrefused : Wp (Board.networkConfigSaveHandle reboots action) (fun ok _ => ok = false)
          (fun _ _ => False) b₂ := by
        unfold Board.networkConfigSaveHandle
        split
        all_goals first
          | exact absurd hunknown (by decide)
          | simp only [wp_bind, wp_logging, wp_pure]
      rw [wp_bind]
      refine hrefused.mono (fun saved b₃ hsaved => ?_) (fun _ _ h => h)
      subst hsaved
      simp
  · obtain ⟨-, n, hlost, -⟩ := h
    exact hpower n ((hlog.fates 0).symm.trans hlost)

end

end Fountainer.Network
