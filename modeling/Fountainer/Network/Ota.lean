import Fountainer.Events.EventManager
import Fountainer.Protocol.BodyHash
import Fountainer.Protocol.Session

/-!
# Firmware updates

`ota_task.c`: an offer of the server starts a task that writes the image into the update slot,
compares the hash of the slot with the hash of the offer and then activates the slot. All of these
tasks have the same slot. A call of `esp_https_ota`, the read of a chunk and the comparison are one
step each, so several tasks work on the slot in any order.
-/

namespace Fountainer.Network

open Bytes (CString Mem)
open Events (SystemEvent)
open Datapoints (Json)
open Protocol (Primitives emptyString fpAuthSha256Hex literal numberOf snprintf strOf)
open Protocol.CJson (lower)

-- ════════════════════════════════════════════════════════════════════════
-- The offer
-- ════════════════════════════════════════════════════════════════════════

/-- `ota_job_t`. -/
structure OtaJob where
  strUrl : CString
  strVersion : CString
  strSha256 : CString
  ulSize : UInt32
  deriving DecidableEq

/-- The arguments of `fountain_proto_ota_status_send`, without the attempt, which is always 1. An
    error detail is the name of its code. -/
structure OtaStatus where
  targetVersion : CString
  state : CString
  progressPct : UInt8
  error : Option CString
  errorDetail : Option ℤ
  deriving DecidableEq

/-- What `ota_start` meets: the quality of the link, memory for a job and for a task. -/
structure OtaStartAnswers where
  linkPoor : Bool
  memory : Bool
  task : Bool

/-- How `ota_start` ends: with `fountain_proto_ota_failed_note`, or with a task. -/
inductive OtaStart where
  | refused (status : Option OtaStatus)
  | started (job : OtaJob)
  deriving DecidableEq

/-- The job of an offer with this URL. -/
def otaJob (m : Json) (url : CString) : OtaJob where
  strUrl := snprintf 256 url
  strVersion := snprintf 32 ((strOf m "target_version").getD emptyString)
  strSha256 := snprintf 72 ((strOf m "sha256").getD emptyString)
  ulSize := ((numberOf m "size").map Float.toUInt32).getD 0

/-- `ota_start`. -/
def otaStart (x : OtaStartAnswers) (m : Json) : OtaStart :=
  if x.linkPoor then
    .refused (some ⟨(strOf m "version").getD (literal "?"), literal "failed", 0,
      some (literal "link_poor"), none⟩)
  else
    match strOf m "url" with
    | none => .refused none
    | some url =>
      if !x.memory then .refused none
      else if !x.task then .refused none
      else .started (otaJob m url)

-- ════════════════════════════════════════════════════════════════════════
-- The task
-- ════════════════════════════════════════════════════════════════════════

/-- `ESP_OK`. -/
def ESP_OK : ℤ := 0

/-- `ESP_ERR_INVALID_CRC`. -/
def ESP_ERR_INVALID_CRC : ℤ := 0x109

/-- `ESP_ERR_HTTPS_OTA_IN_PROGRESS`. -/
def ESP_ERR_HTTPS_OTA_IN_PROGRESS : ℤ := 0x9001

/-- What a task tells: an event with the version, `EVT_OTA_FAILED`, or a status for the server. -/
inductive OtaReport where
  | event (eEvent : SystemEvent) (astrVer : List UInt8)
  | failed (ucPhase : UInt8) (slEspErr : ℤ)
  | status (st : OtaStatus)
  deriving DecidableEq

/-- `ota_event_version`: 16 bytes, padded with zeros. -/
def otaEventVersion (eEvent : SystemEvent) (version : CString) : OtaReport :=
  .event eEvent ((version.bytes.take 15).rightpad 16 0)

/-- Where `ota_run` is. In `verify` it has hashed the bytes `hashed`, which it has read from the
    offsets below `ulOff`; in `finish` they have had the hash of the offer. -/
inductive OtaPc where
  | start
  | begin
  | perform
  | check
  | verify (ulOff : UInt32) (hashed : List UInt8)
  | finish (hashed : List UInt8)
  | restart
  | note
  | deleted
  deriving DecidableEq

/-- The slot has been written and its check is under way or over. -/
def OtaPc.checking : OtaPc → Bool
  | .check | .verify _ _ | .finish _ => true
  | _ => false

/-- What the check has hashed so far. -/
def OtaPc.hashed : OtaPc → List UInt8
  | .verify _ hashed | .finish hashed => hashed
  | _ => []

/-- A task. For the statements, `disturbed` tells whether another task has written since this one
    has begun its check, and `noted` how often it has called `fountain_proto_ota_failed_note`. -/
structure OtaTask where
  job : OtaJob
  pc : OtaPc
  disturbed : Bool
  noted : ℕ
  deriving DecidableEq

/-- An activation of the slot, with the bytes that its check has hashed. -/
structure OtaActivation where
  job : OtaJob
  hashed : List UInt8
  image : Mem
  disturbed : Bool

/-- The update slot and the tasks, with what they have told and the activations. -/
structure OtaSystem where
  slot : Mem
  tasks : List OtaTask
  reports : List OtaReport
  activated : List OtaActivation

/-- What the calls of a step answer: their error, the writes to the slot, whether the handle, the
    partition, the memory and all the data are there, whether the chunk could be read. -/
structure OtaAnswers where
  err : ℤ
  writes : List (ℕ × List UInt8)
  handle : Bool
  partition : Bool
  memory : Bool
  complete : Bool
  read : Bool

/-- The slot after the writes. -/
def written (slot : Mem) (writes : List (ℕ × List UInt8)) : Mem :=
  writes.foldl (fun m w => Bytes.write m w.1 w.2) slot

/-- The end of a run that did not restart the device. -/
def otaFailed (job : OtaJob) (ucPhase : UInt8) (err : ℤ) (error : CString) (detail : Option ℤ) :
    List OtaReport :=
  [.status ⟨job.strVersion, literal "failed", 0, some error, detail⟩, .failed ucPhase err]

/-- The end of a run whose check has failed. -/
def otaMismatch (job : OtaJob) : OtaPc × List OtaReport :=
  (.note, otaFailed job 2 ESP_ERR_INVALID_CRC (literal "sha256_mismatch") none)

section Task

variable (P : Primitives) (slotSize : UInt32)

/-- The checks of `ota_verify_sha256` before its loop. -/
def otaVerifyStart (job : OtaJob) (x : OtaAnswers) : OtaPc × List OtaReport :=
  if job.strSha256.bytes.length < 64 || job.ulSize == 0 then otaMismatch job
  else if !x.partition || decide (slotSize < job.ulSize) then otaMismatch job
  else if !x.memory then otaMismatch job
  else (.verify 0 [], [])

/-- A turn of the loop of `ota_verify_sha256`, or the comparison behind it. -/
def otaVerifyStep (job : OtaJob) (slot : Mem) (ulOff : UInt32) (hashed : List UInt8)
    (x : OtaAnswers) : OtaPc × List OtaReport :=
  if ulOff < job.ulSize then
    let ulN := if 4096 < job.ulSize - ulOff then 4096 else job.ulSize - ulOff
    if x.read then (.verify (ulOff + ulN) (hashed ++ Bytes.read slot ulOff.toNat ulN.toNat), [])
    else otaMismatch job
  else if (fpAuthSha256Hex P hashed).map lower = job.strSha256.bytes.map lower then
    (.finish hashed, [])
  else otaMismatch job

/-- The status of an update that is installed has no zero byte. -/
theorem applied_nonzero : (Protocol.text "applied").all (· != 0) = true := by decide

/-- The next step of `ota_run`, before `fountain_proto_ota_failed_note`. -/
def otaRunStep (job : OtaJob) (slot : Mem) (x : OtaAnswers) : OtaPc → OtaPc × List OtaReport
  | .start =>
    (.begin, [otaEventVersion .otaStarted job.strVersion,
      .status ⟨job.strVersion, literal "downloading", 0, none, none⟩])
  | .begin =>
    if x.err ≠ ESP_OK || !x.handle then
      (.note, otaFailed job 0 x.err (literal "begin_failed") (some x.err))
    else (.perform, [])
  | .perform =>
    if x.err = ESP_ERR_HTTPS_OTA_IN_PROGRESS then (.perform, [])
    else if x.err ≠ ESP_OK || !x.complete then
      (.note, otaFailed job 1 x.err (literal "download_failed") (some x.err))
    else (.check, [])
  | .check => otaVerifyStart slotSize job x
  | .verify ulOff hashed => otaVerifyStep P job slot ulOff hashed x
  | .finish _ =>
    if x.err = ESP_OK then
      (.restart, [otaEventVersion .otaApplied job.strVersion,
        .status ⟨job.strVersion, literal "applied" applied_nonzero, 100, none, none⟩])
    else
      (.note, [.status ⟨job.strVersion, literal "failed", 0, some (literal "finish_failed"),
        some x.err⟩, otaEventVersion .otaRejectedUnsigned job.strVersion])
  | pc => (pc, [])

/-- The calls that write to the slot. -/
def OtaPc.writes : OtaPc → Bool
  | .begin | .perform => true
  | _ => false

/-- The task after a write of another one. -/
def OtaTask.disturb (t : OtaTask) : OtaTask :=
  if t.pc.checking then { t with disturbed := true } else t

/-- The task behind a step that has brought it to `pc`. -/
def OtaTask.advance (t : OtaTask) (pc : OtaPc) : OtaTask :=
  { t with pc := pc, disturbed := pc.checking && t.disturbed }

/-- The activation in a step from `t` to `pc`. -/
def OtaTask.activation (t : OtaTask) (pc : OtaPc) (slot : Mem) : List OtaActivation :=
  match t.pc, pc with
  | .finish hashed, .restart => [⟨t.job, hashed, slot, t.disturbed⟩]
  | _, _ => []

/-- A step of task `i`. -/
def otaTaskStep (s : OtaSystem) (i : ℕ) (x : OtaAnswers) : OtaSystem :=
  match s.tasks[i]? with
  | none => s
  | some t =>
    let r := otaRunStep P slotSize t.job s.slot x t.pc
    let wrote := t.pc.writes && !x.writes.isEmpty
    { slot := if wrote then written s.slot x.writes else s.slot
      tasks := (if wrote then s.tasks.map OtaTask.disturb else s.tasks).set i (t.advance r.1)
      reports := s.reports ++ r.2
      activated := s.activated ++ t.activation r.1 s.slot }

/-- `xTaskCreate` of a task with this job. -/
def otaTaskCreate (s : OtaSystem) (job : OtaJob) : OtaSystem :=
  { s with tasks := s.tasks ++ [⟨job, .start, false, 0⟩] }

/-- The task has called `fountain_proto_ota_failed_note` and deletes itself. -/
def otaTaskNoted (s : OtaSystem) (i : ℕ) : OtaSystem :=
  match s.tasks[i]? with
  | none => s
  | some t =>
    if t.pc = .note then
      { s with tasks := s.tasks.set i { t with pc := .deleted, noted := t.noted + 1 } }
    else s

/-- The system with this slot before any update. -/
def otaBoot (slot : Mem) : OtaSystem := ⟨slot, [], [], []⟩

end Task

-- ════════════════════════════════════════════════════════════════════════
-- What is activated
-- ════════════════════════════════════════════════════════════════════════

section Attested

variable {P : Primitives} {slotSize : UInt32} {s : OtaSystem} {t : OtaTask} {i : ℕ} {x : OtaAnswers}

/-- As many bytes as the job says, which fit the slot, and have the hash of the job. -/
structure Attested (P : Primitives) (slotSize : UInt32) (job : OtaJob) (hashed : List UInt8) :
    Prop where
  length : hashed.length = job.ulSize.toNat
  pos : 0 < job.ulSize.toNat
  fits : job.ulSize ≤ slotSize
  sha256 : (fpAuthSha256Hex P hashed).map lower = job.strSha256.bytes.map lower

/-- What a check has established, whoever writes to the slot meanwhile. -/
def OtaPc.Bounded (P : Primitives) (slotSize : UInt32) (job : OtaJob) : OtaPc → Prop
  | .verify ulOff hashed =>
    hashed.length = ulOff.toNat ∧ 0 < job.ulSize.toNat ∧ job.ulSize ≤ slotSize ∧ ulOff ≤ job.ulSize
  | .finish hashed => Attested P slotSize job hashed
  | _ => True

/-- The slot begins with what the check has hashed. -/
def OtaPc.Current (slot : Mem) (pc : OtaPc) : Prop :=
  pc.hashed = Bytes.read slot 0 pc.hashed.length

/-- What holds of a task in every run. -/
structure OtaTask.Ok (P : Primitives) (slotSize : UInt32) (slot : Mem) (t : OtaTask) : Prop where
  bounded : t.pc.Bounded P slotSize t.job
  current : t.disturbed = false → t.pc.Current slot
  fresh : t.disturbed = true → t.pc.checking = true
  noted : t.noted = if t.pc = .deleted then 1 else 0

theorem OtaPc.current_idle {slot : Mem} {pc : OtaPc} (h : pc.checking = false) :
    pc.Current slot := by
  cases pc with
  | verify | finish => cases h
  | _ => rfl

/-- The check begins with an image of this size. -/
theorem otaVerifyStart_pc (job : OtaJob) (x : OtaAnswers) :
    (otaVerifyStart slotSize job x).1 = .note ∨
      (otaVerifyStart slotSize job x).1 = .verify 0 [] ∧ 0 < job.ulSize.toNat ∧
        job.ulSize ≤ slotSize := by
  unfold otaVerifyStart
  split_ifs with hbad hlarge
  · exact .inl rfl
  · exact .inl rfl
  · exact .inl rfl
  · rw [Bool.or_eq_true, not_or, beq_iff_eq] at hbad
    rw [Bool.or_eq_true, not_or, decide_eq_true_eq, UInt32.not_lt] at hlarge
    have hsize : 0 < job.ulSize.toNat := by
      rw [Nat.pos_iff_ne_zero]
      exact fun hzero => hbad.2 (UInt32.toNat_inj.mp hzero)
    exact .inr ⟨rfl, hsize, hlarge.2⟩

/-- What a turn of the loop does: it fails, hashes the next chunk of the slot, or ends with the
    hash of the offer. -/
theorem otaVerifyStep_pc {job : OtaJob} {slot : Mem} {ulOff : UInt32} {hashed : List UInt8}
    (hle : ulOff ≤ job.ulSize) (x : OtaAnswers) :
    (otaVerifyStep P job slot ulOff hashed x).1 = .note ∨
    (∃ ulN, (otaVerifyStep P job slot ulOff hashed x).1 =
        .verify (ulOff + ulN) (hashed ++ Bytes.read slot ulOff.toNat ulN.toNat) ∧
      (ulOff + ulN).toNat = ulOff.toNat + ulN.toNat ∧ ulOff + ulN ≤ job.ulSize) ∨
    (otaVerifyStep P job slot ulOff hashed x).1 = .finish hashed ∧ ulOff = job.ulSize ∧
      (fpAuthSha256Hex P hashed).map lower = job.strSha256.bytes.map lower := by
  unfold otaVerifyStep
  rw [UInt32.le_iff_toNat_le] at hle
  have hlt := job.ulSize.toNat_lt
  split_ifs with hmore hfull hread hread' hsame
  · have hleft : 4096 ≤ (job.ulSize - ulOff).toNat := (UInt32.lt_iff_toNat_lt.mp hfull).le
    rw [UInt32.toNat_sub_of_le _ _ (UInt32.le_iff_toNat_le.mpr hle)] at hleft
    have hsum : (ulOff + 4096).toNat = ulOff.toNat + 4096 := by
      rw [UInt32.toNat_add, show (4096 : UInt32).toNat = 4096 from rfl]
      exact Nat.mod_eq_of_lt (by omega)
    refine .inr (.inl ⟨4096, rfl, hsum, ?_⟩)
    rw [UInt32.le_iff_toNat_le, hsum]
    omega
  · exact .inl rfl
  · have hall : ulOff + (job.ulSize - ulOff) = job.ulSize := by
      rw [UInt32.add_comm, UInt32.sub_add_cancel]
    refine .inr (.inl ⟨job.ulSize - ulOff, rfl, ?_, ?_⟩)
    · rw [hall, UInt32.toNat_sub_of_le _ _ (UInt32.le_iff_toNat_le.mpr hle)]
      omega
    · rw [hall]
      exact UInt32.le_refl _
  · exact .inl rfl
  · rw [UInt32.not_lt, UInt32.le_iff_toNat_le] at hmore
    exact .inr (.inr ⟨rfl, UInt32.toNat_inj.mp (by omega), hsame⟩)
  · exact .inl rfl

/-- Where a task is that checks: it began this check, or has made one turn of it. -/
theorem otaRunStep_bounded {job : OtaJob} {slot : Mem} {pc : OtaPc}
    (h : pc.Bounded P slotSize job) (x : OtaAnswers) :
    (otaRunStep P slotSize job slot x pc).1.Bounded P slotSize job := by
  cases pc with
  | start | restart | note | deleted => trivial
  | begin | perform | finish =>
    rw [otaRunStep]
    split_ifs <;> trivial
  | check =>
    rw [otaRunStep]
    rcases otaVerifyStart_pc job x with hpc | ⟨hpc, hpos, hfits⟩
    · rw [hpc]
      trivial
    · rw [hpc]
      exact ⟨rfl, hpos, hfits, UInt32.zero_le⟩
  | verify ulOff hashed =>
    obtain ⟨hlength, hpos, hfits, hle⟩ := h
    rw [otaRunStep]
    rcases otaVerifyStep_pc hle x with hpc | ⟨ulN, hpc, hsum, hle'⟩ | ⟨hpc, hend, hsame⟩
    · rw [hpc]
      trivial
    · rw [hpc]
      refine ⟨?_, hpos, hfits, hle'⟩
      rw [List.length_append, Bytes.length_read, hlength, hsum]
    · rw [hpc]
      exact ⟨hend ▸ hlength, hpos, hfits, hsame⟩

/-- A turn of the loop extends what has been hashed by the next chunk of the slot. -/
theorem otaRunStep_current {job : OtaJob} {slot : Mem} {pc : OtaPc}
    (hbounded : pc.Bounded P slotSize job) (h : pc.Current slot) (x : OtaAnswers) :
    (otaRunStep P slotSize job slot x pc).1.Current slot := by
  cases pc with
  | start | restart | note | deleted => rfl
  | begin | perform | finish =>
    rw [otaRunStep]
    split_ifs <;> rfl
  | check =>
    rw [otaRunStep]
    rcases otaVerifyStart_pc job x with hpc | ⟨hpc, -⟩ <;> rw [hpc] <;> rfl
  | verify ulOff hashed =>
    obtain ⟨hlength, -, -, hle⟩ := hbounded
    have hhashed : hashed = Bytes.read slot 0 hashed.length := h
    rw [otaRunStep]
    rcases otaVerifyStep_pc hle x with hpc | ⟨ulN, hpc, -⟩ | ⟨hpc, -⟩
    · rw [hpc]
      rfl
    · rw [hpc]
      rw [OtaPc.Current, OtaPc.hashed, List.length_append, Bytes.length_read, Bytes.read_add,
        Nat.zero_add, ← hhashed, hlength]
    · rw [hpc]
      exact h

theorem otaRunStep_ne_deleted {job : OtaJob} {slot : Mem} {pc : OtaPc} (h : pc ≠ .deleted) :
    (otaRunStep P slotSize job slot x pc).1 ≠ .deleted := by
  cases pc with
  | deleted => exact absurd rfl h
  | start | restart | note => simp [otaRunStep]
  | begin | perform | finish => rw [otaRunStep]; split_ifs <;> simp
  | check =>
    rw [otaRunStep, otaVerifyStart]
    split_ifs <;> simp [otaMismatch]
  | verify ulOff hashed =>
    rw [otaRunStep, otaVerifyStep]
    split_ifs <;> simp [otaMismatch]

theorem OtaTask.Ok.disturb (h : t.Ok P slotSize s.slot) (slot : Mem) :
    t.disturb.Ok P slotSize slot := by
  unfold OtaTask.disturb
  split_ifs with hchecking
  · exact ⟨h.bounded, by simp, fun _ => hchecking, h.noted⟩
  · rw [Bool.not_eq_true] at hchecking
    exact ⟨h.bounded, fun _ => OtaPc.current_idle hchecking, h.fresh, h.noted⟩

theorem OtaTask.Ok.advance (h : t.Ok P slotSize s.slot) (x : OtaAnswers) :
    (t.advance (otaRunStep P slotSize t.job s.slot x t.pc).1).Ok P slotSize s.slot := by
  refine ⟨otaRunStep_bounded h.bounded x, fun hd => ?_,
    fun hd => (Bool.and_eq_true_iff.mp hd).1, ?_⟩
  · rcases Bool.and_eq_false_iff.mp hd with hnot | hd
    · exact OtaPc.current_idle hnot
    · exact otaRunStep_current h.bounded (h.current hd) x
  · simp only [OtaTask.advance]
    rw [h.noted]
    by_cases hpc : t.pc = .deleted
    · simp [hpc, otaRunStep]
    · simp [hpc, otaRunStep_ne_deleted hpc]

/-- A task that has just written has checked nothing yet. -/
theorem OtaTask.Ok.advance_writes (h : t.Ok P slotSize s.slot) (hwrites : t.pc.writes = true)
    (x : OtaAnswers) (slot : Mem) :
    (t.advance (otaRunStep P slotSize t.job s.slot x t.pc).1).Ok P slotSize slot := by
  obtain ⟨hbounded, -, hfresh, hnoted⟩ := h.advance x
  refine ⟨hbounded, fun _ => ?_, hfresh, hnoted⟩
  simp only [OtaTask.advance]
  cases hpc : t.pc with
  | begin =>
    rw [otaRunStep]
    split_ifs <;> rfl
  | perform =>
    rw [otaRunStep]
    split_ifs <;> rfl
  | start | check | verify | finish | restart | note | deleted =>
    simp [hpc, OtaPc.writes] at hwrites

theorem map_job_set {tasks : List OtaTask} {t' : OtaTask}
    (ht : (tasks.map OtaTask.job)[i]? = some t'.job) :
    (tasks.set i t').map OtaTask.job = tasks.map OtaTask.job := by
  rw [List.map_set]
  refine List.ext_getElem? fun j => ?_
  by_cases hij : i = j
  · subst hij
    rw [List.getElem?_set_self', ht]
    rfl
  · rw [List.getElem?_set_ne hij]

@[simp] theorem disturb_job (t : OtaTask) : t.disturb.job = t.job := by
  rw [OtaTask.disturb]
  split_ifs <;> rfl

theorem map_disturb_job (tasks : List OtaTask) :
    (tasks.map OtaTask.disturb).map OtaTask.job = tasks.map OtaTask.job := by
  rw [List.map_map]
  exact List.map_congr_left fun t _ => disturb_job t

/-- What holds of the update tasks in every run that has created tasks for these jobs. -/
structure OtaInv (P : Primitives) (slotSize : UInt32) (created : List OtaJob) (s : OtaSystem) :
    Prop where
  jobs : s.tasks.map OtaTask.job = created
  tasks : ∀ t ∈ s.tasks, t.Ok P slotSize s.slot
  activated : ∀ a ∈ s.activated, a.job ∈ created ∧ Attested P slotSize a.job a.hashed ∧
    (a.disturbed = false → a.hashed = Bytes.read a.image 0 a.hashed.length)

variable {created : List OtaJob}

theorem otaInv_boot (slot : Mem) : OtaInv P slotSize [] (otaBoot slot) :=
  ⟨rfl, by simp [otaBoot], by simp [otaBoot]⟩

theorem OtaInv.create (h : OtaInv P slotSize created s) (job : OtaJob) :
    OtaInv P slotSize (created ++ [job]) (otaTaskCreate s job) := by
  refine ⟨by simp [otaTaskCreate, h.jobs], fun t ht => ?_, fun a ha => ?_⟩
  · rcases List.mem_append.mp ht with ht | ht
    · exact h.tasks t ht
    · rw [List.mem_singleton.mp ht]
      exact ⟨trivial, fun _ => rfl, by simp, rfl⟩
  · exact ⟨List.mem_append_left _ (h.activated a ha).1, (h.activated a ha).2⟩

theorem OtaInv.noted (h : OtaInv P slotSize created s) (i : ℕ) :
    OtaInv P slotSize created (otaTaskNoted s i) := by
  unfold otaTaskNoted
  cases ht : s.tasks[i]? with
  | none => exact h
  | some t =>
    simp only
    split_ifs with hpc
    · have hok := h.tasks t (List.mem_of_getElem? ht)
      refine ⟨(map_job_set (by simp [ht])).trans h.jobs, fun t' ht' => ?_, h.activated⟩
      · rcases List.mem_or_eq_of_mem_set ht' with ht' | rfl
        · exact h.tasks t' ht'
        · refine ⟨trivial, fun _ => rfl, fun hd => ?_, by simp [hok.noted, hpc]⟩
          have := hok.fresh hd
          rw [hpc] at this
          cases this
    · exact h

/-- An activation of a step is that of a task whose check has passed. -/
theorem OtaInv.activation (h : OtaInv P slotSize created s)
    (ht : s.tasks[i]? = some t) {pc : OtaPc} :
    ∀ a ∈ t.activation pc s.slot, a.job ∈ created ∧ Attested P slotSize a.job a.hashed ∧
      (a.disturbed = false → a.hashed = Bytes.read a.image 0 a.hashed.length) := by
  intro a ha
  have hmem := List.mem_of_getElem? ht
  have hok := h.tasks t hmem
  have hjob : t.job ∈ created := h.jobs ▸ List.mem_map_of_mem hmem
  unfold OtaTask.activation at ha
  split at ha
  · next hashed hfinish =>
    have hbounded := hok.bounded
    have hcurrent := hok.current
    rw [hfinish] at hbounded hcurrent
    rw [List.mem_singleton.mp ha]
    exact ⟨hjob, hbounded, hcurrent⟩
  · cases ha

theorem OtaInv.step (h : OtaInv P slotSize created s) (i : ℕ) (x : OtaAnswers) :
    OtaInv P slotSize created (otaTaskStep P slotSize s i x) := by
  unfold otaTaskStep
  cases ht : s.tasks[i]? with
  | none => exact h
  | some t =>
    have hok := h.tasks t (List.mem_of_getElem? ht)
    refine ⟨?_, fun t' ht' => ?_, fun a ha => ?_⟩
    · simp only
      split_ifs
      · rw [map_job_set (by simp [ht, OtaTask.advance]), map_disturb_job, h.jobs]
      · rw [map_job_set (by simp [ht, OtaTask.advance]), h.jobs]
    · simp only at ht' ⊢
      split_ifs at ht' ⊢ with hwrote
      · rcases List.mem_or_eq_of_mem_set ht' with ht' | rfl
        · obtain ⟨t'', ht'', rfl⟩ := List.mem_map.mp ht'
          exact (h.tasks t'' ht'').disturb _
        · exact hok.advance_writes (Bool.and_eq_true_iff.mp hwrote).1 x _
      · rcases List.mem_or_eq_of_mem_set ht' with ht' | rfl
        · exact h.tasks t' ht'
        · exact hok.advance x
    · rcases List.mem_append.mp ha with ha | ha
      · exact h.activated a ha
      · exact h.activation ht a ha

end Attested

end Fountainer.Network
