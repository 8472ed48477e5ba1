import Fountainer.Datapoints.Catalog
import Fountainer.Lib.Hex
import Fountainer.Lib.Runs
import Mathlib.Algebra.Order.Group.Unbundled.Abs
import Mathlib.Algebra.Order.Ring.Rat
import Mathlib.Data.List.Nodup
import Mathlib.Data.Rat.Cast.Defs

/-!
# Reports

The bodies of `dp_report` and `dp_read`: full, on change against the baseline `s_last`, and by
name. A slot holds a value of its type, a `float` an exact number.
-/

namespace Fountainer.Datapoints

/-- What a slot of the image holds; a string has its 64 bytes. -/
def DpType.Slot : DpType → Type
  | .bool | .u8 | .enum => UInt8
  | .u16 => UInt16
  | .u32 => UInt32
  | .u64 => UInt64
  | .i8 => Int8
  | .i16 => Int16
  | .i32 => Int32
  | .f32 => ℚ
  | .str => List UInt8

instance : (t : DpType) → DecidableEq t.Slot
  | .bool | .u8 | .enum => inferInstanceAs (DecidableEq UInt8)
  | .u16 => inferInstanceAs (DecidableEq UInt16)
  | .u32 => inferInstanceAs (DecidableEq UInt32)
  | .u64 => inferInstanceAs (DecidableEq UInt64)
  | .i8 => inferInstanceAs (DecidableEq Int8)
  | .i16 => inferInstanceAs (DecidableEq Int16)
  | .i32 => inferInstanceAs (DecidableEq Int32)
  | .f32 => inferInstanceAs (DecidableEq ℚ)
  | .str => inferInstanceAs (DecidableEq (List UInt8))

/-- `dp_image_t`, slot by slot. -/
abbrev DpImage := (d : DpDesc) → d.type.Slot

/-- A reported value. -/
inductive DpValue where
  | bool (b : Bool)
  | int (n : ℤ)
  | num (x : ℚ)
  | string (s : List UInt8)
  deriving DecidableEq

/-- The number that a finite `float` constant stands for. -/
def floatValue (x : Float32) : ℚ :=
  let bits : ℕ := x.toBits.toNat
  let mantissa : ℕ := bits % 2 ^ 23
  let exponent : ℕ := bits / 2 ^ 23 % 2 ^ 8
  let magnitude : ℚ :=
    if exponent = 0 then mantissa / 2 ^ 149 else (2 ^ 23 + mantissa) * 2 ^ exponent / 2 ^ 150
  if bits / 2 ^ 31 = 0 then magnitude else -magnitude

/-- `%016llX`. -/
def hex16 (v : UInt64) : List UInt8 := Hex.text Hex.upperDigit (Bytes.leU64 v).reverse

/-- `dp_value_to_json`, type by type. -/
def slotToJson : (t : DpType) → t.Slot → DpValue
  | .bool, v => .bool (UInt8.toNat v != 0)
  | .u8, v => .int (UInt8.toNat v)
  | .enum, v => .int (UInt8.toNat v)
  | .i8, v => .int (Int8.toInt v)
  | .u16, v => .int (UInt16.toNat v)
  | .i16, v => .int (Int16.toInt v)
  | .u32, v => .int (UInt32.toNat v)
  | .i32, v => .int (Int32.toInt v)
  | .f32, v => .num v
  | .u64, v => .string (hex16 v)
  | .str, v => .string (List.takeWhile (· ≠ (0 : UInt8)) v)

/-- `dp_value_to_json`. -/
def dpValueToJson (d : DpDesc) (img : DpImage) : DpValue := slotToJson d.type (img d)

/-- The body of a message: names and values, in order. -/
abbrev DpBody := List (String × DpValue)

variable (rows : List DpPoint)

/-- The points of the reports. -/
def volatilePoints : List DpDesc := (gDp rows).filter fun d => d.persist = .volatile

/-- `dp_read_into`. An entry `none` of the names is one that is no string. -/
def dpReadInto (img : DpImage) (names : List (Option String)) : DpBody :=
  if names = [] then (gDp rows).map fun d => (d.name, dpValueToJson d img)
  else names.filterMap fun name =>
    (name.bind (dpFind rows)).map fun d => (d.name, dpValueToJson d img)

/-- `dp_report_full_noreset`. -/
def dpReportFullNoreset (img : DpImage) : DpBody :=
  (volatilePoints rows).map fun d => (d.name, dpValueToJson d img)

/-- The point can be reported on change. -/
def DpDesc.eligible (d : DpDesc) : Bool :=
  (d.type = .bool || d.type = .enum) || decide (0 < floatValue d.deadband)

/-- The value has moved: by the deadband for a `float` that has one, at all for the rest. -/
def slotChanged (deadband : ℚ) : (t : DpType) → t.Slot → t.Slot → Bool
  | .f32, (cur : ℚ), (last : ℚ) =>
    if 0 < deadband then decide (deadband ≤ |cur - last|) else decide (cur ≠ last)
  | _, cur, last => decide (cur ≠ last)

/-- One turn of the loop of `dp_report_changes`. -/
def reportChange (img : DpImage) (acc : DpBody × DpImage) (d : DpDesc) : DpBody × DpImage :=
  if d.eligible && slotChanged (floatValue d.deadband) d.type (img d) (acc.2 d) then
    (acc.1 ++ [(d.name, dpValueToJson d img)], Function.update acc.2 d (img d))
  else acc

/-- `dp_report_changes`: the body and the new baseline. -/
def dpReportChanges (img last : DpImage) : DpBody × DpImage :=
  (volatilePoints rows).foldl (reportChange img) ([], last)

-- ════════════════════════════════════════════════════════════════════════
-- The cloud's mirror
-- ════════════════════════════════════════════════════════════════════════

/-- The latest value of each name. -/
abbrev Mirror := String → Option DpValue

/-- A delivered body. -/
def Mirror.deliver (m : Mirror) (body : DpBody) : Mirror :=
  body.foldl (fun m kv => Function.update m kv.1 (some kv.2)) m

/-- The store, the baseline `s_last`, the mirror of the cloud, and for each name the value that
    a named reply delivered after the name's last report, if one did. -/
structure Reporting where
  store : DpImage
  last : DpImage
  mirror : Mirror
  asked : Mirror

/-- Updates of the store, and what the sessions ask for: the cloud a snapshot, of some names
    or full, or the changes; the local session a snapshot. -/
inductive ReportOp where
  | update (img : DpImage)
  | snapshot (names : List (Option String))
  | changes
  | localSnapshot (names : List (Option String))

/-- A report to the cloud with the body: it answers for the names in it. -/
def Reporting.reported (s : Reporting) (body : DpBody) : Reporting :=
  { s with
    mirror := s.mirror.deliver body
    asked := fun name => if name ∈ body.map Prod.fst then none else s.asked name }

/-- `dp_report_full`, delivered. -/
def dpReportFull (s : Reporting) : Reporting :=
  { s.reported (dpReportFullNoreset rows s.store) with last := s.store }

/-- `cb_fill_snapshot`, delivered: by name, or `dp_report_full` without names. -/
def cbFillSnapshot (s : Reporting) (names : List (Option String)) : Reporting :=
  if names = [] then dpReportFull rows s
  else
    let body := dpReadInto rows s.store names
    { s with mirror := s.mirror.deliver body, asked := s.asked.deliver body }

/-- One step. A local snapshot leaves the baseline and the cloud alone. -/
def reportStep (s : Reporting) : ReportOp → Reporting
  | .update img => { s with store := img }
  | .snapshot names => cbFillSnapshot rows s names
  | .changes =>
    let (body, last) := dpReportChanges rows s.store s.last
    { s.reported body with last := last }
  | .localSnapshot _ => s

/-- The delivered value is that of a BOOL or ENUM slot, or nearer than the deadband to that of a
    `float` slot with a deadband; of the other slots nothing is asked. -/
def slotAgrees (deadband : ℚ) : (t : DpType) → t.Slot → DpValue → Prop
  | .bool, cur, v => v = slotToJson .bool cur
  | .enum, cur, v => v = slotToJson .enum cur
  | .f32, (cur : ℚ), v => 0 < deadband → ∃ x, v = .num x ∧ |x - cur| < deadband
  | _, _, _ => True

/-- The mirror shows the store, at the points that are reported on change. -/
def Reporting.InSync (s : Reporting) : Prop :=
  ∀ d ∈ volatilePoints rows, d.eligible = true →
    ∃ v, s.mirror d.name = some v ∧ slotAgrees (floatValue d.deadband) d.type (s.store d) v

/-- The operation is `dp_report_full` or `dp_report_changes`. -/
def ReportOp.isReport : ReportOp → Bool
  | .snapshot names => names = []
  | .changes => true
  | .update _ | .localSnapshot _ => false

/-- At a report of the changes, no point whose value the cloud has from a named reply is back at
    its baseline with that value gone. -/
def Settled (s : Reporting) (op : ReportOp) : Prop :=
  op = .changes → ∀ d ∈ volatilePoints rows, d.eligible = true →
    slotChanged (floatValue d.deadband) d.type (s.store d) (s.last d) = false →
    ∀ v, s.asked d.name = some v → slotAgrees (floatValue d.deadband) d.type (s.store d) v

-- ════════════════════════════════════════════════════════════════════════
-- Deliveries
-- ════════════════════════════════════════════════════════════════════════

variable {rows}

theorem deliver_of_not_mem {m : Mirror} {body : DpBody} {name : String}
    (h : name ∉ body.map Prod.fst) : m.deliver body name = m name := by
  induction body generalizing m with
  | nil => rfl
  | cons kv body ih =>
    rw [List.map_cons, List.mem_cons, not_or] at h
    exact (ih h.2).trans (Function.update_of_ne h.1 _ _)

theorem deliver_of_mem {m : Mirror} {body : DpBody} {name : String} {v : DpValue}
    (hnames : (body.map Prod.fst).Nodup) (h : (name, v) ∈ body) : m.deliver body name = some v := by
  induction body generalizing m with
  | nil => cases h
  | cons kv body ih =>
    rw [List.map_cons, List.nodup_cons] at hnames
    rcases List.mem_cons.mp h with rfl | h
    · exact (deliver_of_not_mem hnames.1).trans (Function.update_self _ _ _)
    · exact ih hnames.2 h

/-- A body leaves a name alone or sets it, whatever was known before. -/
theorem deliver_cases (m m' : Mirror) (body : DpBody) (name : String) :
    (m.deliver body name = m name ∧ m'.deliver body name = m' name) ∨
      ∃ v, m.deliver body name = some v ∧ m'.deliver body name = some v := by
  induction body generalizing m m' with
  | nil => exact .inl ⟨rfl, rfl⟩
  | cons kv body ih =>
    rcases ih (Function.update m kv.1 (some kv.2)) (Function.update m' kv.1 (some kv.2)) with
      ⟨h, h'⟩ | hset
    · by_cases hname : name = kv.1
      · subst hname
        exact .inr ⟨kv.2, h.trans (Function.update_self ..), h'.trans (Function.update_self ..)⟩
      · exact .inl ⟨h.trans (Function.update_of_ne hname ..),
          h'.trans (Function.update_of_ne hname ..)⟩
    · exact .inr hset

/-- The point has moved away from the baseline. -/
def DpDesc.moved (d : DpDesc) (img last : DpImage) : Bool :=
  d.eligible && slotChanged (floatValue d.deadband) d.type (img d) (last d)

/-- The loop reports the points that have moved, and moves the baseline of these. -/
theorem foldl_reportChange {img last : DpImage} {ds : List DpDesc} (hds : ds.Nodup)
    (acc : DpBody × DpImage) (hacc : ∀ d ∈ ds, acc.2 d = last d) :
    ds.foldl (reportChange img) acc =
      (acc.1 ++ (ds.filter (·.moved img last)).map fun d => (d.name, dpValueToJson d img),
        fun d => if d ∈ ds ∧ d.moved img last = true then img d else acc.2 d) := by
  induction ds generalizing acc with
  | nil => simp
  | cons d ds ih =>
    rw [List.nodup_cons] at hds
    have hd : acc.2 d = last d := hacc d List.mem_cons_self
    rw [List.foldl_cons]
    by_cases hmoved : d.moved img last = true
    · have hturn : reportChange img acc d =
          (acc.1 ++ [(d.name, dpValueToJson d img)], Function.update acc.2 d (img d)) := by
        rw [reportChange, hd]
        exact if_pos hmoved
      rw [hturn, ih hds.2]
      · refine Prod.ext ?_ (funext fun e => ?_)
        · simp [hmoved]
        · by_cases he : e = d
          · subst he
            simp [hmoved, hds.1]
          · simp [he]
      · intro e he
        have hne : e ≠ d := fun h => hds.1 (h ▸ he)
        exact (Function.update_of_ne hne _ _).trans (hacc e (List.mem_cons_of_mem _ he))
    · have hturn : reportChange img acc d = acc := by
        rw [reportChange, hd]
        exact if_neg hmoved
      rw [hturn, ih hds.2 acc fun e he => hacc e (List.mem_cons_of_mem _ he)]
      refine Prod.ext ?_ (funext fun e => ?_)
      · simp [hmoved]
      · by_cases he : e = d
        · subst he
          simp [hmoved]
        · simp [he]

-- ════════════════════════════════════════════════════════════════════════
-- The mirror along a run
-- ════════════════════════════════════════════════════════════════════════

theorem slotAgrees_self (deadband : ℚ) (t : DpType) (cur : t.Slot) :
    slotAgrees deadband t cur (slotToJson t cur) := by
  cases t with
  | bool => rfl
  | enum => rfl
  | f32 =>
    intro hpos
    have hzero (x : ℚ) : |x - x| < deadband := by simpa using hpos
    exact ⟨cur, rfl, hzero cur⟩
  | _ => trivial

/-- Where nothing has changed, the baseline still shows the value. -/
theorem slotAgrees_of_unchanged {deadband : ℚ} {t : DpType} {cur last : t.Slot}
    (h : slotChanged deadband t cur last = false) :
    slotAgrees deadband t cur (slotToJson t last) := by
  cases t with
  | bool =>
    obtain rfl : cur = last := by simpa [slotChanged] using h
    rfl
  | enum =>
    obtain rfl : cur = last := by simpa [slotChanged] using h
    rfl
  | f32 =>
    intro hpos
    have hnear (x y : ℚ) (h : slotChanged deadband .f32 x y = false) : |y - x| < deadband := by
      rw [abs_sub_comm]
      simpa [slotChanged, hpos] using h
    exact ⟨last, rfl, hnear cur last h⟩
  | _ => trivial

/-- What the cloud knows of a point: the baseline, or what a named reply said after it. -/
structure Known (rows : List DpPoint) (s : Reporting) : Prop where
  baseline : ∀ d ∈ volatilePoints rows, s.asked d.name = none →
    s.mirror d.name = some (dpValueToJson d s.last)
  asked : ∀ d ∈ volatilePoints rows, ∀ v, s.asked d.name = some v → s.mirror d.name = some v

theorem eq_of_name_eq (hnames : ((volatilePoints rows).map (·.name)).Nodup) {d e : DpDesc}
    (hd : d ∈ volatilePoints rows) (he : e ∈ volatilePoints rows) (h : d.name = e.name) : d = e :=
  List.inj_on_of_nodup_map hnames hd he h

theorem mem_body {ds : List DpDesc} {img : DpImage} {name : String} :
    name ∈ (ds.map fun d => (d.name, dpValueToJson d img)).map Prod.fst ↔
    ∃ d ∈ ds, d.name = name := by
  simp

/-- After a full report the cloud has the store, and the baseline is the store. -/
theorem dpReportFull_known (hnames : ((volatilePoints rows).map (·.name)).Nodup) (s : Reporting) :
    Known rows (dpReportFull rows s) ∧ (dpReportFull rows s).InSync rows := by
  have hkeys : ((dpReportFullNoreset rows s.store).map Prod.fst).Nodup := by
    simpa [dpReportFullNoreset, Function.comp_def] using hnames
  have hmirror : ∀ d ∈ volatilePoints rows,
      (dpReportFull rows s).mirror d.name = some (dpValueToJson d s.store) := fun d hd =>
    deliver_of_mem hkeys (List.mem_map.mpr ⟨d, hd, rfl⟩)
  have hasked : ∀ d ∈ volatilePoints rows, (dpReportFull rows s).asked d.name = none := fun d hd =>
    if_pos (mem_body.mpr ⟨d, hd, rfl⟩)
  refine ⟨⟨fun d hd _ => hmirror d hd, fun d hd v hv => ?_⟩, fun d hd _ => ?_⟩
  · rw [hasked d hd] at hv
    cases hv
  · exact ⟨_, hmirror d hd, slotAgrees_self _ _ _⟩

/-- `dp_report_changes` on a point: reported if it has moved, else left as it is. -/
theorem changes_point (hnames : ((volatilePoints rows).map (·.name)).Nodup) (s : Reporting)
    {d : DpDesc} (hd : d ∈ volatilePoints rows) :
    if d.moved s.store s.last = true then
      (reportStep rows s .changes).mirror d.name = some (dpValueToJson d s.store) ∧
        (reportStep rows s .changes).last d = s.store d ∧
        (reportStep rows s .changes).asked d.name = none
    else
      (reportStep rows s .changes).mirror d.name = s.mirror d.name ∧
        (reportStep rows s .changes).last d = s.last d ∧
        (reportStep rows s .changes).asked d.name = s.asked d.name := by
  have hfold : dpReportChanges rows s.store s.last = _ :=
    foldl_reportChange (List.Nodup.of_map _ hnames) ([], s.last) fun _ _ => rfl
  have hstep :
    reportStep rows s .changes = { s.reported (dpReportChanges rows s.store s.last).1 with
      last := (dpReportChanges rows s.store s.last).2 } := rfl
  have hbody : (((volatilePoints rows).filter (·.moved s.store s.last)).map fun d =>
      (d.name, dpValueToJson d s.store)).map Prod.fst = ((volatilePoints rows).filter
        (·.moved s.store s.last)).map (·.name) := by simp
  have hkeys : ((((volatilePoints rows).filter (·.moved s.store s.last)).map fun d =>
      (d.name, dpValueToJson d s.store)).map Prod.fst).Nodup := by
    rw [hbody]
    exact hnames.sublist (List.filter_sublist.map _)
  rw [hstep, hfold]
  simp only [List.nil_append]
  split
  · next hmoved =>
    have hmem : d ∈ (volatilePoints rows).filter (·.moved s.store s.last) :=
      List.mem_filter.mpr ⟨hd, hmoved⟩
    exact ⟨deliver_of_mem hkeys (List.mem_map.mpr ⟨d, hmem, rfl⟩), if_pos ⟨hd, hmoved⟩,
      if_pos (mem_body.mpr ⟨d, hmem, rfl⟩)⟩
  · next hmoved =>
    have hnot : d.name ∉ (((volatilePoints rows).filter (·.moved s.store s.last)).map fun d =>
        (d.name, dpValueToJson d s.store)).map Prod.fst := by
      rw [mem_body]
      rintro ⟨e, he, hname⟩
      obtain ⟨he, hemoved⟩ := List.mem_filter.mp he
      exact hmoved (eq_of_name_eq hnames he hd hname ▸ hemoved)
    exact ⟨deliver_of_not_mem hnot, if_neg fun h => hmoved h.2, if_neg hnot⟩

theorem reportStep_known (hnames : ((volatilePoints rows).map (·.name)).Nodup) {s : Reporting}
    (h : Known rows s) (op : ReportOp) : Known rows (reportStep rows s op) := by
  cases op with
  | update img => exact ⟨h.baseline, h.asked⟩
  | localSnapshot names => exact h
  | snapshot names =>
    rw [reportStep, cbFillSnapshot]
    split
    · exact (dpReportFull_known hnames s).1
    · refine ⟨fun d hd hnone => ?_, fun d hd v hv => ?_⟩
      · rcases deliver_cases s.mirror s.asked (dpReadInto rows s.store names) d.name with
          ⟨hm, ha⟩ | ⟨v, -, ha⟩
        · exact hm.trans (h.baseline d hd (ha.symm.trans hnone))
        · exact absurd (ha.symm.trans hnone) (by simp)
      · rcases deliver_cases s.mirror s.asked (dpReadInto rows s.store names) d.name with
          ⟨hm, ha⟩ | ⟨w, hm, ha⟩
        · exact hm.trans (h.asked d hd v (ha.symm.trans hv))
        · exact hm.trans (ha.symm.trans hv)
  | changes =>
    refine ⟨fun d hd hnone => ?_, fun d hd v hv => ?_⟩
    · have hpoint := changes_point hnames s hd
      split at hpoint
      · obtain ⟨hm, hl, -⟩ := hpoint
        rw [hm, dpValueToJson, dpValueToJson, hl]
      · obtain ⟨hm, hl, ha⟩ := hpoint
        rw [hm, dpValueToJson, hl]
        exact h.baseline d hd (ha.symm.trans hnone)
    · have hpoint := changes_point hnames s hd
      split at hpoint
      · exact absurd (hpoint.2.2.symm.trans hv) (by simp)
      · obtain ⟨hm, -, ha⟩ := hpoint
        exact hm.trans (h.asked d hd v (ha.symm.trans hv))

/-- After a report the mirror shows the store, exactly when no point has returned. -/
theorem reportStep_inSync_iff (hnames : ((volatilePoints rows).map (·.name)).Nodup) {s : Reporting}
    (h : Known rows s) (op : ReportOp) :
    (op.isReport = true → (reportStep rows s op).InSync rows) ↔ Settled rows s op := by
  cases op with
  | update img => exact ⟨fun _ => nofun, fun _ => nofun⟩
  | localSnapshot names => exact ⟨fun _ => nofun, fun _ => nofun⟩
  | snapshot names =>
    refine ⟨fun _ => nofun, fun _ hreport => ?_⟩
    have hfull : names = [] := by simpa [ReportOp.isReport] using hreport
    rw [reportStep, cbFillSnapshot, if_pos hfull]
    exact (dpReportFull_known hnames s).2
  | changes =>
    constructor
    · intro hsync _ d hd heligible hsame v hv
      obtain ⟨w, hw, hagrees⟩ := hsync rfl d hd heligible
      have hpoint := changes_point hnames s hd
      rw [if_neg (by simp [DpDesc.moved, hsame])] at hpoint
      have hmirror := h.asked d hd v hv
      rw [hpoint.1, hmirror] at hw
      exact Option.some.inj hw ▸ hagrees
    · intro hsettled _ d hd heligible
      have hpoint := changes_point hnames s hd
      split at hpoint
      · exact ⟨_, hpoint.1, slotAgrees_self _ _ _⟩
      · next hmoved =>
        have hsame : slotChanged (floatValue d.deadband) d.type (s.store d) (s.last d) = false := by
          simpa [DpDesc.moved, heligible] using hmoved
        change ∃ v, (reportStep rows s .changes).mirror d.name = some v ∧
          slotAgrees (floatValue d.deadband) d.type (s.store d) v
        rw [hpoint.1]
        cases hasked : s.asked d.name with
        | none => exact ⟨_, h.baseline d hd hasked, slotAgrees_of_unchanged hsame⟩
        | some v => exact ⟨v, h.asked d hd v hasked, hsettled rfl d hd heligible hsame v hasked⟩

theorem dpList_volatile_names : ((volatilePoints dpList).map (·.name)).Nodup :=
  (List.filter_sublist.map _).nodup (Catalogue.gDp_names ⟨dpList, dpList_names⟩)

/-- A run after a full report: its reports leave the mirror in step with the store exactly when
    no point has returned. -/
theorem run_inSync_iff (hnames : ((volatilePoints rows).map (·.name)).Nodup) (s : Reporting)
    (ops : List ReportOp) :
    Machine.Guarded (reportStep rows)
        (fun s op => op.isReport = true → (reportStep rows s op).InSync rows)
        (dpReportFull rows s) ops ↔
      Machine.Guarded (reportStep rows) (Settled rows) (dpReportFull rows s) ops :=
  Machine.Guarded.congr (reportStep rows) (P := Known rows)
  (fun _ op h => reportStep_known hnames h op)
    (fun _ op h => reportStep_inSync_iff hnames h op) (dpReportFull_known hnames s).1 ops

/-- **The mirror of the cloud.** From a full report on, the mirror shows the store after every
    report, exactly when at no report of the changes a point is back at its baseline while
    the cloud still has another value from a named reply. -/
theorem mirror_in_sync_iff (s : Reporting) (ops : List ReportOp) :
    (dpReportFull dpList s).InSync dpList ∧
      (Machine.Guarded (reportStep dpList)
          (fun s op => op.isReport = true → (reportStep dpList s op).InSync dpList)
          (dpReportFull dpList s) ops ↔
        Machine.Guarded (reportStep dpList) (Settled dpList) (dpReportFull dpList s) ops) :=
  ⟨(dpReportFull_known dpList_volatile_names s).2, run_inSync_iff dpList_volatile_names s ops⟩

/-- All switches in one position, everything else zero. -/
def switchImage (position : UInt8) : DpImage := fun d => slot d.type
where
  slot : (t : DpType) → t.Slot
    | .bool => position
    | .u8 | .enum => (0 : UInt8)
    | .u16 => (0 : UInt16)
    | .u32 => (0 : UInt32)
    | .u64 => (0 : UInt64)
    | .i8 => (0 : Int8)
    | .i16 => (0 : Int16)
    | .i32 => (0 : Int32)
    | .f32 => (0 : ℚ)
    | .str => List.replicate dpStrMax (0 : UInt8)

/-- The switches are off. -/
def switchedOff : Reporting where
  store := switchImage 0
  last := switchImage 0
  mirror _ := none
  asked _ := none

theorem slotChanged_self (deadband : ℚ) (t : DpType) (v : t.Slot) :
    slotChanged deadband t v v = false := by
  cases t with
  | f32 =>
    have hself (x : ℚ) : slotChanged deadband .f32 x x = false := by
      by_cases hpos : 0 < deadband <;> simp [slotChanged, hpos]
    exact hself v
  | _ => simp [slotChanged]

theorem switch_disagrees (deadband : ℚ) {t : DpType} (h : t = .bool) :
    ¬ slotAgrees deadband t (switchImage.slot 0 t) (slotToJson t (switchImage.slot 1 t)) := by
  subst h
  simp [slotAgrees, slotToJson, switchImage.slot]

/-- The relay is on while the cloud asks for it, and off again at the next report of the changes,
    which leaves it out. -/
theorem mirror_keeps_relay_on :
    ¬ Machine.Guarded (reportStep dpList)
      (fun s op => op.isReport = true → (reportStep dpList s op).InSync dpList)
      (dpReportFull dpList switchedOff)
      [.update (switchImage 1), .snapshot [some "Fon_Relay_Output"], .update (switchImage 0),
        .changes] := by
  intro h
  have hrelay : (dpFind dpList "Fon_Relay_Output").map (fun d => (d.type, d.persist)) =
      some (.bool, .volatile) := by decide +kernel
  obtain ⟨d, hfind, hd⟩ := Option.map_eq_some_iff.mp hrelay
  obtain ⟨htype, hpersist⟩ := Prod.mk.inj hd
  have hmem : d ∈ volatilePoints dpList :=
    List.mem_filter.mpr ⟨dpFind_mem hfind, by simpa using hpersist⟩
  have hname := dpFind_name hfind
  have hsettled := (run_inSync_iff dpList_volatile_names switchedOff _).mp h
  obtain ⟨-, -, -, hlast, -⟩ := hsettled
  refine switch_disagrees (floatValue d.deadband) htype
    (hlast rfl d hmem (by simp [DpDesc.eligible, htype]) (slotChanged_self ..) _ ?_)
  -- The named reply is the last that was said of the relay.
  have hbody : dpReadInto dpList (switchImage 1) [some "Fon_Relay_Output"] =
      [(d.name, dpValueToJson d (switchImage 1))] := by
    simp [dpReadInto, hfind]
  simp only [reportStep, cbFillSnapshot, List.cons_ne_nil, if_false]
  change Mirror.deliver _ (dpReadInto dpList (switchImage 1) [some "Fon_Relay_Output"]) d.name = _
  rw [hbody]
  exact Function.update_self ..

end Fountainer.Datapoints
