import Fountainer.Datapoints.Ranges

/-!
# The cross-field rules by groups

The rules of `dp_constraints_ok` tie nine points together in four groups; a rule reads
the slots of its own group only. This file also shows that an accepted batch leaves the
points of the groups within their bounds, so that what is saved can be loaded again.
-/

namespace Fountainer.Datapoints

open Bytes CFloat

/-- The points that a rule ties together. -/
inductive RuleGroup where
  | pressure
  | onTime
  | report
  | bitrate
  deriving DecidableEq, Repr

/-- The names of the points of a group. -/
def RuleGroup.names : RuleGroup → List String
  | .pressure =>
    ["Fon_Min_Pressure", "Fon_Max_Pressure", "Fon_Alert_High_Pressure", "Fon_Alert_Low_Pressure"]
  | .onTime => ["Fon_Min_On_Time", "Fon_Max_On_Time", "Fon_Dry_Run_Detect_Time"]
  | .report => ["Fon_Report_Interval"]
  | .bitrate => ["Can_Bitrate"]

/-- The type of the points of a group. -/
def RuleGroup.type : RuleGroup → DpType
  | .pressure => .f32
  | _ => .u16

/-- The points of a group. -/
def RuleGroup.points (g : RuleGroup) : List DpDesc := g.names.filterMap (dpFind dpList)

/-- The rules of a group. -/
def RuleGroup.Rule (m : Mem) : RuleGroup → Prop
  | .pressure =>
    imgF32 m "Fon_Min_Pressure" < imgF32 m "Fon_Max_Pressure" ∧
      imgF32 m "Fon_Max_Pressure" < imgF32 m "Fon_Alert_High_Pressure" ∧
      imgF32 m "Fon_Alert_Low_Pressure" < imgF32 m "Fon_Min_Pressure"
  | .onTime =>
    ¬ imgU16 m "Fon_Max_On_Time" < 10 ∧
      imgU16 m "Fon_Min_On_Time" < imgU16 m "Fon_Max_On_Time" ∧
      imgU16 m "Fon_Dry_Run_Detect_Time" < imgU16 m "Fon_Max_On_Time"
  | .report => ¬ (imgU16 m "Fon_Report_Interval" < 1 ∨ imgU16 m "Fon_Report_Interval" > 3600)
  | .bitrate => imgU16 m "Can_Bitrate" ∈ [10, 20, 50, 100, 125, 250, 500, 800, 1000]

/-- `dp_constraints_ok` holds when the rules of every group do. -/
theorem dpConstraintsOk_iff {m : Mem} : dpConstraintsOk m = .ok () ↔ ∀ g : RuleGroup, g.Rule m := by
  have hall : (∀ g : RuleGroup, g.Rule m) ↔ RuleGroup.pressure.Rule m ∧ RuleGroup.onTime.Rule m ∧
      RuleGroup.report.Rule m ∧ RuleGroup.bitrate.Rule m :=
    ⟨fun h => ⟨h _, h _, h _, h _⟩, fun ⟨hp, ht, hr, hb⟩ g => by cases g <;> assumption⟩
  rw [hall, dpConstraintsOk]
  simp only [RuleGroup.Rule]
  constructor
  · intro h
    split_ifs at h with h1 h2 h3 h4 h5 h6 h7 h8
    exact ⟨⟨h1, h2, h3⟩, ⟨h4, h5, h6⟩, h7, h8⟩
  · rintro ⟨⟨h1, h2, h3⟩, ⟨h4, h5, h6⟩, h7, h8⟩
    rw [if_neg (not_not.mpr h1), if_neg (not_not.mpr h2), if_neg (not_not.mpr h3), if_neg h4,
      if_neg (not_not.mpr h5), if_neg (not_not.mpr h6), if_neg h7, if_neg (not_not.mpr h8)]

/-- The bounds of a point are integers of 16 bits. -/
def DpPoint.IntBounds (d : DpPoint) : Prop :=
  (∀ mn ∈ d.min, widen mn = (widen mn).toUInt16.toFloat) ∧
    ∀ mx ∈ d.max, widen mx = (widen mx).toUInt16.toFloat

instance (d : DpPoint) : Decidable d.IntBounds := inferInstanceAs (Decidable (_ ∧ _))

/-- The flags of a point of a group: its type, its bounds, and that it is saved. -/
def RuleGroup.fits (g : RuleGroup) (d : DpDesc) : Bool :=
  d.type == g.type && d.persist == .nvs && d.nvsId != 0 && decide (d.type = .u16 → d.IntBounds)

/-- Every name of a group is a point with the flags of the group. -/
theorem RuleGroup.names_fit (g : RuleGroup) :
    ∀ name ∈ g.names, (dpFind dpList name).any g.fits = true := by
  cases g <;> decide +kernel

/-- A point of a group, by its name. -/
theorem RuleGroup.mem_points {g : RuleGroup} {d : DpDesc} (h : d ∈ g.points) :
    ∃ name ∈ g.names, dpFind dpList name = some d := by
  simpa [points] using h

theorem RuleGroup.find {g : RuleGroup} {name : String} (h : name ∈ g.names) :
    ∃ d ∈ g.points, dpFind dpList name = some d := by
  obtain ⟨d, hd, -⟩ := (Option.any_eq_true _ _).mp (g.names_fit name h)
  exact ⟨d, List.mem_filterMap.mpr ⟨name, h, hd⟩, hd⟩

theorem RuleGroup.fits_of_mem {g : RuleGroup} {d : DpDesc} (h : d ∈ g.points) :
    g.fits d = true := by
  obtain ⟨name, hname, hd⟩ := mem_points h
  obtain ⟨e, he, hfit⟩ := (Option.any_eq_true _ _).mp (g.names_fit name hname)
  cases hd.symm.trans he
  exact hfit

theorem RuleGroup.type_of_mem {g : RuleGroup} {d : DpDesc} (h : d ∈ g.points) :
    d.type = g.type := by
  have := fits_of_mem h
  simp only [fits, Bool.and_eq_true, beq_iff_eq] at this
  exact this.1.1.1

theorem RuleGroup.type_ne_str (g : RuleGroup) : g.type ≠ .str := by
  cases g <;> decide

theorem RuleGroup.saved_of_mem {g : RuleGroup} {d : DpDesc} (h : d ∈ g.points) :
    d ∈ savedPoints dpList := by
  obtain ⟨name, -, hd⟩ := mem_points h
  have := fits_of_mem h
  simp only [fits, Bool.and_eq_true, beq_iff_eq] at this
  exact List.mem_filter.mpr ⟨dpFind_mem hd, by simp [this.1.1.2, this.1.2]⟩

theorem RuleGroup.intBounds_of_mem {g : RuleGroup} {d : DpDesc} (h : d ∈ g.points)
    (htype : d.type = .u16) : d.IntBounds := by
  have := fits_of_mem h
  simp only [fits, Bool.and_eq_true, decide_eq_true_iff] at this
  exact this.2 htype

theorem imgOff_eq {name : String} {d : DpDesc} (h : dpFind dpList name = some d) :
    imgOff name = d.off := by
  rw [imgOff, h]
  rfl

/-- The rules of a group read the slots of the group only. -/
theorem RuleGroup.rule_congr {g : RuleGroup} {m m' : Mem}
    (h : ∀ d ∈ g.points, d.slot m = d.slot m') (hm : g.Rule m) : g.Rule m' := by
  have hf32 : ∀ name ∈ g.names, g.type = .f32 → imgF32 m name = imgF32 m' name := by
    intro name hname htype
    obtain ⟨d, hmem, hd⟩ := find hname
    have hslot := h d hmem
    rw [DpDesc.slot, DpDesc.slot, DpDesc.size, type_of_mem hmem, htype] at hslot
    rw [imgF32, imgF32, imgOff_eq hd, rdU32_congr hslot]
  have hu16 : ∀ name ∈ g.names, g.type = .u16 → imgU16 m name = imgU16 m' name := by
    intro name hname htype
    obtain ⟨d, hmem, hd⟩ := find hname
    have hslot := h d hmem
    rw [DpDesc.slot, DpDesc.slot, DpDesc.size, type_of_mem hmem, htype] at hslot
    rw [imgU16, imgU16, imgOff_eq hd, rdU16_congr hslot]
  cases g with
  | pressure =>
    simp only [names, List.forall_mem_cons] at hf32
    obtain ⟨hmin, hmax, hhigh, hlow, -⟩ := hf32
    rw [Rule, hmin rfl, hmax rfl, hhigh rfl, hlow rfl] at hm
    exact hm
  | onTime =>
    simp only [names, List.forall_mem_cons] at hu16
    obtain ⟨hmin, hmax, hdry, -⟩ := hu16
    rw [Rule, hmin rfl, hmax rfl, hdry rfl] at hm
    exact hm
  | report =>
    rw [Rule, hu16 _ (List.mem_singleton_self _) rfl] at hm
    exact hm
  | bitrate =>
    rw [Rule, hu16 _ (List.mem_singleton_self _) rfl] at hm
    exact hm

theorem DpPoint.IntBounds.integerBounds {d : DpPoint} (h : d.IntBounds) :
    d.IntegerBounds 0 65535 := by
  have hint : ∀ x : Float, x = x.toUInt16.toFloat → IsInteger 0 65535 x := by
    intro x hx
    have := x.toUInt16.toNat_lt
    exact ⟨x.toUInt16.toNat, by omega, by omega, (congrArg value hx).trans (value_ofUInt16 _)⟩
  exact ⟨fun mn hmn => hint _ (h.1 mn hmn), fun mx hmx => hint _ (h.2 mx hmx)⟩

/-- What a write of a number stores is in range when it is loaded. -/
theorem dpValueFromJson_inRange {d : DpDesc} {v : Json} {bs : List UInt8} {m : Mem}
    (htype : d.type = .f32 ∨ d.type = .u16 ∧ d.IntBounds)
    (hnan : ∀ x, v = .number x → d.type = .u16 → x.isNaN = false)
    (h : dpValueFromJson d.toDpPoint v = .ok bs) (hslot : Holds m d.off bs) :
    slotInRange d.toDpPoint m d.off = true := by
  rcases htype with htype | ⟨htype, hbounds⟩
  · obtain ⟨num, -, hrange, hdouble⟩ := dpValueFromJson_float htype h hslot
    rw [slotInRange, hdouble]
    exact DpPoint.inRange_narrow hrange
  · exact dpValueFromJson_integer (by rw [htype]; rfl) hbounds.integerBounds
      (fun x hx => hnan x hx htype) h hslot

/-- Every point of the groups is within its bounds. -/
def GroupsInRange (m : Mem) : Prop :=
  ∀ g : RuleGroup, ∀ d ∈ g.points, slotInRange d.toDpPoint m d.off = true

/-- No number of the batch that is meant for a 16-bit point is a NaN. JSON text has none. -/
def NoNaN (items : List (Option String × Json)) : Prop :=
  ∀ item ∈ items, ∀ d x, dpFind dpList (itemName item) = some d → d.type = .u16 →
    item.2 = .number x → x.isNaN = false

/-- An item of a batch leaves the points of the groups within their bounds. -/
theorem applyItem_inRange {tmp tmp' : Mem} {item : Option String × Json}
    (hnan : ∀ d x, dpFind dpList (itemName item) = some d → d.type = .u16 →
      item.2 = .number x → x.isNaN = false)
    (h : applyItem dpList tmp item = .ok tmp') (hr : GroupsInRange tmp) : GroupsInRange tmp' := by
  obtain ⟨e, bs, he, -, hbs, rfl⟩ := applyItem_ok h
  intro g d hd
  obtain ⟨name, -, hfind⟩ := RuleGroup.mem_points hd
  by_cases hname : itemName item = name
  · rw [hname, hfind] at he
    cases he
    apply dpValueFromJson_inRange _ _ hbs (holds_write _ _ _)
    · have htype := RuleGroup.type_of_mem hd
      cases g with
      | pressure => exact .inl htype
      | onTime | report | bitrate => exact .inr ⟨htype, RuleGroup.intBounds_of_mem hd htype⟩
    · intro x hx ht
      exact hnan e x (by rw [hname, hfind]) ht hx
  · rw [← hr g d hd]
    apply slotInRange_congr
    apply read_write_disjoint
    have hlen : bs.length = e.size := dpValueFromJson_length hbs
    have hdisj := dpFind_disjoint hfind he (Ne.symm hname)
    rw [DpDesc.size] at hdisj
    omega

theorem validate_inRange {tmp : Mem} {items : List (Option String × Json)} (hnan : NoNaN items)
    (h : (validate dpList tmp items).2 = []) (hr : GroupsInRange tmp) :
    GroupsInRange (validate dpList tmp items).1 := by
  induction items generalizing tmp with
  | nil => exact hr
  | cons item items ih =>
    obtain ⟨tmp', happly, hrest⟩ := validate_cons h
    rw [hrest] at h ⊢
    exact ih (fun it hit => hnan it (List.mem_cons_of_mem _ hit)) h
      (applyItem_inRange (hnan item List.mem_cons_self) happly hr)

/-- A batch leaves the points of the groups within their bounds. -/
theorem dpWriteBatch_inRange {img : Mem} {dpIn : Json} (hnan : NoNaN dpIn.children)
    (hr : GroupsInRange img) : GroupsInRange (dpWriteBatch img dpIn).img := by
  change GroupsInRange (dpWriteBatchWith dpList dpConstraintsOk img dpIn).img
  rcases dpWriteBatchWith_cases dpList dpConstraintsOk img dpIn with ⟨-, himg⟩ | ⟨-, herr, himg, -⟩
  · rw [himg]
    exact hr
  · rw [himg]
    exact validate_inRange hnan herr hr

end Fountainer.Datapoints
