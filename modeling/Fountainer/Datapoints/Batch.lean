import Fountainer.Datapoints.Codec
import Fountainer.Lib.Runs

/-!
# Atomic batches

`dpWriteBatch` is the transaction of `dp_write_batch` up to its unlock: the batch is
applied to a private copy of the image, the cross-field rules are checked on the copy,
and only then are the slots of the batch copied back. The store lock is held all the
time, so to every other party the call is one step. The main result says what such a
step can do to the image, and that no snapshot ever shows a broken rule.
-/

namespace Fountainer.Datapoints

open Bytes CFloat

/-- The name an item of a batch is looked up under. -/
def itemName (item : Option String × Json) : String := item.1.getD "?"

section Transaction

variable (rows : List DpPoint)

/-- One item applied to the private copy. -/
def applyItem (tmp : Mem) (item : Option String × Json) : Except DpError Mem :=
  match dpFind rows (itemName item) with
  | none => .error .unknownName
  | some d =>
    if d.access ≠ .rw then .error .readOnly
    else
      match dpValueFromJson d.toDpPoint item.2 with
      | .ok bs => .ok (write tmp d.off bs)
      | .error err => .error err

/-- The first pass: the private copy after the items, and the errors by key. An item
    that fails leaves the copy as it is and does not stop the pass. -/
def validate : Mem → List (Option String × Json) → Mem × List (String × DpError)
  | tmp, [] => (tmp, [])
  | tmp, item :: items =>
    match applyItem rows tmp item with
    | .ok tmp' => validate tmp' items
    | .error err => ((validate tmp items).1, (itemName item, err) :: (validate tmp items).2)

/-- The second pass: the slots of the batch copied back from `tmp`. -/
def commit (tmp img : Mem) : List (Option String × Json) → Mem
  | [] => img
  | item :: items =>
    match dpFind rows (itemName item) with
    | some d =>
      if d.access = .rw then commit tmp (write img d.off (read tmp d.off d.size)) items
      else commit tmp img items
    | none => commit tmp img items

/-- What a batch answers and leaves behind. -/
structure BatchResult where
  ok : Bool
  errors : List (String × DpError)
  img : Mem

/-- `dp_write_batch` up to the unlock, with the cross-field rules as a parameter. -/
def dpWriteBatchWith (constraintsOk : Mem → Except String Unit) (img : Mem) (dpIn : Json) :
    BatchResult :=
  let (tmp, errors) := validate rows img dpIn.children
  if errors ≠ [] then { ok := false, errors, img }
  else
    match constraintsOk tmp with
    | .error bad => { ok := false, errors := [(bad, .constraintViolation)], img }
    | .ok () => { ok := true, errors := [], img := commit rows tmp img dpIn.children }

end Transaction

/-- The offset of a field of the image. -/
def imgOff (name : String) : ℕ := ((dpFind dpList name).map (·.off)).getD 0

/-- A `float` field of the image. -/
def imgF32 (m : Mem) (name : String) : Float32 := Float32.ofBits (rdU32 m (imgOff name))

/-- A `uint16_t` field of the image. -/
def imgU16 (m : Mem) (name : String) : UInt16 := rdU16 m (imgOff name)

/-- `dp_constraints_ok`; the error is the field it reports as `bad`. -/
def dpConstraintsOk (m : Mem) : Except String Unit :=
  if ¬ imgF32 m "Fon_Min_Pressure" < imgF32 m "Fon_Max_Pressure" then .error "Fon_Max_Pressure"
  else if ¬ imgF32 m "Fon_Max_Pressure" < imgF32 m "Fon_Alert_High_Pressure" then
    .error "Fon_Alert_High_Pressure"
  else if ¬ imgF32 m "Fon_Alert_Low_Pressure" < imgF32 m "Fon_Min_Pressure" then
    .error "Fon_Alert_Low_Pressure"
  else if imgU16 m "Fon_Max_On_Time" < 10 then .error "Fon_Max_On_Time"
  else if ¬ imgU16 m "Fon_Min_On_Time" < imgU16 m "Fon_Max_On_Time" then .error "Fon_Min_On_Time"
  else if ¬ imgU16 m "Fon_Dry_Run_Detect_Time" < imgU16 m "Fon_Max_On_Time" then
    .error "Fon_Dry_Run_Detect_Time"
  else if imgU16 m "Fon_Report_Interval" < 1 ∨ imgU16 m "Fon_Report_Interval" > 3600 then
    .error "Fon_Report_Interval"
  else if imgU16 m "Can_Bitrate" ∉ [10, 20, 50, 100, 125, 250, 500, 800, 1000] then
    .error "Can_Bitrate"
  else .ok ()

/-- No point has the name that an item without a key is looked up under. -/
theorem dpFind_anonymous : dpFind dpList "?" = none := by
  have h : (dpFind dpList "?").isNone = true := by decide +kernel
  exact Option.isNone_iff_eq_none.mp h

/-- `dp_write_batch` up to the unlock. -/
def dpWriteBatch (img : Mem) (dpIn : Json) : BatchResult :=
  dpWriteBatchWith dpList dpConstraintsOk img dpIn

section Passes

variable {rows : List DpPoint} {tmp tmp' img : Mem} {item : Option String × Json}
  {items : List (Option String × Json)}

/-- An applied item names a point that may be written, and its slot has the value. -/
theorem applyItem_ok (h : applyItem rows tmp item = .ok tmp') :
    ∃ d bs, dpFind rows (itemName item) = some d ∧ d.access = .rw ∧
      dpValueFromJson d.toDpPoint item.2 = .ok bs ∧ tmp' = write tmp d.off bs := by
  unfold applyItem at h
  split at h
  · cases h
  · next d hd =>
    split at h
    · cases h
    · next hrw =>
      split at h
      · next bs hbs =>
        cases h
        exact ⟨d, bs, hd, not_not.mp hrw, hbs, rfl⟩
      · cases h

/-- A pass without errors has applied the first item and then the others. -/
theorem validate_cons (h : (validate rows tmp (item :: items)).2 = []) :
    ∃ tmp', applyItem rows tmp item = .ok tmp' ∧
      validate rows tmp (item :: items) = validate rows tmp' items := by
  rw [validate] at h ⊢
  split at h
  · next tmp' hok => exact ⟨tmp', hok, rfl⟩
  · cases h

/-- The byte `i` lies in the slot of a point that the items name. -/
def Listed (rows : List DpPoint) (items : List (Option String × Json)) (i : ℕ) : Prop :=
  ∃ item ∈ items, ∃ d, dpFind rows (itemName item) = some d ∧ d.off ≤ i ∧ i < d.off + d.size

theorem Listed.tail {i : ℕ} (h : Listed rows items i) : Listed rows (item :: items) i := by
  obtain ⟨it, hit, hd⟩ := h
  exact ⟨it, List.mem_cons_of_mem _ hit, hd⟩

/-- Every name of a pass without errors is a point that may be written. -/
theorem validate_names (h : (validate rows tmp items).2 = []) :
    ∀ item ∈ items, ∃ d, dpFind rows (itemName item) = some d ∧ d.access = .rw := by
  induction items generalizing tmp with
  | nil => simp
  | cons item items ih =>
    intro it hit
    obtain ⟨tmp', happly, hrest⟩ := validate_cons h
    rw [hrest] at h
    rcases List.mem_cons.mp hit with rfl | hit
    · obtain ⟨d, bs, hd, hrw, -⟩ := applyItem_ok happly
      exact ⟨d, hd, hrw⟩
    · exact ih h it hit

/-- A pass without errors changes the copy in the slots of the items only. -/
theorem validate_outside (h : (validate rows tmp items).2 = []) {i : ℕ}
    (hi : ¬ Listed rows items i) : (validate rows tmp items).1 i = tmp i := by
  induction items generalizing tmp with
  | nil => rfl
  | cons item items ih =>
    obtain ⟨tmp', happly, hrest⟩ := validate_cons h
    obtain ⟨d, bs, hd, -, hbs, rfl⟩ := applyItem_ok happly
    rw [hrest] at h ⊢
    rw [ih h (fun hl => hi hl.tail)]
    apply write_outside
    by_contra hin
    have hlen : bs.length = d.size := dpValueFromJson_length hbs
    exact hi ⟨item, List.mem_cons_self, d, hd, by omega, by omega⟩

/-- Items under other names leave the slot of a point standing. -/
theorem validate_holds {name : String} {d : DpDesc} {bs : List UInt8}
    (hd : dpFind rows name = some d) (hlen : bs.length = d.size)
    (hne : ∀ item ∈ items, itemName item ≠ name) (h : (validate rows tmp items).2 = [])
    (hbs : Holds tmp d.off bs) : Holds (validate rows tmp items).1 d.off bs := by
  intro i hi
  rw [validate_outside h, hbs i hi]
  rintro ⟨item, hit, e, he, hle, hlt⟩
  have hdisj := dpFind_disjoint he hd (hne item hit)
  omega

/-- After a pass without errors a slot has the last value listed for it. -/
theorem validate_last {pre post : List (Option String × Json)}
    (hpost : ∀ it ∈ post, itemName it ≠ itemName item)
    (h : (validate rows tmp (pre ++ item :: post)).2 = []) :
    ∃ d bs, dpFind rows (itemName item) = some d ∧ dpValueFromJson d.toDpPoint item.2 = .ok bs ∧
      Holds (validate rows tmp (pre ++ item :: post)).1 d.off bs := by
  induction pre generalizing tmp with
  | nil =>
    rw [List.nil_append] at h ⊢
    obtain ⟨tmp', happly, hrest⟩ := validate_cons h
    obtain ⟨d, bs, hd, -, hbs, rfl⟩ := applyItem_ok happly
    rw [hrest] at h ⊢
    exact ⟨d, bs, hd, hbs,
      validate_holds hd (dpValueFromJson_length hbs) hpost h (holds_write _ _ _)⟩
  | cons it pre ih =>
    rw [List.cons_append] at h ⊢
    obtain ⟨tmp', -, hrest⟩ := validate_cons h
    rw [hrest] at h ⊢
    exact ih h

/-- The second pass takes a byte of a listed slot from the copy, and leaves every other. -/
theorem commit_eq (hrw : ∀ item ∈ items, ∃ d, dpFind rows (itemName item) = some d ∧ d.access = .rw)
    (himg : ∀ i, ¬ Listed rows items i → img i = tmp i) : commit rows tmp img items = tmp := by
  induction items generalizing img with
  | nil =>
    funext i
    exact himg i (fun ⟨_, h, _⟩ => absurd h List.not_mem_nil)
  | cons item items ih =>
    obtain ⟨d, hd, hacc⟩ := hrw item List.mem_cons_self
    rw [commit, hd]
    simp only [hacc, if_true]
    apply ih (fun it hit => hrw it (List.mem_cons_of_mem _ hit))
    intro i hi
    by_cases hin : d.off ≤ i ∧ i < d.off + d.size
    · exact write_read_inside hin.1 hin.2
    · rw [write_outside (by rw [length_read]; omega)]
      apply himg
      rintro ⟨it, hit, e, he, hbounds⟩
      rcases List.mem_cons.mp hit with rfl | hit
      · cases hd.symm.trans he
        exact hin hbounds
      · exact hi ⟨it, hit, e, he, hbounds⟩

/-- What a batch can do: it is rejected and leaves the image, or every item was applied
    and the image is the private copy, which satisfies the cross-field rules. -/
theorem dpWriteBatchWith_cases (rows : List DpPoint) (constraintsOk : Mem → Except String Unit)
    (img : Mem) (dpIn : Json) :
    ((dpWriteBatchWith rows constraintsOk img dpIn).ok = false ∧
      (dpWriteBatchWith rows constraintsOk img dpIn).img = img) ∨
    ((dpWriteBatchWith rows constraintsOk img dpIn).ok = true ∧
      (validate rows img dpIn.children).2 = [] ∧
      (dpWriteBatchWith rows constraintsOk img dpIn).img = (validate rows img dpIn.children).1 ∧
      constraintsOk (validate rows img dpIn.children).1 = .ok ()) := by
  rw [dpWriteBatchWith]
  by_cases herr : (validate rows img dpIn.children).2 = []
  · simp only [herr, ne_eq, not_true, if_false]
    split
    · exact .inl ⟨rfl, rfl⟩
    · next hok =>
      refine .inr ⟨rfl, trivial, ?_, hok⟩
      exact commit_eq (validate_names herr) (fun i hi => (validate_outside herr hi).symm)
  · simp [herr]

/-- A rejected batch leaves the image. -/
theorem dpWriteBatchWith_rejected {constraintsOk : Mem → Except String Unit} {img : Mem}
    {dpIn : Json} (h : (dpWriteBatchWith rows constraintsOk img dpIn).ok = false) :
    (dpWriteBatchWith rows constraintsOk img dpIn).img = img := by
  rcases dpWriteBatchWith_cases rows constraintsOk img dpIn with ⟨-, himg⟩ | ⟨hok, -⟩
  · exact himg
  · cases hok.symm.trans h

/-- An error of the first pass stands under the name of the item it is about. -/
theorem validate_errors {key : String} {err : DpError}
    (h : (key, err) ∈ (validate rows tmp items).2) :
    ∃ item ∈ items, itemName item = key := by
  induction items generalizing tmp with
  | nil => cases h
  | cons item items ih =>
    rw [validate] at h
    split at h
    · obtain ⟨it, hit, hkey⟩ := ih h
      exact ⟨it, List.mem_cons_of_mem _ hit, hkey⟩
    · cases List.mem_cons.mp h with
      | inl heq =>
        cases heq
        exact ⟨item, List.mem_cons_self, rfl⟩
      | inr hmem =>
        obtain ⟨it, hit, hkey⟩ := ih hmem
        exact ⟨it, List.mem_cons_of_mem _ hit, hkey⟩

/-- A batch is rejected exactly when it reports an error, and each error names an item of
    the batch or the field that breaks a rule. -/
theorem dpWriteBatchWith_errors (constraintsOk : Mem → Except String Unit) (img : Mem)
    (dpIn : Json) :
    ((dpWriteBatchWith rows constraintsOk img dpIn).ok = false ↔
      (dpWriteBatchWith rows constraintsOk img dpIn).errors ≠ []) ∧
    ∀ key err, (key, err) ∈ (dpWriteBatchWith rows constraintsOk img dpIn).errors →
      (∃ item ∈ dpIn.children, itemName item = key) ∨
        err = .constraintViolation ∧
          constraintsOk (validate rows img dpIn.children).1 = .error key := by
  rw [dpWriteBatchWith]
  by_cases herr : (validate rows img dpIn.children).2 = []
  · simp only [herr, ne_eq, not_true, if_false]
    split
    · next bad hbad =>
      refine ⟨by simp, fun key err h => ?_⟩
      cases List.mem_singleton.mp h
      exact .inr ⟨rfl, hbad⟩
    · exact ⟨by simp, fun key err h => by cases h⟩
  · simp only [herr, ne_eq, not_false_eq_true, if_true]
    exact ⟨by simp, fun key err h => .inl (validate_errors h)⟩

end Passes

/-- A step of a party that uses the store, under the store lock. -/
inductive StoreOp where
  | batch (writer : ℕ) (dpIn : Json)
  | snapshot (reader : ℕ)

/-- The image after a step. -/
def StoreOp.step (img : Mem) : StoreOp → Mem
  | .batch _ dpIn => (dpWriteBatch img dpIn).img
  | .snapshot _ => img

/-- The snapshots that the readers take, in order. -/
def snapshots (img : Mem) (ops : List StoreOp) : List Mem :=
  Machine.collect StoreOp.step
    (fun img op _ => match op with | .snapshot _ => some img | .batch _ _ => none) img ops

/-- A batch keeps the cross-field rules. -/
theorem StoreOp.step_constraintsOk {img : Mem} (h : dpConstraintsOk img = .ok ()) (op : StoreOp) :
    dpConstraintsOk (op.step img) = .ok () := by
  cases op with
  | batch writer dpIn =>
    show dpConstraintsOk (dpWriteBatchWith dpList dpConstraintsOk img dpIn).img = .ok ()
    rcases dpWriteBatchWith_cases dpList dpConstraintsOk img dpIn with ⟨-, himg⟩ | ⟨-, -, himg, hok⟩
    · rw [himg, h]
    · rw [himg, hok]
  | snapshot reader => exact h

theorem snapshots_constraintsOk {img : Mem} (h : dpConstraintsOk img = .ok ())
    (ops : List StoreOp) : ∀ snap ∈ snapshots img ops, dpConstraintsOk snap = .ok () := by
  induction ops generalizing img with
  | nil => simp [snapshots]
  | cons op ops ih =>
    intro snap hsnap
    cases op with
    | batch writer dpIn => exact ih (StoreOp.step_constraintsOk h (.batch writer dpIn)) snap hsnap
    | snapshot reader =>
      rcases List.mem_cons.mp hsnap with rfl | hsnap
      · exact h
      · exact ih h snap hsnap

/-- **Batches are atomic.** A rejected batch leaves every byte of the image. An accepted
    one names points that may be written only, puts the last value listed for a point
    into its slot, leaves every byte outside the listed slots, and its image satisfies
    the cross-field rules; so every snapshot of a store that starts within the rules
    does, in whatever order the parties take their steps. -/
theorem dpWriteBatch_atomic (img : Mem) (dpIn : Json) :
    ((dpWriteBatch img dpIn).ok = false → (dpWriteBatch img dpIn).img = img) ∧
    ((dpWriteBatch img dpIn).ok = true →
      (∀ item ∈ dpIn.children, ∃ name d,
        item.1 = some name ∧ dpFind dpList name = some d ∧ d.access = .rw) ∧
      (∀ pre name v post, dpIn.children = pre ++ (some name, v) :: post →
        (∀ item ∈ post, item.1 ≠ some name) →
        ∃ d bs, dpFind dpList name = some d ∧ dpValueFromJson d.toDpPoint v = .ok bs ∧
          read (dpWriteBatch img dpIn).img d.off d.size = bs) ∧
      (∀ i, (∀ item ∈ dpIn.children, ∀ name d, item.1 = some name → dpFind dpList name = some d →
          i < d.off ∨ d.off + d.size ≤ i) →
        (dpWriteBatch img dpIn).img i = img i) ∧
      dpConstraintsOk (dpWriteBatch img dpIn).img = .ok ()) ∧
    (dpConstraintsOk img = .ok () →
      ∀ ops, ∀ snap ∈ snapshots img ops, dpConstraintsOk snap = .ok ()) := by
  refine ⟨dpWriteBatchWith_rejected, ?_, fun h ops => snapshots_constraintsOk h ops⟩
  · intro hacc
    rcases dpWriteBatchWith_cases dpList dpConstraintsOk img dpIn with
      ⟨hok, -⟩ | ⟨-, herr, himg, hrules⟩
    · cases hok.symm.trans hacc
    change (dpWriteBatch img dpIn).img = _ at himg
    rw [himg]
    have hnames := validate_names herr
    have hkey : ∀ item ∈ dpIn.children, ∃ name, item.1 = some name := by
      intro item hitem
      obtain ⟨d, hd, -⟩ := hnames item hitem
      cases hkey : item.1 with
      | some name => exact ⟨name, rfl⟩
      | none =>
        rw [itemName, hkey, Option.getD_none, dpFind_anonymous] at hd
        cases hd
    refine ⟨?_, ?_, ?_, hrules⟩
    · intro item hitem
      obtain ⟨name, hname⟩ := hkey item hitem
      obtain ⟨d, hd, hrw⟩ := hnames item hitem
      exact ⟨name, d, hname, by simpa [itemName, hname] using hd, hrw⟩
    · intro pre name v post hsplit hpost
      rw [hsplit] at herr ⊢
      have hlast : ∀ it ∈ post, itemName it ≠ itemName (some name, v) := by
        intro it hit heq
        obtain ⟨key, hk⟩ := hkey it (by rw [hsplit]; simp [hit])
        exact hpost it hit (by simpa [itemName, hk] using heq)
      obtain ⟨d, bs, hd, hbs, hholds⟩ := validate_last hlast herr
      have hlen : bs.length = d.size := dpValueFromJson_length hbs
      exact ⟨d, bs, hd, hbs, hlen ▸ read_eq_of_holds hholds⟩
    · intro i hi
      apply validate_outside herr
      rintro ⟨item, hitem, d, hd, hle, hlt⟩
      obtain ⟨name, hname⟩ := hkey item hitem
      have := hi item hitem name d hname (by simpa [itemName, hname] using hd)
      omega

end Fountainer.Datapoints
