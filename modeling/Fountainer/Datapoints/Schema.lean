import Fountainer.Datapoints.Bounds
import Fountainer.Datapoints.Reboot
import Fountainer.Lib.Numerals

/-!
# Persistence across schema changes

One firmware saves its points, the next one loads them into a catalogue of its own. A point
is known by its id alone: its key is the text `d<id>`, and neither the place in the list nor
the offset nor the name takes part. The value of an id that both catalogues have comes back
when its size is still that of the type and it is within the new bounds.
-/

namespace Fountainer.Datapoints

open Bytes CFloat

/-- The text of a key. -/
def NvsKey.text : NvsKey → String
  | .point id => "d" ++ Nat.repr id
  | .cfg => "cfg"
  | .ver => "ver"

theorem NvsKey.text_injective : Function.Injective NvsKey.text := by
  have hpoint : ∀ id : ℕ, (NvsKey.point id).text.toList.head? = some 'd' := fun id => by
    rw [text, String.toList_append]
    rfl
  have hother : ∀ id : ℕ, ∀ s : String, s.toList.head? ≠ some 'd' → (NvsKey.point id).text ≠ s :=
    fun id s hs h => hs (h ▸ hpoint id)
  intro k l h
  cases k with
  | point id =>
    cases l with
    | point id' => rw [Numerals.repr_injective ((String.append_right_inj _).mp h)]
    | cfg => exact absurd h (hother id "cfg" (by decide))
    | ver => exact absurd h (hother id "ver" (by decide))
  | cfg | ver =>
    cases l with
    | point id => exact absurd h.symm (hother id _ (by decide))
    | cfg => first | rfl | exact absurd h (by decide)
    | ver => first | rfl | exact absurd h (by decide)

/-- The text of a key fits the eight bytes of `dp_nvs_key` with its terminator. -/
theorem NvsKey.length_text {id : ℕ} (hid : id < 2 ^ 16) : (NvsKey.point id).text.length < 8 := by
  rw [text, String.length_append]
  have hlen : id.repr.length ≤ 5 := (Nat.length_repr_le_iff (by decide)).mpr (by omega)
  have hone : "d".length = 1 := rfl
  omega

/-- A catalogue whose stored points have ids of their own, in the 16 bits of `nvs_id`. A bound
    that is a NaN is no bound. -/
structure StoredCatalogue where
  rows : List DpPoint
  ids : ((rows.filter (·.persist == .nvs)).map (·.nvsId)).Nodup
  ids_pos : ∀ p ∈ rows, p.persist = .nvs → p.nvsId ≠ 0
  ids_lt : ∀ p ∈ rows, p.nvsId < 2 ^ 16
  bounds : ∀ p ∈ rows, ∀ b ∈ p.min.toList ++ p.max.toList, b.isNaN = false

/-- The bytes that the load leaves in the slot of a point whose stored bytes it takes. -/
def DpPoint.terminated (d : DpPoint) (bytes : List UInt8) : List UInt8 :=
  if d.type = .str then bytes.set (dpStrMax - 1) 0 else bytes

/-- The bytes, read as the type of the point, are within its bounds. 64-bit numbers and strings
    have no range. -/
def DpPoint.ReadsWithin (d : DpPoint) (bytes : List UInt8) : Prop :=
  (dpSlotAsDouble d.type (write (fun _ => 0) 0 bytes) 0).all d.within = true

/-- The bytes, read as the type of the point, are a NaN where the point has a bound. -/
def DpPoint.ReadsNaN (d : DpPoint) (bytes : List UInt8) : Prop :=
  d.type = .f32 ∧ (d.min.isSome ∨ d.max.isSome) ∧ (floatOf bytes).isNaN = true

theorem layout_filter_map {α : Type*} (q : DpPoint → Bool) (f : DpPoint → α) (rows : List DpPoint) :
    ((gDp rows).filter fun d => q d.toDpPoint).map (fun d => f d.toDpPoint) =
      (rows.filter q).map f := by
  have hrows : (gDp rows).map DpDesc.toDpPoint = rows := layout_toDpPoint 0 rows
  calc ((gDp rows).filter fun d => q d.toDpPoint).map (fun d => f d.toDpPoint)
      = (((gDp rows).map DpDesc.toDpPoint).filter q).map f := by
        rw [List.filter_map, List.map_map]
        rfl
    _ = (rows.filter q).map f := by rw [hrows]

/-- The range check of the load lets a NaN through, and what is within the bounds. -/
theorem DpPoint.readsWithin_iff {d : DpPoint} {bytes : List UInt8}
    (hbounds : ∀ b ∈ d.min.toList ++ d.max.toList, b.isNaN = false) :
    d.ReadsWithin bytes ↔
      slotInRange d (write (fun _ => 0) 0 bytes) 0 = true ∧ ¬ d.ReadsNaN bytes := by
  have hwiden : ∀ b ∈ d.min.toList ++ d.max.toList, (widen b).isNaN = false :=
    fun b hb => (isNaN_widen b).trans (hbounds b hb)
  rw [ReadsWithin, slotInRange, ReadsNaN]
  cases hx : dpSlotAsDouble d.type (write (fun _ => 0) 0 bytes) 0 with
  | none =>
    have hne : d.type ≠ .f32 := by
      intro hf32
      rw [hf32] at hx
      cases hx
    simp [hne]
  | some x =>
    have hnan : x.isNaN = true ↔ d.type = .f32 ∧ (floatOf bytes).isNaN = true :=
      isNaN_dpSlotAsDouble hx
    rw [Option.all_some]
    by_cases hsome : d.min.isSome ∨ d.max.isSome
    · rw [within_iff_inRange hwiden hsome, ← Bool.not_eq_true, hnan]
      simp [hsome]
    · have hmin : d.min = none := by simpa using fun h => hsome (.inl h)
      have hmax : d.max = none := by simpa using fun h => hsome (.inr h)
      simp [within, inRange, hmin, hmax]

/-- What the load makes of stored bytes of at most the longest size. -/
theorem storedSlot_blob {nvs : Nvs} {d : DpDesc} {bytes : List UInt8}
    (hkey : nvs (dpNvsKey d) = some (.blob bytes)) :
    storedSlot nvs d =
      if bytes.length = d.size ∧ slotInRange d.toDpPoint (write (fun _ => 0) 0 bytes) 0 = true
      then some (d.terminated bytes) else none := by
  have hmax : ¬ dpStrMax < d.size := by
    rw [DpDesc.size]
    cases d.type <;> decide
  rw [storedSlot, hkey, DpPoint.terminated]
  dsimp only
  by_cases hlen : bytes.length = d.size
  · cases hrange : slotInRange d.toDpPoint (write (fun _ => 0) 0 bytes) 0 with
    | false => simp [hlen, hmax]
    | true =>
      simp only [hlen, hmax, ne_eq, not_true_eq_false, and_self, if_true, if_false]
      split_ifs <;> rfl
  · simp [hlen]

namespace StoredCatalogue

/-- The image of the boot before the load. -/
def defaults (c : StoredCatalogue) : Mem := dpSetDefaults c.rows fun _ => 0

/-- The image after the first catalogue has saved and the second has loaded. -/
def updated (old new : StoredCatalogue) (snap : Mem) (nvs : Nvs) : Mem :=
  dpConfigLoad new.rows (dpConfigSave old.rows snap nvs) new.defaults

/-- The first catalogue stores the bytes for a point of the second: both have the id, and the
    sizes are equal. -/
def Carries (old : StoredCatalogue) (snap : Mem) (b : DpDesc) (bytes : List UInt8) : Prop :=
  b.persist = .nvs ∧ ∃ a ∈ gDp old.rows,
    a.persist = .nvs ∧ a.nvsId = b.nvsId ∧ a.size = b.size ∧ a.slot snap = bytes

/-- What is carried over and within the new bounds is restored, and every other point has its
    default. -/
structure Survives (old new : StoredCatalogue) (snap : Mem) (nvs : Nvs) : Prop where
  restored : ∀ b ∈ gDp new.rows, ∀ bytes, old.Carries snap b bytes → b.ReadsWithin bytes →
    b.slot (old.updated new snap nvs) = b.terminated bytes
  kept : ∀ b ∈ gDp new.rows, (∀ bytes, old.Carries snap b bytes → ¬ b.ReadsWithin bytes) →
    b.slot (old.updated new snap nvs) = b.slot new.defaults

/-- No value that is carried over becomes a NaN at a bounded point, and no earlier firmware has
    left a usable value under an id that only the second catalogue has; but for the very bytes
    of the default. -/
structure Clean (old new : StoredCatalogue) (snap : Mem) (nvs : Nvs) : Prop where
  noNaN : ∀ b ∈ gDp new.rows, ∀ bytes, old.Carries snap b bytes → b.ReadsNaN bytes →
    bytes = b.slot new.defaults
  noRemains : ∀ b ∈ gDp new.rows, b.persist = .nvs →
    (∀ a ∈ gDp old.rows, a.persist = .nvs → a.nvsId ≠ b.nvsId) →
    ∀ bytes, storedSlot nvs b = some bytes → bytes = b.slot new.defaults

section Save

variable {old new : StoredCatalogue} {snap : Mem} {nvs : Nvs} {a b : DpDesc}

theorem mem_rows {c : StoredCatalogue} (h : b ∈ gDp c.rows) : b.toDpPoint ∈ c.rows := by
  rw [← layout_toDpPoint 0 c.rows]
  exact List.mem_map_of_mem h

theorem mem_savedPoints {c : StoredCatalogue} :
    b ∈ savedPoints c.rows ↔ b ∈ gDp c.rows ∧ b.persist = .nvs := by
  rw [savedPoints, List.mem_filter, Bool.and_eq_true, beq_iff_eq, bne_iff_ne]
  exact and_congr_right fun h => and_iff_left_of_imp fun hnvs => c.ids_pos _ (mem_rows h) hnvs

theorem savedPoints_nodup (c : StoredCatalogue) : ((savedPoints c.rows).map (·.nvsId)).Nodup := by
  have hsaved : savedPoints c.rows = (gDp c.rows).filter fun d => d.persist == .nvs := by
    refine List.filter_congr fun d hd => ?_
    cases hnvs : d.persist == .nvs with
    | false => rfl
    | true => simpa using c.ids_pos _ (mem_rows hd) (beq_iff_eq.mp hnvs)
  rw [hsaved]
  exact layout_filter_map (·.persist == .nvs) (·.nvsId) c.rows ▸ c.ids

/-- The save stores each stored point under its key. -/
theorem dpConfigSave_key (ha : a ∈ gDp old.rows) (hnvs : a.persist = .nvs) :
    dpConfigSave old.rows snap nvs (dpNvsKey a) = some (.blob (a.slot snap)) :=
  foldl_saveKey_mem (mem_savedPoints.mpr ⟨ha, hnvs⟩)
    (List.pairwise_map.mp old.savedPoints_nodup) snap nvs

/-- The save leaves the keys of ids that the catalogue does not have. -/
theorem dpConfigSave_other (h : ∀ a ∈ gDp old.rows, a.persist = .nvs → a.nvsId ≠ b.nvsId) :
    dpConfigSave old.rows snap nvs (dpNvsKey b) = nvs (dpNvsKey b) := by
  refine foldl_saveKey_other (fun e he hkey => ?_) snap nvs
  obtain ⟨hmem, hnvs⟩ := mem_savedPoints.mp he
  injection hkey with hid
  exact h e hmem hnvs hid

/-- A point that is not stored keeps its slot in the load. -/
theorem dpConfigLoad_unsaved (hb : b ∈ gDp new.rows) (hnvs : b.persist ≠ .nvs) (img : Mem) :
    b.slot (dpConfigLoad new.rows nvs img) = b.slot img := by
  refine (loadKey_writesSlot nvs).foldl_disjoint (fun e he => ?_) img
  obtain ⟨hmem, hsaved⟩ := mem_savedPoints.mp he
  have hne : e ≠ b := fun h => hnvs (h ▸ hsaved)
  exact gDp_disjoint hmem hb hne

/-- What the load leaves in the slot of a stored point. -/
theorem updated_slot (hb : b ∈ gDp new.rows) (hnvs : b.persist = .nvs) :
    b.slot (old.updated new snap nvs) =
      (storedSlot (dpConfigSave old.rows snap nvs) b).getD (b.slot new.defaults) :=
  dpConfigLoad_slot (mem_savedPoints.mpr ⟨hb, hnvs⟩) _ _

/-- Under one id the first catalogue stores one value. -/
theorem Carries.unique {bytes bytes' : List UInt8} (h : old.Carries snap b bytes)
    (h' : old.Carries snap b bytes') : bytes = bytes' := by
  obtain ⟨-, a, ha, hnvs, hid, -, rfl⟩ := h
  obtain ⟨-, a', ha', hnvs', hid', -, rfl⟩ := h'
  have heq : a = a' := List.inj_on_of_nodup_map old.savedPoints_nodup
    (mem_savedPoints.mpr ⟨ha, hnvs⟩) (mem_savedPoints.mpr ⟨ha', hnvs'⟩) (hid.trans hid'.symm)
  rw [heq]

/-- A carried value is loaded where the range check lets it through. -/
theorem updated_carried {bytes : List UInt8} (hb : b ∈ gDp new.rows)
    (h : old.Carries snap b bytes) :
    b.slot (old.updated new snap nvs) =
      if slotInRange b.toDpPoint (write (fun _ => 0) 0 bytes) 0 = true then b.terminated bytes
      else b.slot new.defaults := by
  obtain ⟨hnvs, a, ha, hsaved, hid, hsize, rfl⟩ := h
  have hkey : dpConfigSave old.rows snap nvs (dpNvsKey b) = some (.blob (a.slot snap)) := by
    rw [← dpConfigSave_key ha hsaved, dpNvsKey, dpNvsKey, hid]
  rw [updated_slot hb hnvs, storedSlot_blob hkey, a.length_slot, hsize]
  split_ifs with hboth hrange hrange
  · rfl
  · exact absurd hboth.2 hrange
  · exact absurd ⟨rfl, hrange⟩ hboth
  · rfl

/-- A value of another size is not loaded. -/
theorem updated_resized (hb : b ∈ gDp new.rows) (hnvs : b.persist = .nvs) (ha : a ∈ gDp old.rows)
    (hsaved : a.persist = .nvs) (hid : a.nvsId = b.nvsId) (hsize : a.size ≠ b.size) :
    b.slot (old.updated new snap nvs) = b.slot new.defaults := by
  have hkey : dpConfigSave old.rows snap nvs (dpNvsKey b) = some (.blob (a.slot snap)) := by
    rw [← dpConfigSave_key ha hsaved, dpNvsKey, dpNvsKey, hid]
  rw [updated_slot hb hnvs, storedSlot_blob hkey, a.length_slot, if_neg fun h => hsize h.1]
  rfl

/-- A point of the second catalogue only finds what has been there before. -/
theorem updated_new (hb : b ∈ gDp new.rows) (hnvs : b.persist = .nvs)
    (hnew : ∀ a ∈ gDp old.rows, a.persist = .nvs → a.nvsId ≠ b.nvsId) :
    b.slot (old.updated new snap nvs) = (storedSlot nvs b).getD (b.slot new.defaults) := by
  rw [updated_slot hb hnvs, storedSlot_congr (dpConfigSave_other hnew)]

theorem terminated_of_readsNaN {p : DpPoint} {bytes : List UInt8} (h : p.ReadsNaN bytes) :
    p.terminated bytes = bytes := by
  rw [DpPoint.terminated, h.1]
  rfl

/-- The range check lets a NaN through. -/
theorem slotInRange_of_readsNaN {p : DpPoint} {bytes : List UInt8} (h : p.ReadsNaN bytes) :
    slotInRange p (write (fun _ => 0) 0 bytes) 0 = true := by
  obtain ⟨htype, -, hnan⟩ := h
  rw [slotInRange, htype]
  exact DpPoint.inRange_of_isNaN ((isNaN_widen _).trans hnan)

theorem Survives.clean (h : Survives old new snap nvs) : Clean old new snap nvs where
  noNaN b hb bytes hcarries hnan := by
    have hbounds := new.bounds _ (mem_rows hb)
    have hkept := h.kept b hb fun bytes' hcarries' hwithin =>
      ((DpPoint.readsWithin_iff hbounds).mp hwithin).2 (hcarries.unique hcarries' ▸ hnan)
    rw [← hkept, updated_carried hb hcarries, if_pos (slotInRange_of_readsNaN hnan),
      terminated_of_readsNaN hnan]
  noRemains b hb hnvs hnew bytes hstored := by
    have hkept := h.kept b hb fun bytes' ⟨_, a, ha, hsaved, hid, _⟩ => absurd hid (hnew a ha hsaved)
    rw [← hkept, updated_new hb hnvs hnew, hstored]
    rfl

theorem Clean.survives (h : Clean old new snap nvs) : Survives old new snap nvs where
  restored b hb bytes hcarries hwithin := by
    have hbounds := new.bounds _ (mem_rows hb)
    rw [updated_carried hb hcarries,
      if_pos ((DpPoint.readsWithin_iff hbounds).mp hwithin).1]
  kept b hb hout := by
    by_cases hnvs : b.persist = .nvs
    · by_cases hold : ∃ a ∈ gDp old.rows, a.persist = .nvs ∧ a.nvsId = b.nvsId
      · obtain ⟨a, ha, hsaved, hid⟩ := hold
        by_cases hsize : a.size = b.size
        · have hcarries : old.Carries snap b (a.slot snap) :=
            ⟨hnvs, a, ha, hsaved, hid, hsize, rfl⟩
          rw [updated_carried hb hcarries]
          split_ifs with hrange
          · have hnan : b.ReadsNaN (a.slot snap) := by
              by_contra hnan
              exact hout _ hcarries
                ((DpPoint.readsWithin_iff (new.bounds _ (mem_rows hb))).mpr ⟨hrange, hnan⟩)
            rw [terminated_of_readsNaN hnan, h.noNaN b hb _ hcarries hnan]
          · rfl
        · exact updated_resized hb hnvs ha hsaved hid hsize
      · have hnew : ∀ a ∈ gDp old.rows, a.persist = .nvs → a.nvsId ≠ b.nvsId :=
          fun a ha hsaved hid => hold ⟨a, ha, hsaved, hid⟩
        rw [updated_new hb hnvs hnew]
        cases hstored : storedSlot nvs b with
        | none => rfl
        | some bytes => exact h.noRemains b hb hnvs hnew bytes hstored
    · exact dpConfigLoad_unsaved hb hnvs _

/-- **Persistence across schema changes**: saving under one catalogue and loading under another
    restores what both have and the new bounds allow, and nothing else, exactly when no carried
    value becomes a NaN at a bounded point and nothing usable remains of an earlier firmware. -/
theorem survives_iff (old new : StoredCatalogue) (snap : Mem) (nvs : Nvs) :
    Survives old new snap nvs ↔ Clean old new snap nvs :=
  ⟨Survives.clean, Clean.survives⟩

end Save

/-- One `float` under the id 113, with these bounds. -/
def scaleOnly (min max : Option Float32) (h : ∀ b ∈ min.toList ++ max.toList, b.isNaN = false) :
    StoredCatalogue where
  rows := [dp "Fon_Sensor_Scale" .f32 .rw .nvs 113 (.flt 1.0) min max 0.0]
  ids := List.nodup_singleton _
  ids_pos := by simp [dp]
  ids_lt := by simp [dp]
  bounds := by simpa [dp] using h

theorem isNaN_scaleBounds : ∀ b ∈ (some 0.1 : Option Float32).toList ++ (some 100.0).toList,
    b.isNaN = false := by
  decide +kernel

/-- A NaN stored while there was no bound is loaded into the bounded point. -/
theorem loaded_nan :
    ¬ Survives (scaleOnly none none (by simp)) (scaleOnly (some 0.1) (some 100.0) isNaN_scaleBounds)
      (write (fun _ => 0) 0 [0, 0, 0xC0, 0x7F]) (fun _ => none) := by
  intro h
  have hclean := h.clean
  have hbytes := hclean.noNaN _ List.mem_cons_self [0, 0, 0xC0, 0x7F]
    ⟨rfl, _, List.mem_cons_self, rfl, rfl, rfl, by decide⟩ ⟨rfl, .inl rfl, by decide +kernel⟩
  exact absurd hbytes (by decide +kernel)

end StoredCatalogue

end Fountainer.Datapoints
