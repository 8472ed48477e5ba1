import Fountainer.Canopen.Gating

/-!
# Targets of RPDOs

What `map_validate` of `co_core.c` accepts for an RPDO. The source checks the targets for
existence only, and finds out by reading them: an object that exists and cannot be read, as
a command that may only be written, is refused like one that does not exist.
-/

namespace Fountainer.Canopen

variable {σ : Type*} {A : App σ} {w : World σ}

/-- The objects of an application. An object that answers a read exists; one that exists need
    not be readable. -/
structure Objects (A : App σ) where
  present : UInt16 → UInt8 → Prop
  present_of_read : ∀ {s index sub cap}, (A.odRead s index sub cap).1.code = 0 → present index sub

/-- The target of every entry exists. -/
def Objects.Has (D : Objects A) (map : List UInt32) : Prop :=
  ∀ e ∈ map, D.present (entryIndex e) (entrySub e)

/-- The answers of the application when the targets are read one after the other. -/
def targetReads (A : App σ) : σ → List UInt32 → List OdRead
  | _, [] => []
  | s, e :: es =>
    let r := A.odRead s (entryIndex e) (entrySub e) coSdoBufSize
    r.1 :: targetReads A r.2 es

/-- Every target answers its read. -/
def Readable (A : App σ) (s : σ) (map : List UInt32) : Prop := ∀ r ∈ targetReads A s map, r.code = 0

theorem readable_cons {s : σ} {e : UInt32} {es : List UInt32} :
    Readable A s (e :: es) ↔ (A.odRead s (entryIndex e) (entrySub e) coSdoBufSize).1.code = 0 ∧
      Readable A (A.odRead s (entryIndex e) (entrySub e) coSdoBufSize).2 es :=
  List.forall_mem_cons

/-- What can be read exists. -/
theorem Objects.has_of_readable (D : Objects A) {s : σ} {map : List UInt32} (h : Readable A s map) :
    D.Has map := by
  induction map generalizing s with
  | nil => exact fun e he => absurd he List.not_mem_nil
  | cons e es ih =>
    obtain ⟨hread, hrest⟩ := readable_cons.mp h
    exact List.forall_mem_cons.mpr ⟨D.present_of_read hread, ih hrest⟩

-- ════════════════════════════════════════════════════════════════════════
-- What the check accepts
-- ════════════════════════════════════════════════════════════════════════

/-- An object outside the communication profile is read from the application as it stands. -/
theorem odRead_external {index : UInt16} {sub : UInt8} {cap : ℕ}
    (h : isInternalIndex index = false) :
    (odRead A w index sub cap).1 = (A.odRead w.app index sub cap).1 ∧
      (odRead A w index sub cap).2.app = (A.odRead w.app index sub cap).2 := by
  simp only [odRead, h, Bool.false_eq_true, if_false, World.emit_app, and_self]

/-- The loop, with the bits summed so far. It is the entry at which the sum passes 64 that
    fails, so a sum within the limit at the end was within it throughout. -/
theorem mapValidateFrom_rpdo_iff {total : ℕ} (htotal : total ≤ 64) (es : List UInt32) :
    (mapValidateFrom A false w total es).1 = 0 ↔
      ((∀ e ∈ es, entryBits e ∈ [8, 16, 32, 64]) ∧ total + (es.map entryBits).sum ≤ 64 ∧
        ∀ e ∈ es, 0x2000 ≤ entryIndex e) ∧ Readable A w.app es := by
  induction es generalizing w total with
  | nil => simpa [mapValidateFrom, Readable, targetReads] using htotal
  | cons e es ih =>
    have hmap : abortPdoMap ≠ 0 := by decide
    have hlength : abortPdoLength ≠ 0 := by decide
    simp only [List.forall_mem_cons, List.map_cons, List.sum_cons, readable_cons]
    rw [mapValidateFrom]
    split
    · next hbits => exact iff_of_false hmap fun h => hbits h.1.1.1
    split
    · next hroom =>
      refine iff_of_false hlength fun h => ?_
      have hsum := h.1.2.1
      omega
    next hbits hroom =>
    by_cases htarget : 0x2000 ≤ entryIndex e
    · obtain ⟨hread, happ⟩ := @odRead_external _ A w (entryIndex e) (entrySub e) coSdoBufSize
        (isInternalIndex_of_le htarget)
      have hrest := @ih (odRead A w (entryIndex e) (entrySub e) coSdoBufSize).2
        (total + entryBits e) (not_lt.mp hroom)
      rw [happ] at hrest
      simp only [hread, Bool.false_eq_true, false_and, if_false, UInt16.not_lt.mpr htarget,
        and_false, ne_eq, ite_not, not_not.mp hbits, htarget, true_and]
      split
      · next hok => rw [hrest, add_assoc, and_iff_right hok]
      · next hfail => exact iff_of_false hmap fun h => hfail h.2.1
    · have hlt : entryIndex e < 0x2000 := UInt16.not_le.mp htarget
      refine iff_of_false ?_ fun h => htarget h.1.2.2.1
      simp only [hlt, Bool.false_eq_true, false_and, if_false, not_false_eq_true, and_self, if_true]
      split <;> exact hmap

/-- A mapping passes when it fits a frame, avoids the communication profile, and every target
    answers a read. -/
theorem mapValidate_rpdo_iff (A : App σ) (w : World σ) (map : List UInt32) :
    (mapValidate A w map false).1 = 0 ↔ MapFits false map ∧ Readable A w.app map := by
  rw [mapValidate, mapValidateFrom_rpdo_iff (Nat.zero_le 64), Nat.zero_add]
  refine and_congr_left fun _ => ?_
  constructor
  · rintro ⟨hbits, hsum, htarget⟩
    exact ⟨hbits, hsum, fun _ => htarget⟩
  · rintro ⟨hbits, hsum, htarget⟩
    exact ⟨hbits, hsum, htarget rfl⟩

/-- `co_rpdo_configure` takes exactly the mappings that pass the check. -/
theorem coRpdoConfigure_iff (A : App σ) (w : World σ) (n : UInt8) (cobId : UInt16)
    (transType : UInt8)
    (map : List UInt32) :
    (coRpdoConfigure A w n cobId transType map).1 = true ↔
      n.toNat < coRpdoCount ∧ map.length ≤ coPdoMapMax ∧ MapFits false map ∧
      Readable A w.app map := by
  rw [← mapValidate_rpdo_iff, ← and_assoc]
  simp only [coRpdoConfigure]
  split
  · next h =>
    rw [and_iff_right h]
    split
    · next hfail => exact iff_of_false Bool.false_ne_true hfail
    · next hvalid => exact iff_of_true rfl (not_not.mp hvalid)
  · next h => exact iff_of_false Bool.false_ne_true fun h' => h h'.1

/-- **Targets are checked for existence by reading them**: a mapping is accepted exactly when it
    fits a frame and all its targets exist outside the communication profile, if and only if it
    is not such a mapping with a target that does not answer its read. -/
theorem acceptsExisting_iff (D : Objects A) (w : World σ) (map : List UInt32) :
    ((mapValidate A w map false).1 = 0 ↔ MapFits false map ∧ D.Has map) ↔
      ¬ (MapFits false map ∧ D.Has map ∧ ¬ Readable A w.app map) := by
  rw [mapValidate_rpdo_iff]
  constructor
  · rintro h ⟨hfits, hhas, hread⟩
    exact hread (h.mpr ⟨hfits, hhas⟩).2
  · intro h
    constructor
    · rintro ⟨hfits, hread⟩
      exact ⟨hfits, D.has_of_readable hread⟩
    · rintro ⟨hfits, hhas⟩
      by_contra hfail
      exact h ⟨hfits, hhas, fun hread => hfail ⟨hfits, hread⟩⟩

/-- An application with a command of one byte at 0x2006. It may be written only, and a read of
    it aborts with `CO_ABORT_WRITE_ONLY`. -/
def commandApp : App Unit where
  send _ _ := (true, ())
  odRead _ index sub _ :=
    (.abort (if sub ≠ 0 then abortNoSubindex
      else if index = 0x2006 then 0x06010001 else abortNoObject), ())
  odWrite _ index sub buf :=
    (if sub ≠ 0 then abortNoSubindex
      else if index = 0x2006 then if buf.length = 1 then 0 else abortTypeMismatch
      else abortNoObject, ())
  onReset _ _ := ([], ())
  onNmtChanged s _ _ := s

/-- The command exists. -/
def commandObjects : Objects commandApp where
  present index sub := index = 0x2006 ∧ sub = 0
  present_of_read h := by
    refine absurd h ?_
    dsimp only [commandApp, OdRead.abort]
    repeat' split
    all_goals decide

/-- A node just started refuses to map the command, because it cannot be read. -/
theorem command_unmapped :
    let w := coInit commandApp exampleConfig 0 ()
    ¬ ((mapValidate commandApp w [0x20060008] false).1 = 0 ↔
      MapFits false [0x20060008] ∧ commandObjects.Has [0x20060008]) := by
  intro w h
  have hexists : commandObjects.Has [0x20060008] := by
    simp only [Objects.Has, List.forall_mem_singleton]
    exact ⟨by decide, by decide⟩
  have hfits : MapFits false [0x20060008] :=
    ⟨List.forall_mem_singleton.mpr (by decide), by decide,
      fun _ => List.forall_mem_singleton.mpr (by decide)⟩
  have hread := ((mapValidate_rpdo_iff commandApp w _).mp (h.mpr ⟨hfits, hexists⟩)).2
  exact absurd (readable_cons.mp hread).1 (by decide)

end Fountainer.Canopen
