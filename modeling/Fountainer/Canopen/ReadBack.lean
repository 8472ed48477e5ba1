import Fountainer.Canopen.Parts

/-!
# Writes that read back

The communication profile as a table over index and sub-index. `od_internal_read` and
`od_internal_write` are two case trees over the same records; a write either leaves the
node alone or replaces the single entry that it names. Each record is first a table of
its own, over the sub-index.
-/

namespace Fountainer.Canopen

open Bytes (leU16 leU32)

/-- The entries of a record: what a read of each sub-index answers, for each capacity. -/
abbrev RecordTable := UInt8 → ℕ → OdRead

/-- What the communication objects of a node read. -/
def odTable (n : CoNode) : UInt16 × UInt8 → ℕ → OdRead :=
  fun key cap => odInternalRead n key.1 key.2 cap

/-- The entries of an RPDO communication record. -/
def rpdoCommTable (p : RpdoParams) : RecordTable := fun sub cap =>
  if sub = 0 then rdU8 cap 2
  else if sub = 1 then rdU32 cap p.cobId
  else if sub = 2 then rdU8 cap p.transType
  else .abort abortNoSubindex

/-- The entries of a TPDO communication record. -/
def tpdoCommTable (p : TpdoParams) : RecordTable := fun sub cap =>
  if sub = 0 then rdU8 cap 5
  else if sub = 1 then rdU32 cap p.cobId
  else if sub = 2 then rdU8 cap p.transType
  else if sub = 3 then rdU16 cap p.inhibit100us
  else if sub = 4 then rdU8 cap 0
  else if sub = 5 then rdU16 cap p.eventMs
  else .abort abortNoSubindex

/-- The entries of a mapping record. -/
def mapTable (count : UInt8) (map : Fin coPdoMapMax → UInt32) : RecordTable :=
  fun sub cap => readMap cap sub count map

section Bytes

variable {buf : List UInt8}

theorem leU16_coGetU16 (h : buf.length = 2) : leU16 (coGetU16 buf) = buf := by
  match buf, h with
  | [a, b], _ => exact Bytes.leU16_rdU16 _ 0

theorem leU32_coGetU32 (h : buf.length = 4) : leU32 (coGetU32 buf) = buf := by
  match buf, h with
  | [a, b, c, d], _ => exact Bytes.leU32_rdU32 _ 0

end Bytes

-- ════════════════════════════════════════════════════════════════════════
-- The records of the profile
-- ════════════════════════════════════════════════════════════════════════

theorem pdoOf_eq_some {base count : ℕ} {index : UInt16} {i : Fin count}
    (h : pdoOf base count index = some i) : index.toNat = base + i := by
  unfold pdoOf at h
  split at h
  · next hle => rw [← Option.some.inj h, Nat.add_sub_cancel' hle.1]
  · cases h

theorem pdoOf_eq_none {base count : ℕ} {index : UInt16}
    (h : index.toNat < base ∨ base + count ≤ index.toNat) : pdoOf base count index = none := by
  unfold pdoOf
  rw [dif_neg]
  omega

/-- The records that describe the PDOs. -/
inductive PdoRecord where
  | rpdoComm (i : Fin coRpdoCount)
  | rpdoMap (i : Fin coRpdoCount)
  | tpdoComm (i : Fin coTpdoCount)
  | tpdoMap (i : Fin coTpdoCount)
  deriving DecidableEq, Repr

namespace PdoRecord

/-- The index of a record. -/
def index : PdoRecord → ℕ
  | rpdoComm i => 0x1400 + i
  | rpdoMap i => 0x1600 + i
  | tpdoComm i => 0x1800 + i
  | tpdoMap i => 0x1A00 + i

/-- The record that an index names. -/
def ofIndex (index : UInt16) : Option PdoRecord :=
  match pdoOf 0x1400 coRpdoCount index, pdoOf 0x1600 coRpdoCount index,
    pdoOf 0x1800 coTpdoCount index, pdoOf 0x1A00 coTpdoCount index with
  | some i, _, _, _ => some (rpdoComm i)
  | none, some i, _, _ => some (rpdoMap i)
  | none, none, some i, _ => some (tpdoComm i)
  | none, none, none, some i => some (tpdoMap i)
  | none, none, none, none => none

/-- What the sub-indices of a record read. -/
def table (n : CoNode) : PdoRecord → RecordTable
  | rpdoComm i => rpdoCommTable (n.rpdo i).toRpdoParams
  | rpdoMap i => mapTable (n.rpdo i).mapCount (n.rpdo i).map
  | tpdoComm i => tpdoCommTable (n.tpdo i).toTpdoParams
  | tpdoMap i => mapTable (n.tpdo i).mapCount (n.tpdo i).map

/-- The write to a record. -/
def write {σ : Type*} (A : App σ) (w : World σ) (sub : UInt8) (buf : List UInt8) :
    PdoRecord → UInt32 × World σ
  | rpdoComm i => writeRpdoComm w i sub buf
  | rpdoMap i => writeRpdoMap A w i sub buf
  | tpdoComm i => writeTpdoComm w i sub buf
  | tpdoMap i => writeTpdoMap A w i sub buf

/-- A record of COB-ID, transmission type and times. -/
def isComm : PdoRecord → Bool
  | rpdoComm _ => true
  | tpdoComm _ => true
  | rpdoMap _ => false
  | tpdoMap _ => false

theorem index_ge (r : PdoRecord) : 0x1400 ≤ r.index := by
  cases r <;> simp only [index] <;> omega

theorem ofIndex_eq_some {idx : UInt16} {r : PdoRecord} (h : ofIndex idx = some r) :
    idx.toNat = r.index := by
  unfold ofIndex at h
  split at h
  · next hi =>
    cases h
    exact pdoOf_eq_some hi
  · next hi =>
    cases h
    exact pdoOf_eq_some hi
  · next hi =>
    cases h
    exact pdoOf_eq_some hi
  · next hi =>
    cases h
    exact pdoOf_eq_some hi
  · cases h

/-- An index names at most one record. -/
theorem ofIndex_inj {idx idx' : UInt16} {r : PdoRecord} (h : ofIndex idx = some r)
    (h' : ofIndex idx' = some r) : idx' = idx :=
  UInt16.toNat_inj.mp ((ofIndex_eq_some h').trans (ofIndex_eq_some h).symm)

theorem ofIndex_eq_none {idx : UInt16} (h : idx.toNat < 0x1400) : ofIndex idx = none := by
  rcases hr : ofIndex idx with _ | r
  · rfl
  · have hge := r.index_ge
    have heq := ofIndex_eq_some hr
    omega

end PdoRecord

/-- From 0x1400 on there are only the records of the PDOs. -/
theorem odInternalRead_record {n : CoNode} {index : UInt16} (sub : UInt8) (cap : ℕ)
    (h : 0x1400 ≤ index.toNat) :
    odInternalRead n index sub cap =
      match PdoRecord.ofIndex index with
      | some r => r.table n sub cap
      | none => .abort abortNoObject := by
  have hne : ∀ k : UInt16, k.toNat < 0x1400 → index ≠ k := by
    rintro k hk rfl
    omega
  simp only [odInternalRead, if_neg (hne 0x1000 (by decide)), if_neg (hne 0x1001 (by decide)),
    if_neg (hne 0x1005 (by decide)), if_neg (hne 0x1008 (by decide)),
    if_neg (hne 0x1009 (by decide)), if_neg (hne 0x100A (by decide)),
    if_neg (hne 0x1014 (by decide)), if_neg (hne 0x1017 (by decide)),
    if_neg (hne 0x1018 (by decide)), if_neg (hne 0x1200 (by decide)), PdoRecord.ofIndex]
  generalize pdoOf 0x1400 coRpdoCount index = a, pdoOf 0x1600 coRpdoCount index = b,
    pdoOf 0x1800 coTpdoCount index = c, pdoOf 0x1A00 coTpdoCount index = d
  obtain _ | i := a
  · obtain _ | i := b
    · obtain _ | i := c
      · obtain _ | i := d
        · rfl
        · rfl
      · rfl
    · rfl
  · rfl

theorem odTable_record {n : CoNode} {index : UInt16} {r : PdoRecord}
    (h : PdoRecord.ofIndex index = some r) (sub : UInt8) :
    odTable n (index, sub) = r.table n sub := by
  funext cap
  have hge : 0x1400 ≤ index.toNat := (PdoRecord.ofIndex_eq_some h).symm ▸ r.index_ge
  rw [odTable, odInternalRead_record sub cap hge, h]

/-- The objects outside the records do not depend on the PDOs. -/
theorem odTable_fixed {n n' : CoNode} (hcfg : n'.cfg = n.cfg)
    (hreg : n'.errorRegister = n.errorRegister) {index : UInt16}
    (h : PdoRecord.ofIndex index = none) (sub : UInt8) :
    odTable n' (index, sub) = odTable n (index, sub) := by
  funext cap
  rcases Nat.lt_or_ge index.toNat 0x1400 with hlt | hge
  · have hnone : ∀ base count, 0x1400 ≤ base → pdoOf base count index = none :=
      fun base count hbase => pdoOf_eq_none (Or.inl (Nat.lt_of_lt_of_le hlt hbase))
    simp only [odTable, odInternalRead, hcfg, hreg, hnone 0x1400 _ (by decide),
      hnone 0x1600 _ (by decide), hnone 0x1800 _ (by decide), hnone 0x1A00 _ (by decide)]
  · simp only [odTable, odInternalRead_record sub cap hge, h]

/-- A table that changes in one row at one place. -/
theorem eq_update_of_row {ι κ V : Type*} [DecidableEq ι] [DecidableEq κ] {T T' : ι × κ → V}
    {i : ι} {k : κ} {v : V}
    (hrow : (fun k' => T' (i, k')) = Function.update (fun k' => T (i, k')) k v)
    (hother : ∀ j, j ≠ i → ∀ k', T' (j, k') = T (j, k')) :
    T' = Function.update T (i, k) v := by
  obtain ⟨hself, hrest⟩ := Function.eq_update_iff.mp hrow
  refine Function.eq_update_iff.mpr ⟨hself, fun ⟨j, k'⟩ hne => ?_⟩
  by_cases hj : j = i
  · subst hj
    exact hrest k' fun hk => hne (congrArg (Prod.mk j) hk)
  · exact hother j hj k'

/-- A record that changes at one sub-index changes the profile there. -/
theorem odTable_update {n n' : CoNode} {index : UInt16} {r : PdoRecord} {sub : UInt8}
    {value : ℕ → OdRead} (hr : PdoRecord.ofIndex index = some r) (hcfg : n'.cfg = n.cfg)
    (hreg : n'.errorRegister = n.errorRegister)
    (hself : r.table n' = Function.update (r.table n) sub value)
    (hother : ∀ r', r' ≠ r → r'.table n' = r'.table n) :
    odTable n' = Function.update (odTable n) (index, sub) value := by
  refine eq_update_of_row ?_ fun index' hne sub' => ?_
  · simp only [odTable_record hr]
    exact hself
  · rcases hr' : PdoRecord.ofIndex index' with _ | r'
    · exact odTable_fixed hcfg hreg hr' sub'
    · rw [odTable_record hr', odTable_record hr', hother r' ?_]
      rintro rfl
      exact hne (PdoRecord.ofIndex_inj hr hr')

-- ════════════════════════════════════════════════════════════════════════
-- Entries that change
-- ════════════════════════════════════════════════════════════════════════

section Tables

variable (p : RpdoParams) (q : TpdoParams)

theorem rpdoCommTable_cobId (v : UInt32) : rpdoCommTable { p with cobId := v } =
    Function.update (rpdoCommTable p) 1 (fun cap => .value cap (leU32 v)) := by
  refine Function.eq_update_iff.mpr ⟨rfl, fun sub hsub => ?_⟩
  funext cap
  simp only [rpdoCommTable, if_neg hsub]

theorem rpdoCommTable_transType (v : UInt8) : rpdoCommTable { p with transType := v } =
    Function.update (rpdoCommTable p) 2 (fun cap => .value cap [v]) := by
  refine Function.eq_update_iff.mpr ⟨rfl, fun sub hsub => ?_⟩
  funext cap
  simp only [rpdoCommTable, if_neg hsub]

theorem tpdoCommTable_cobId (v : UInt32) : tpdoCommTable { q with cobId := v } =
    Function.update (tpdoCommTable q) 1 (fun cap => .value cap (leU32 v)) := by
  refine Function.eq_update_iff.mpr ⟨rfl, fun sub hsub => ?_⟩
  funext cap
  simp only [tpdoCommTable, if_neg hsub]

theorem tpdoCommTable_transType (v : UInt8) : tpdoCommTable { q with transType := v } =
    Function.update (tpdoCommTable q) 2 (fun cap => .value cap [v]) := by
  refine Function.eq_update_iff.mpr ⟨rfl, fun sub hsub => ?_⟩
  funext cap
  simp only [tpdoCommTable, if_neg hsub]

theorem tpdoCommTable_inhibit (v : UInt16) : tpdoCommTable { q with inhibit100us := v } =
    Function.update (tpdoCommTable q) 3 (fun cap => .value cap (leU16 v)) := by
  refine Function.eq_update_iff.mpr ⟨rfl, fun sub hsub => ?_⟩
  funext cap
  simp only [tpdoCommTable, if_neg hsub]

theorem tpdoCommTable_event (v : UInt16) : tpdoCommTable { q with eventMs := v } =
    Function.update (tpdoCommTable q) 5 (fun cap => .value cap (leU16 v)) := by
  refine Function.eq_update_iff.mpr ⟨rfl, fun sub hsub => ?_⟩
  funext cap
  simp only [tpdoCommTable, if_neg hsub]

theorem mapTable_count (count v : UInt8) (map : Fin coPdoMapMax → UInt32) :
    mapTable v map = Function.update (mapTable count map) 0 (fun cap => .value cap [v]) := by
  refine Function.eq_update_iff.mpr ⟨rfl, fun sub hsub => ?_⟩
  funext cap
  simp only [mapTable, readMap, if_neg hsub]

theorem mapSub_eq_some {sub : UInt8} {k : Fin coPdoMapMax} (h : mapSub sub = some k) :
    sub.toNat = k + 1 := by
  unfold mapSub at h
  split at h
  · next hle => rw [← Option.some.inj h, Nat.sub_add_cancel hle.1]
  · cases h

theorem mapTable_entry (count : UInt8) (map : Fin coPdoMapMax → UInt32) {sub : UInt8}
    {k : Fin coPdoMapMax} (hk : mapSub sub = some k) (e : UInt32) :
    mapTable count (Function.update map k e) =
      Function.update (mapTable count map) sub (fun cap => .value cap (leU32 e)) := by
  have hsub := mapSub_eq_some hk
  refine Function.eq_update_iff.mpr ⟨?_, fun sub' heq => ?_⟩
  · have hne : ¬ sub = 0 := by
      rintro rfl
      exact Nat.succ_ne_zero _ hsub.symm
    funext cap
    simp only [mapTable, readMap, if_neg hne, hk, Function.update_self]
    rfl
  · funext cap
    simp only [mapTable, readMap]
    split
    · rfl
    · rcases hk' : mapSub sub' with _ | k'
      · rfl
      · have hne : k' ≠ k := by
          rintro rfl
          exact heq (UInt8.toNat_inj.mp ((mapSub_eq_some hk').trans hsub.symm))
        simp only [Function.update_of_ne hne]

end Tables

/-- The record `r` reads `bytes` at `sub`, and everything else is as it was. -/
structure PdoRecord.Replaced (r : PdoRecord) (n n' : CoNode) (sub : UInt8) (bytes : List UInt8) :
    Prop where
  cfg : n'.cfg = n.cfg
  errorRegister : n'.errorRegister = n.errorRegister
  self : r.table n' = Function.update (r.table n) sub (fun cap => .value cap bytes)
  other : ∀ r', r' ≠ r → r'.table n' = r'.table n

section Replaced

variable {n : CoNode} {sub : UInt8} {bytes : List UInt8}

theorem PdoRecord.table_setRpdo (i : Fin coRpdoCount) (p : CoRpdo) {r : PdoRecord}
    (hcomm : r ≠ .rpdoComm i) (hmap : r ≠ .rpdoMap i) : r.table (n.setRpdo i p) = r.table n := by
  cases r with
  | rpdoComm j => rw [table, table, CoNode.setRpdo_of_ne n (mt (congrArg rpdoComm) hcomm)]
  | rpdoMap j => rw [table, table, CoNode.setRpdo_of_ne n (mt (congrArg rpdoMap) hmap)]
  | tpdoComm j => rfl
  | tpdoMap j => rfl

theorem PdoRecord.table_setTpdo (i : Fin coTpdoCount) (p : CoTpdo) {r : PdoRecord}
    (hcomm : r ≠ .tpdoComm i) (hmap : r ≠ .tpdoMap i) : r.table (n.setTpdo i p) = r.table n := by
  cases r with
  | rpdoComm j => rfl
  | rpdoMap j => rfl
  | tpdoComm j => rw [table, table, CoNode.setTpdo_of_ne n (mt (congrArg tpdoComm) hcomm)]
  | tpdoMap j => rw [table, table, CoNode.setTpdo_of_ne n (mt (congrArg tpdoMap) hmap)]

theorem PdoRecord.Replaced.rpdoComm {i : Fin coRpdoCount} {p : CoRpdo}
    (hself : rpdoCommTable p.toRpdoParams =
      Function.update (rpdoCommTable (n.rpdo i).toRpdoParams) sub (fun cap => .value cap bytes))
    (hcount : p.mapCount = (n.rpdo i).mapCount) (hmap : p.map = (n.rpdo i).map) :
    Replaced (.rpdoComm i) n (n.setRpdo i p) sub bytes where
  cfg := rfl
  errorRegister := rfl
  self := by rw [table, CoNode.setRpdo_self, hself, table]
  other r' hne := by
    by_cases hr : r' = .rpdoMap i
    · rw [hr, table, table, CoNode.setRpdo_self, hcount, hmap]
    · exact table_setRpdo i p hne hr

theorem PdoRecord.Replaced.rpdoMap {i : Fin coRpdoCount} {p : CoRpdo}
    (hself : mapTable p.mapCount p.map =
      Function.update (mapTable (n.rpdo i).mapCount (n.rpdo i).map) sub
        (fun cap => .value cap bytes))
    (hcob : p.cobId = (n.rpdo i).cobId) (htype : p.transType = (n.rpdo i).transType) :
    Replaced (.rpdoMap i) n (n.setRpdo i p) sub bytes where
  cfg := rfl
  errorRegister := rfl
  self := by rw [table, CoNode.setRpdo_self, hself, table]
  other r' hne := by
    by_cases hr : r' = .rpdoComm i
    · funext s cap
      rw [hr, table, table, CoNode.setRpdo_self, rpdoCommTable, rpdoCommTable, hcob, htype]
    · exact table_setRpdo i p hr hne

theorem PdoRecord.Replaced.tpdoComm {i : Fin coTpdoCount} {p : CoTpdo}
    (hself : tpdoCommTable p.toTpdoParams =
      Function.update (tpdoCommTable (n.tpdo i).toTpdoParams) sub (fun cap => .value cap bytes))
    (hcount : p.mapCount = (n.tpdo i).mapCount) (hmap : p.map = (n.tpdo i).map) :
    Replaced (.tpdoComm i) n (n.setTpdo i p) sub bytes where
  cfg := rfl
  errorRegister := rfl
  self := by rw [table, CoNode.setTpdo_self, hself, table]
  other r' hne := by
    by_cases hr : r' = .tpdoMap i
    · rw [hr, table, table, CoNode.setTpdo_self, hcount, hmap]
    · exact table_setTpdo i p hne hr

theorem PdoRecord.Replaced.tpdoMap {i : Fin coTpdoCount} {p : CoTpdo}
    (hself : mapTable p.mapCount p.map =
      Function.update (mapTable (n.tpdo i).mapCount (n.tpdo i).map) sub
        (fun cap => .value cap bytes))
    (hcob : p.cobId = (n.tpdo i).cobId) (htype : p.transType = (n.tpdo i).transType)
    (hinh : p.inhibit100us = (n.tpdo i).inhibit100us) (hev : p.eventMs = (n.tpdo i).eventMs) :
    Replaced (.tpdoMap i) n (n.setTpdo i p) sub bytes where
  cfg := rfl
  errorRegister := rfl
  self := by rw [table, CoNode.setTpdo_self, hself, table]
  other r' hne := by
    by_cases hr : r' = .tpdoComm i
    · funext s cap
      rw [hr, table, table, CoNode.setTpdo_self, tpdoCommTable, tpdoCommTable, hcob, htype, hinh,
        hev]
    · exact table_setTpdo i p hr hne

end Replaced

-- ════════════════════════════════════════════════════════════════════════
-- Writing and reading back
-- ════════════════════════════════════════════════════════════════════════

section Writes

variable {σ : Type*} {A : App σ} {w : World σ} {index : UInt16} {sub : UInt8} {buf : List UInt8}

/-- The bytes that a record keeps of the written ones: of a COB-ID, the valid bit and the
    eleven bits of the identifier. -/
def PdoRecord.kept (r : PdoRecord) (sub : UInt8) (buf : List UInt8) : List UInt8 :=
  if r.isComm ∧ sub = 1 then leU32 (coGetU32 buf &&& (cobIdInvalid ||| 0x7FF)) else buf

/-- The bytes that the profile keeps of the ones written at an index and sub-index. -/
def writtenBack (index : UInt16) (sub : UInt8) (buf : List UInt8) : List UInt8 :=
  match PdoRecord.ofIndex index with
  | some r => r.kept sub buf
  | none => buf

/-- A write to a record is refused without effect or replaces the one entry. -/
def PdoRecord.Outcome (r : PdoRecord) (n : CoNode) (sub : UInt8) (buf : List UInt8)
    (out : UInt32 × World σ) : Prop :=
  out.1 ≠ 0 ∧ out.2.node = n ∨ out.1 = 0 ∧ r.Replaced n out.2.node sub (r.kept sub buf)

theorem PdoRecord.Outcome.refused {r : PdoRecord} {code : UInt32} (h : code ≠ 0) :
    r.Outcome w.node sub buf (code, w) :=
  Or.inl ⟨h, rfl⟩

/-- Where nothing is masked, a record keeps the bytes of the value. -/
theorem PdoRecord.kept_of_eq {r : PdoRecord} {bytes : List UInt8} (h : ¬ (r.isComm ∧ sub = 1))
    (hbuf : bytes = buf) : bytes = r.kept sub buf := by
  rw [kept, if_neg h, hbuf]

theorem PdoRecord.kept_of_map {r : PdoRecord} {bytes : List UInt8} (hmap : r.isComm ≠ true)
    (hbuf : bytes = buf) : bytes = r.kept sub buf :=
  kept_of_eq (fun h => hmap h.1) hbuf

theorem PdoRecord.Outcome.stored {r : PdoRecord} {bytes : List UInt8} {w' : World σ}
    (hkept : bytes = r.kept sub buf) (h : r.Replaced w.node w'.node sub bytes) :
    r.Outcome w.node sub buf (0, w') :=
  Or.inr ⟨rfl, hkept ▸ h⟩

theorem writeRpdoComm_outcome (i : Fin coRpdoCount) :
    (PdoRecord.rpdoComm i).Outcome w.node sub buf (writeRpdoComm w i sub buf) := by
  simp only [writeRpdoComm]
  split
  · exact .refused (by decide)
  split
  · next hsub =>
    subst hsub
    split
    · exact .refused (by decide)
    split
    · next hcheck => exact .refused hcheck
    · exact .stored rfl (.rpdoComm (rpdoCommTable_cobId _ _) rfl rfl)
  split
  · next hsub =>
    subst hsub
    split
    · exact .refused (by decide)
    next hlen =>
    split
    · exact .refused (by decide)
    · exact .stored
        (PdoRecord.kept_of_eq (fun h => absurd h.2 (by decide)) (eq_singleton_headD hlen).symm)
        (.rpdoComm (rpdoCommTable_transType _ _) rfl rfl)
  · exact .refused (by decide)

theorem writeTpdoComm_outcome (i : Fin coTpdoCount) :
    (PdoRecord.tpdoComm i).Outcome w.node sub buf (writeTpdoComm w i sub buf) := by
  simp only [writeTpdoComm]
  split
  · exact .refused (by decide)
  split
  · next hsub =>
    subst hsub
    split
    · exact .refused (by decide)
    split
    · next hcheck => exact .refused hcheck
    · exact .stored rfl (.tpdoComm (tpdoCommTable_cobId _ _) rfl rfl)
  split
  · next hsub =>
    subst hsub
    split
    · exact .refused (by decide)
    next hlen =>
    split
    · exact .refused (by decide)
    · exact .stored
        (PdoRecord.kept_of_eq (fun h => absurd h.2 (by decide)) (eq_singleton_headD hlen).symm)
        (.tpdoComm (tpdoCommTable_transType _ _) rfl rfl)
  split
  · next hsub =>
    subst hsub
    split
    · exact .refused (by decide)
    next hlen =>
    exact .stored
      (PdoRecord.kept_of_eq (fun h => absurd h.2 (by decide)) (leU16_coGetU16 (not_not.mp hlen)))
      (.tpdoComm (tpdoCommTable_inhibit _ _) rfl rfl)
  split
  · exact .refused (by decide)
  split
  · next hsub =>
    subst hsub
    split
    · exact .refused (by decide)
    next hlen =>
    exact .stored
      (PdoRecord.kept_of_eq (fun h => absurd h.2 (by decide)) (leU16_coGetU16 (not_not.mp hlen)))
      (.tpdoComm (tpdoCommTable_event _ _) rfl rfl)
  · exact .refused (by decide)

theorem writeRpdoMap_outcome (i : Fin coRpdoCount) :
    (PdoRecord.rpdoMap i).Outcome w.node sub buf (writeRpdoMap A w i sub buf) := by
  simp only [writeRpdoMap]
  split
  · next hsub =>
    subst hsub
    split
    · exact .refused (by decide)
    next hlen =>
    split
    · exact .refused (by decide)
    split
    · next hcheck => exact Or.inl ⟨hcheck, mapValidate_node⟩
    · refine .stored (PdoRecord.kept_of_map Bool.false_ne_true (eq_singleton_headD hlen).symm) ?_
      rw [mapValidate_node]
      exact .rpdoMap (mapTable_count _ _ _) rfl rfl
  · split
    · exact .refused (by decide)
    next k hk =>
    split
    · exact .refused (by decide)
    next hlen =>
    split
    · exact .refused (by decide)
    · exact .stored (PdoRecord.kept_of_map Bool.false_ne_true (leU32_coGetU32 (not_not.mp hlen)))
        (.rpdoMap (mapTable_entry _ _ hk _) rfl rfl)

theorem writeTpdoMap_outcome (i : Fin coTpdoCount) :
    (PdoRecord.tpdoMap i).Outcome w.node sub buf (writeTpdoMap A w i sub buf) := by
  simp only [writeTpdoMap]
  split
  · next hsub =>
    subst hsub
    split
    · exact .refused (by decide)
    next hlen =>
    split
    · exact .refused (by decide)
    split
    · next hcheck => exact Or.inl ⟨hcheck, mapValidate_node⟩
    · refine .stored (PdoRecord.kept_of_map Bool.false_ne_true (eq_singleton_headD hlen).symm) ?_
      rw [mapValidate_node]
      exact .tpdoMap (mapTable_count _ _ _) rfl rfl rfl rfl
  · split
    · exact .refused (by decide)
    next k hk =>
    split
    · exact .refused (by decide)
    next hlen =>
    split
    · exact .refused (by decide)
    · exact .stored (PdoRecord.kept_of_map Bool.false_ne_true (leU32_coGetU32 (not_not.mp hlen)))
        (.tpdoMap (mapTable_entry _ _ hk _) rfl rfl rfl rfl)

theorem PdoRecord.write_outcome (r : PdoRecord) :
    r.Outcome w.node sub buf (r.write A w sub buf) := by
  cases r with
  | rpdoComm i => exact writeRpdoComm_outcome i
  | rpdoMap i => exact writeRpdoMap_outcome i
  | tpdoComm i => exact writeTpdoComm_outcome i
  | tpdoMap i => exact writeTpdoMap_outcome i

/-- Outside the heartbeat time, a write goes to the record that the index names. -/
theorem odInternalWrite_record (h : index ≠ 0x1017) :
    odInternalWrite A w index sub buf =
      if index ∈ readOnlyIndices then (abortReadOnly, w)
      else
        match PdoRecord.ofIndex index with
        | some r => r.write A w sub buf
        | none => (abortNoObject, w) := by
  simp only [odInternalWrite, if_neg h, PdoRecord.ofIndex]
  generalize pdoOf 0x1400 coRpdoCount index = a, pdoOf 0x1600 coRpdoCount index = b,
    pdoOf 0x1800 coTpdoCount index = c, pdoOf 0x1A00 coTpdoCount index = d
  obtain _ | i := a
  · obtain _ | i := b
    · obtain _ | i := c
      · obtain _ | i := d
        · rfl
        · rfl
      · rfl
    · rfl
  · rfl

/-- The heartbeat time is read at its own index only. -/
theorem odTable_heartbeat (n : CoNode) (ms : UInt16) (t : UInt32) :
    odTable { n with cfg := { n.cfg with heartbeatMs := ms }, hbLastMs := t } =
      Function.update (odTable n) (0x1017, 0) (fun cap => .value cap (leU16 ms)) := by
  refine Function.eq_update_iff.mpr ⟨rfl, fun ⟨index, sub⟩ hne => ?_⟩
  funext cap
  by_cases hindex : index = 0x1017
  · subst hindex
    have hsub : sub ≠ 0 := by
      rintro rfl
      exact hne rfl
    change OdRead.single sub _ = OdRead.single sub _
    simp only [OdRead.single, if_pos hsub]
  · simp only [odTable, odInternalRead, if_neg hindex]

/-- A write leaves the node alone or replaces the one entry of the profile. -/
theorem odInternalWrite_table :
    (odInternalWrite A w index sub buf).1 ≠ 0 ∧
        (odInternalWrite A w index sub buf).2.node = w.node ∨
      (odInternalWrite A w index sub buf).1 = 0 ∧
        odTable (odInternalWrite A w index sub buf).2.node =
          Function.update (odTable w.node) (index, sub)
            (fun cap => .value cap (writtenBack index sub buf)) := by
  by_cases hindex : index = 0x1017
  · subst hindex
    have hnone : PdoRecord.ofIndex 0x1017 = none := PdoRecord.ofIndex_eq_none (by decide)
    simp only [odInternalWrite, if_true, writtenBack, hnone]
    split
    · exact Or.inl ⟨(by decide : abortNoSubindex ≠ 0), rfl⟩
    next hsub =>
    split
    · exact Or.inl ⟨(by decide : abortTypeMismatch ≠ 0), rfl⟩
    next hlen =>
    have hbuf := leU16_coGetU16 (not_not.mp hlen)
    rw [not_not.mp hsub]
    refine Or.inr ⟨rfl, (odTable_heartbeat w.node (coGetU16 buf) w.node.nowMs).trans ?_⟩
    rw [hbuf]
  · rw [odInternalWrite_record hindex]
    split
    · exact Or.inl ⟨(by decide : abortReadOnly ≠ 0), rfl⟩
    rcases hr : PdoRecord.ofIndex index with _ | r
    · exact Or.inl ⟨(by decide : abortNoObject ≠ 0), rfl⟩
    · simp only [writtenBack, hr]
      rcases @PdoRecord.write_outcome σ A w sub buf r with hout | ⟨hzero, hrep⟩
      · exact Or.inl hout
      · exact Or.inr ⟨hzero,
          odTable_update hr hrep.cfg hrep.errorRegister hrep.self hrep.other⟩

/-- A write to the communication profile that is refused leaves the node as it was. An
    accepted one is read back at its index and sub-index, and every other index and
    sub-index reads as before. -/
theorem odInternalWrite_readBack {σ : Type*} (A : App σ) (w : World σ) (index : UInt16)
    (sub : UInt8) (buf : List UInt8) :
    ((odInternalWrite A w index sub buf).1 ≠ 0 →
        (odInternalWrite A w index sub buf).2.node = w.node) ∧
      ((odInternalWrite A w index sub buf).1 = 0 →
        (∀ cap, odInternalRead (odInternalWrite A w index sub buf).2.node index sub cap =
          .value cap (writtenBack index sub buf)) ∧
        ∀ index' sub', (index', sub') ≠ (index, sub) → ∀ cap,
          odInternalRead (odInternalWrite A w index sub buf).2.node index' sub' cap =
            odInternalRead w.node index' sub' cap) := by
  rcases @odInternalWrite_table _ A w index sub buf with ⟨hcode, hnode⟩ | ⟨hcode, htable⟩
  · exact ⟨fun _ => hnode, fun hzero => absurd hzero hcode⟩
  · obtain ⟨hself, hother⟩ := Function.eq_update_iff.mp htable
    exact ⟨fun hne => absurd hcode hne, fun _ => ⟨fun cap => congrFun hself cap,
      fun index' sub' hne cap => congrFun (hother (index', sub') hne) cap⟩⟩

end Writes

end Fountainer.Canopen
