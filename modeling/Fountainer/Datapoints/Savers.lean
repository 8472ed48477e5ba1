import Fountainer.Datapoints.Reboot

/-!
# Concurrent writers and the NVS

A call of `dp_write_batch` is two critical sections and a loop outside the lock: the
commit, the snapshot of `dp_config_save`, and then one NVS write a key. Calls of several
callers interleave at these steps. The snapshots are numbered in the order they are
taken; a key is safe as long as no caller puts the value of an older snapshot over that
of a newer one.
-/

namespace Fountainer.Datapoints

open Bytes

/-- Where a caller of `dp_write_batch` stands. -/
inductive Phase where
  /-- Not in a call. -/
  | idle
  /-- The batch is committed to RAM, the save has not taken its snapshot. -/
  | committed
  /-- The save writes the keys of `rest` from its snapshot, the `number`-th taken. -/
  | saving (snap : Mem) (number : ℕ) (rest : List DpDesc)

/-- The store and its callers. The fields from `taken` on only record the history. -/
structure Savers where
  img : Mem
  nvs : Nvs
  phase : ℕ → Phase
  /-- The calls that have returned with `*pbPersisted = true`. -/
  returned : ℕ
  taken : ℕ
  /-- The snapshots by number, from 1 on. -/
  snaps : ℕ → Mem
  /-- The newest snapshot that the key was written from; 0 for none. -/
  stamp : NvsKey → ℕ

/-- No caller is in a call. -/
def Savers.init (img : Mem) (nvs : Nvs) : Savers :=
  { img, nvs, phase := fun _ => .idle, returned := 0, taken := 0, snaps := fun _ => img,
    stamp := fun _ => 0 }

/-- A step of the caller `t`. -/
inductive SaverOp where
  | commit (t : ℕ) (dpIn : Json)
  | snapshot (t : ℕ)
  | write (t : ℕ)
  | ret (t : ℕ)

/-- The state after a step; a step that does not fit the caller's phase does nothing. -/
def Savers.step (s : Savers) : SaverOp → Savers
  | .commit t dpIn =>
    match s.phase t with
    | .idle =>
      if (dpWriteBatch s.img dpIn).ok then
        { s with
          img := (dpWriteBatch s.img dpIn).img
          phase := Function.update s.phase t .committed }
      else s
    | _ => s
  | .snapshot t =>
    match s.phase t with
    | .committed =>
      { s with
        phase := Function.update s.phase t (.saving s.img (s.taken + 1) (savedPoints dpList))
        taken := s.taken + 1
        snaps := Function.update s.snaps (s.taken + 1) s.img }
    | _ => s
  | .write t =>
    match s.phase t with
    | .saving snap number (d :: rest) =>
      { s with
        nvs := saveKey snap s.nvs d
        phase := Function.update s.phase t (.saving snap number rest)
        stamp := Function.update s.stamp (dpNvsKey d) (max (s.stamp (dpNvsKey d)) number) }
    | _ => s
  | .ret t =>
    match s.phase t with
    | .saving _ _ [] =>
      { s with phase := Function.update s.phase t .idle, returned := s.returned + 1 }
    | _ => s

/-- The write does not reach the defect: where a newer snapshot has written the key, the
    value stored there is the one to be written. -/
def Savers.Guard (s : Savers) : SaverOp → Prop
  | .write t =>
    match s.phase t with
    | .saving snap number (d :: _) =>
      number < s.stamp (dpNvsKey d) → s.nvs (dpNvsKey d) = some (.blob (d.slot snap))
    | _ => True
  | _ => True

/-- What every run keeps that never puts an older value over a newer one. -/
structure Savers.Ordered (s : Savers) : Prop where
  /-- A written key holds the value of the newest snapshot that wrote it. -/
  stored : ∀ d ∈ savedPoints dpList, 0 < s.stamp (dpNvsKey d) →
    s.nvs (dpNvsKey d) = some (.blob (d.slot (s.snaps (s.stamp (dpNvsKey d)))))
  stamp_le : ∀ key, s.stamp key ≤ s.taken
  /-- A saving caller has left its number, or a newer one, on the keys behind it. -/
  saving : ∀ t snap number rest, s.phase t = .saving snap number rest →
    0 < number ∧ number ≤ s.taken ∧ snap = s.snaps number ∧
      ∃ done, savedPoints dpList = done ++ rest ∧ ∀ d ∈ done, number ≤ s.stamp (dpNvsKey d)
  /-- The newest snapshot is being saved, or has written every key. -/
  newest : 0 < s.taken → (∃ t snap rest, s.phase t = .saving snap s.taken rest) ∨
    ∀ d ∈ savedPoints dpList, s.taken ≤ s.stamp (dpNvsKey d)
  /-- A change of the image since the newest snapshot belongs to a caller that has yet
      to take its own. -/
  fresh : 0 < s.taken → s.img = s.snaps s.taken ∨ ∃ t, s.phase t = .committed
  returned : 0 < s.returned → 0 < s.taken

theorem Savers.ordered_init (img : Mem) (nvs : Nvs) : (Savers.init img nvs).Ordered where
  stored := fun _ _ h => absurd h (lt_irrefl 0)
  stamp_le := fun _ => le_rfl
  saving := nofun
  newest := fun h => absurd h (lt_irrefl 0)
  fresh := fun h => absurd h (lt_irrefl 0)
  returned := fun h => absurd h (lt_irrefl 0)

section Steps

variable {s : Savers} {t : ℕ}

/-- The phase of a caller after a step of the caller `t`. -/
theorem update_phase_cases {phase : ℕ → Phase} {p q : Phase} {u : ℕ}
    (h : Function.update phase t p u = q) : (u = t ∧ p = q) ∨ (u ≠ t ∧ phase u = q) := by
  by_cases hu : u = t
  · subst hu
    rw [Function.update_self] at h
    exact .inl ⟨rfl, h⟩
  · rw [Function.update_of_ne hu] at h
    exact .inr ⟨hu, h⟩

/-- A step of the caller `t` leaves a caller that was in another phase where it is. -/
theorem update_phase_other {phase : ℕ → Phase} {p q q' : Phase} {u : ℕ} (ht : phase t = q)
    (hu : phase u = q') (hne : q ≠ q') : Function.update phase t p u = q' := by
  refine (Function.update_of_ne ?_ _ _).trans hu
  rintro rfl
  exact hne (ht.symm.trans hu)

theorem Savers.Ordered.commit (h : s.Ordered) (hidle : s.phase t = .idle) (img : Mem) :
    Ordered { s with img, phase := Function.update s.phase t .committed } where
  stored := h.stored
  stamp_le := h.stamp_le
  saving := by
    intro u snap number rest hu
    rcases update_phase_cases hu with ⟨-, hq⟩ | ⟨-, hu⟩
    · cases hq
    · exact h.saving u snap number rest hu
  newest := by
    intro htaken
    rcases h.newest htaken with ⟨u, snap, rest, hu⟩ | hall
    · exact .inl ⟨u, snap, rest, update_phase_other hidle hu (by simp)⟩
    · exact .inr hall
  fresh := fun _ => .inr ⟨t, Function.update_self _ _ _⟩
  returned := h.returned

theorem Savers.Ordered.snapshot (h : s.Ordered) :
    Ordered { s with
      phase := Function.update s.phase t (.saving s.img (s.taken + 1) (savedPoints dpList))
      taken := s.taken + 1
      snaps := Function.update s.snaps (s.taken + 1) s.img } where
  stored := by
    intro d hd hpos
    have hle := h.stamp_le (dpNvsKey d)
    rw [h.stored d hd hpos]
    dsimp only
    rw [Function.update_of_ne (by omega)]
  stamp_le := fun key => (h.stamp_le key).trans (Nat.le_succ _)
  saving := by
    intro u snap number rest hu
    rcases update_phase_cases hu with ⟨-, hq⟩ | ⟨-, hu⟩
    · cases hq
      exact ⟨Nat.succ_pos _, le_rfl, (Function.update_self (s.taken + 1) s.img s.snaps).symm, [],
        (List.nil_append _).symm, fun d hd => absurd hd List.not_mem_nil⟩
    · obtain ⟨hpos, hle, hsnap, hdone⟩ := h.saving u snap number rest hu
      refine ⟨hpos, hle.trans (Nat.le_succ _), ?_, hdone⟩
      dsimp only
      rw [Function.update_of_ne (by omega), hsnap]
  newest := fun _ => .inl ⟨t, _, _, Function.update_self _ _ _⟩
  fresh := fun _ => .inl (Function.update_self (s.taken + 1) s.img s.snaps).symm
  returned := fun _ => Nat.succ_pos _

theorem Savers.Ordered.write (h : s.Ordered) {snap : Mem} {number : ℕ} {d : DpDesc}
    {rest : List DpDesc} (hphase : s.phase t = .saving snap number (d :: rest))
    (hguard : number < s.stamp (dpNvsKey d) → s.nvs (dpNvsKey d) = some (.blob (d.slot snap))) :
    Ordered { s with
      nvs := saveKey snap s.nvs d
      phase := Function.update s.phase t (.saving snap number rest)
      stamp := Function.update s.stamp (dpNvsKey d) (max (s.stamp (dpNvsKey d)) number) } := by
  obtain ⟨hpos, hle, hsnap, done, hsplit, hdone⟩ := h.saving t snap number _ hphase
  have hmono : ∀ key, s.stamp key ≤
      Function.update s.stamp (dpNvsKey d) (max (s.stamp (dpNvsKey d)) number) key := by
    intro key
    by_cases hkey : key = dpNvsKey d
    · subst hkey
      rw [Function.update_self]
      exact le_max_left _ _
    · rw [Function.update_of_ne hkey]
  have hmem : d ∈ savedPoints dpList := by
    rw [hsplit]
    simp
  constructor
  case stored =>
    intro e he hstamp
    by_cases hkey : dpNvsKey e = dpNvsKey d
    · injection hkey with hid
      obtain rfl := List.inj_on_of_nodup_map savedPoints_ids he hmem hid
      dsimp only
      rw [saveKey, Function.update_self, Function.update_self]
      by_cases hnewer : number < s.stamp (dpNvsKey e)
      · -- The key keeps the value of the newer snapshot.
        rw [max_eq_left hnewer.le, ← hguard hnewer, h.stored e he (by omega)]
      · rw [max_eq_right (not_lt.mp hnewer), hsnap]
    · dsimp only at hstamp ⊢
      rw [Function.update_of_ne hkey] at hstamp ⊢
      rw [saveKey, Function.update_of_ne hkey, h.stored e he hstamp]
  case stamp_le =>
    intro key
    dsimp only
    by_cases hkey : key = dpNvsKey d
    · subst hkey
      rw [Function.update_self]
      exact max_le (h.stamp_le _) hle
    · rw [Function.update_of_ne hkey]
      exact h.stamp_le key
  case saving =>
    intro u snap' number' rest' hu
    rcases update_phase_cases hu with ⟨-, hq⟩ | ⟨-, hu⟩
    · cases hq
      refine ⟨hpos, hle, hsnap, done ++ [d], by rw [hsplit, List.append_assoc]; rfl, ?_⟩
      intro e he
      rcases List.mem_append.mp he with he | he
      · exact (hdone e he).trans (hmono _)
      · obtain rfl := List.mem_singleton.mp he
        dsimp only
        rw [Function.update_self]
        exact le_max_right _ _
    · obtain ⟨hpos', hle', hsnap', done', hsplit', hdone'⟩ := h.saving u snap' number' rest' hu
      exact ⟨hpos', hle', hsnap', done', hsplit', fun e he => (hdone' e he).trans (hmono _)⟩
  case newest =>
    intro htaken
    rcases h.newest htaken with ⟨u, snap', rest', hu⟩ | hall
    · by_cases hut : u = t
      · subst hut
        cases hphase.symm.trans hu
        exact .inl ⟨u, snap, rest, Function.update_self _ _ _⟩
      · exact .inl ⟨u, snap', rest', (Function.update_of_ne hut _ _).trans hu⟩
    · exact .inr (fun e he => (hall e he).trans (hmono _))
  case fresh =>
    intro htaken
    rcases h.fresh htaken with himg | ⟨u, hu⟩
    · exact .inl himg
    · exact .inr ⟨u, update_phase_other hphase hu (by simp)⟩
  case returned => exact h.returned

theorem Savers.Ordered.ret (h : s.Ordered) {snap : Mem} {number : ℕ}
    (hphase : s.phase t = .saving snap number []) :
    Ordered { s with phase := Function.update s.phase t .idle, returned := s.returned + 1 } := by
  obtain ⟨hpos, hle, -, done, hsplit, hdone⟩ := h.saving t snap number _ hphase
  rw [List.append_nil] at hsplit
  constructor
  case stored => exact h.stored
  case stamp_le => exact h.stamp_le
  case saving =>
    intro u snap' number' rest' hu
    rcases update_phase_cases hu with ⟨-, hq⟩ | ⟨-, hu⟩
    · cases hq
    · exact h.saving u snap' number' rest' hu
  case newest =>
    intro htaken
    rcases h.newest htaken with ⟨u, snap', rest', hu⟩ | hall
    · by_cases hut : u = t
      · -- The newest snapshot has now written every key.
        subst hut
        cases hphase.symm.trans hu
        refine .inr (fun d hd => hdone d ?_)
        rwa [← hsplit]
      · exact .inl ⟨u, snap', rest', (Function.update_of_ne hut _ _).trans hu⟩
    · exact .inr hall
  case fresh =>
    intro htaken
    rcases h.fresh htaken with himg | ⟨u, hu⟩
    · exact .inl himg
    · exact .inr ⟨u, update_phase_other hphase hu (by simp)⟩
  case returned => exact fun _ => hpos.trans_le hle

/-- A step that does not put an older value over a newer one keeps the order. -/
theorem Savers.Ordered.step (h : s.Ordered) {op : SaverOp} (hguard : s.Guard op) :
    (s.step op).Ordered := by
  cases op with
  | commit t dpIn =>
    rw [Savers.step]
    split
    · next hidle =>
      split
      · exact h.commit hidle _
      · exact h
    · exact h
  | snapshot t =>
    rw [Savers.step]
    split
    · exact h.snapshot
    · exact h
  | write t =>
    rw [Savers.step]
    split
    · next snap number d rest hphase =>
      apply h.write hphase
      simpa only [Savers.Guard, hphase] using hguard
    · exact h
  | ret t =>
    rw [Savers.step]
    split
    · next hphase => exact h.ret hphase
    · exact h

end Steps

/-- The NVS value of every NVS point is its value in the image. -/
def Savers.Agrees (s : Savers) : Prop :=
  ∀ d ∈ savedPoints dpList, s.nvs (dpNvsKey d) = some (.blob (d.slot s.img))

/-- When every caller has returned, a saved point has the same value in both places. -/
theorem Savers.Ordered.agree {s : Savers} (h : s.Ordered) (hidle : ∀ t, s.phase t = .idle)
    (hret : 0 < s.returned) : s.Agrees := by
  intro d hd
  have htaken := h.returned hret
  have himg : s.img = s.snaps s.taken := by
    rcases h.fresh htaken with himg | ⟨t, ht⟩
    · exact himg
    · cases (hidle t).symm.trans ht
  have hstamp : s.stamp (dpNvsKey d) = s.taken := by
    rcases h.newest htaken with ⟨t, snap, rest, ht⟩ | hall
    · cases (hidle t).symm.trans ht
    · exact le_antisymm (h.stamp_le _) (hall d hd)
  rw [h.stored d hd (by omega), hstamp, himg]

/-- The state after the steps `ops` of the callers. -/
def saversRun (img : Mem) (nvs : Nvs) (ops : List SaverOp) : Savers :=
  Machine.run Savers.step (Savers.init img nvs) ops

/-- **RAM and NVS agree once all callers have returned**, when no caller ever puts the
    value of an older snapshot over a different value of a newer one. -/
theorem savers_agree (img : Mem) (nvs : Nvs) (ops : List SaverOp)
    (hguard : Machine.Guarded Savers.step Savers.Guard (Savers.init img nvs) ops)
    (hidle : ∀ t, (saversRun img nvs ops).phase t = .idle)
    (hret : 0 < (saversRun img nvs ops).returned) : (saversRun img nvs ops).Agrees := by
  have hordered : (saversRun img nvs ops).Ordered :=
    hguard.invariant Savers.step (fun s op hg hs => hs.step hg) (Savers.ordered_init img nvs)
  exact hordered.agree hidle hret

/-- The caller is not in a call. -/
def Phase.isIdle : Phase → Bool
  | .idle => true
  | _ => false

theorem Phase.eq_idle {p : Phase} (h : p.isIdle = true) : p = .idle := by
  cases p with
  | idle => rfl
  | committed => cases h
  | saving snap number rest => cases h

/-- The caller of a step. -/
def SaverOp.caller : SaverOp → ℕ
  | .commit t _ | .snapshot t | .write t | .ret t => t

theorem Savers.step_phase {s : Savers} {op : SaverOp} {t : ℕ} (h : op.caller ≠ t) :
    (s.step op).phase t = s.phase t := by
  cases op with
  | commit u dpIn =>
    rw [Savers.step]
    split
    · split
      · exact Function.update_of_ne (Ne.symm h) _ _
      · rfl
    · rfl
  | snapshot u | write u | ret u =>
    rw [Savers.step]
    split
    · exact Function.update_of_ne (Ne.symm h) _ _
    · rfl

/-- A caller without a step in the run stays where it was. -/
theorem run_phase {s : Savers} {ops : List SaverOp} {t : ℕ} (h : ∀ op ∈ ops, op.caller ≠ t) :
    (Machine.run Savers.step s ops).phase t = s.phase t := by
  induction ops generalizing s with
  | nil => rfl
  | cons op ops ih =>
    rw [Machine.run_cons, ih (fun op hop => h op (List.mem_cons_of_mem _ hop)),
      Savers.step_phase (h op List.mem_cons_self)]

/-- All callers are back when those with a step in the run are. -/
theorem saversRun_idle {img : Mem} {nvs : Nvs} {ops : List SaverOp}
    (h : ∀ op ∈ ops, ((saversRun img nvs ops).phase op.caller).isIdle = true) (t : ℕ) :
    (saversRun img nvs ops).phase t = .idle := by
  by_cases ht : ∃ op ∈ ops, op.caller = t
  · obtain ⟨op, hop, rfl⟩ := ht
    exact (h op hop |> Phase.eq_idle)
  · have hno : ∀ op ∈ ops, op.caller ≠ t := fun op hop heq => ht ⟨op, hop, heq⟩
    rw [saversRun, run_phase hno]
    rfl

instance (s : Savers) : ∀ op, Decidable (s.Guard op)
  | .write t =>
    match h : s.phase t with
    | .saving snap number (d :: _) =>
      decidable_of_iff
        (number < s.stamp (dpNvsKey d) → s.nvs (dpNvsKey d) = some (.blob (d.slot snap)))
        (by rw [Savers.Guard, h])
    | .saving _ _ [] => .isTrue (by rw [Savers.Guard, h]; trivial)
    | .committed => .isTrue (by rw [Savers.Guard, h]; trivial)
    | .idle => .isTrue (by rw [Savers.Guard, h]; trivial)
  | .commit _ _ | .snapshot _ | .ret _ => .isTrue trivial

/-- The key writes of a save and the return. -/
def writesOf (t : ℕ) : List SaverOp :=
  List.replicate (savedPoints dpList).length (.write t) ++ [.ret t]

/-- A batch for the report interval. -/
def reportInterval (x : Float) : Json := .object [("Fon_Report_Interval", .number x)]

/-- The image of a factory-new device. -/
def factoryImage : Mem := (dpInit none (fun _ => none)).1

/-- Two callers in turn. -/
def callsInTurn : List SaverOp :=
  [.commit 0 (reportInterval 20), .snapshot 0] ++ writesOf 0 ++
    ([.commit 1 (reportInterval 33), .snapshot 1] ++ writesOf 1)

theorem savers_agree_in_turn : (saversRun factoryImage (fun _ => none) callsInTurn).Agrees := by
  apply savers_agree
  · decide +kernel
  · exact saversRun_idle (by decide +kernel)
  · decide +kernel

/-- Two callers save at the same time, and the one with the older snapshot writes its
    keys last. -/
def callsOverlapping : List SaverOp :=
  [.commit 0 (reportInterval 20), .snapshot 0, .commit 1 (reportInterval 33), .snapshot 1] ++
    writesOf 1 ++ writesOf 0

/-- Both callers have returned, and the value acknowledged to the second is not in the
    NVS. -/
theorem savers_lose_write :
    (∀ t, (saversRun factoryImage (fun _ => none) callsOverlapping).phase t = .idle) ∧
    (saversRun factoryImage (fun _ => none) callsOverlapping).returned = 2 ∧
    ¬ (saversRun factoryImage (fun _ => none) callsOverlapping).Agrees ∧
    imgU16 (saversRun factoryImage (fun _ => none) callsOverlapping).img
    "Fon_Report_Interval" = 33 ∧
    (saversRun factoryImage (fun _ => none) callsOverlapping).nvs (.point 111) =
      some (.blob [20, 0]) := by
  refine ⟨saversRun_idle (by decide +kernel), ?_⟩
  unfold Savers.Agrees
  decide +kernel

end Fountainer.Datapoints
