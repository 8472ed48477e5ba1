import Fountainer.Network.Trial

/-!
# Where the backup comes from

The `Backup_*` values are meant to be known-good: those of a connection that has reached a session.
What `network_config_backup` copies are the `Network_*` values at the time of the session, and a
write can have changed them since the boot made its connection with them. `Traced` follows the
values that the connection really uses, and those with which a session has been reached.
-/

namespace Fountainer.Network

open Bytes Outage
open Datapoints Logging
open Protocol (Json.get? literal)

/-- A configuration with the addressing that a lease has brought. -/
def leased (ip mask gateway : Ip4) (c : NetConfig) : NetConfig :=
  Function.update (Function.update (Function.update c .ipAddress (ipStr ip).bytes)
    .subnetmask (ipStr mask).bytes) .gateway (ipStr gateway).bytes

/-- A configuration when `fountain_proto_start` forms the URI. The port has been read in
    `task_com_start`, the host behind the pointer is read now; without a host at the boot the
    pointer is the factory's. -/
def dialled (img : Mem) (c : NetConfig) : NetConfig :=
  if c .server = [] then c else Function.update c .server (config .network img .server)

-- ════════════════════════════════════════════════════════════════════════
-- Events
-- ════════════════════════════════════════════════════════════════════════

/-- An event of the device, a lease, or an attempt of the starter task to start the protocol. -/
inductive NetEvent where
  | device (e : Event)
  | gotIp (ip mask gateway : Ip4)
  | protoStart (starts : Bool)

/-- The device, the configuration that its connection uses, `s_bStarted`, and the configurations
    with which a boot has connected and reached a session. -/
structure Traced extends Station where
  inUse : Option NetConfig
  started : Bool
  known : List NetConfig

/-- The configuration that an event shows to be good. -/
def Traced.reached (w : Traced) : NetEvent → List NetConfig
  | .device (.sessionReady _) => if w.on && w.started then w.inUse.toList else []
  | _ => []

section

variable (json : Option Json) (fallback : CString × CString)

/-- A step of the traced device. -/
def Traced.step (w : Traced) : NetEvent → Traced
  | .device e =>
    let r := w.toStation.step json fallback e
    { toStation := r.1
      inUse := if e.isBoot then r.2 else w.inUse
      started := !e.isBoot && w.started
      known := w.reached (.device e) ++ w.known }
  | .gotIp ip mask gateway =>
    match w.on, gotIp ip mask gateway w.board with
    | true, .ok _ b => { w with board := b, inUse := w.inUse.map (leased ip mask gateway) }
    | _, _ => w
  | .protoStart starts =>
    if w.on && !w.started then
      { w with inUse := w.inUse.map (dialled w.board.img), started := starts }
    else w

end

/-- A device as it leaves the factory: off, with an empty NVS. -/
def Traced.factory (b : Board) : Traced where
  board := { b with nvs := fun _ => none, trial := none }
  on := false
  inUse := none
  started := false
  known := []

/-- The device after a run from the factory. -/
def Traced.after (json : Option Json) (fallback : CString × CString) (b : Board)
    (events : List NetEvent) : Traced :=
  Machine.run (Traced.step json fallback) (Traced.factory b) events

-- ════════════════════════════════════════════════════════════════════════
-- When the copy is good
-- ════════════════════════════════════════════════════════════════════════

/-- No SSID, or a configuration with which a session has been reached. -/
def Good (known : List NetConfig) (c : NetConfig) : Prop := c .ssid = [] ∨ c ∈ known

instance (known : List NetConfig) (c : NetConfig) : Decidable (Good known c) :=
  inferInstanceAs (Decidable (_ ∨ _))

/-- The backup with the values of `new` under the first `n` keys of the NVS, and those of `old`
    under the others. -/
def mixture (n : ℕ) (new old : NetConfig) : NetConfig := fun f =>
  if f.point .backup ∈ (savedPoints dpList).take n then new f else old f

/-- The power goes out while the trial is confirmed. -/
def Board.ConfirmCut (b : Board) : Prop := b.trialActive = true ∧ ∃ n, b.fate 0 = .lost n

/-- What becomes of the save of `network_config_backup`, which follows the confirmation. -/
def Board.copyFate (b : Board) : Fate := b.fate (if b.trialActive then 1 else 0)

/-- A session-ready event leaves a good backup: it is not copied, or the settings are good, in the
    image if the device stays on, and in the NVS as far as the save gets. -/
def Board.CopiesGood (known : List NetConfig) (b : Board) : Prop :=
  b.ConfirmCut ∨ config .backup b.img = config .network b.img ∨
    Good known (mixture b.copyFate.writes (config .network b.img) (storedConfig .backup b.nvs)) ∧
      ((∃ n, b.copyFate = .lost n) ∨ Good known (config .network b.img))

/-- Saves with these transactions leave a good backup in the NVS. -/
def Board.SavesGood (known : List NetConfig) (fates : List Fate) (b : Board) : Prop :=
  ∀ fate ∈ fates,
    Good known (mixture fate.writes (config .backup b.img) (storedConfig .backup b.nvs))

/-- The events inside which the backup stays known-good. -/
def BackupGuard (w : Traced) (e : NetEvent) : Prop :=
  w.on = true →
    match e with
    | .device (.sessionReady fates) =>
      (w.board.setFates fates).CopiesGood (w.reached e ++ w.known)
    | .device (.write _ _ fates) => w.board.SavesGood w.known fates
    | .device (.tick _ _ fates) => w.board.SavesGood w.known fates
    | _ => True

variable {known : List NetConfig} {b : Board} {fates : List Fate} {live old : NetConfig}

theorem Good.append (h : Good known live) (new : List NetConfig) : Good (new ++ known) live :=
  h.imp_right (List.mem_append_right new)

@[simp] theorem mixture_self (n : ℕ) (c : NetConfig) : mixture n c c = c :=
  funext fun _ => ite_self _

/-- Two saves of the same values: the one that gets further decides. -/
theorem mixture_mixture (m n : ℕ) (new old : NetConfig) :
    mixture m new (mixture n new old) = mixture (max m n) new old := by
  funext f
  by_cases hm : f.point .backup ∈ (savedPoints dpList).take m
  · have hmax := (List.take_subset_take_left _ (le_max_left m n)) hm
    simp [mixture, hm, hmax]
  by_cases hn : f.point .backup ∈ (savedPoints dpList).take n
  · have hmax := (List.take_subset_take_left _ (le_max_right m n)) hn
    simp [mixture, hm, hn, hmax]
  · have hmax : f.point .backup ∉ (savedPoints dpList).take (max m n) := by
      rcases max_choice m n with h | h <;> rwa [h]
    simp [mixture, hm, hn, hmax]

/-- A whole save. -/
@[simp] theorem mixture_done (new old : NetConfig) : mixture Fate.done.writes new old = new := by
  funext f
  rw [mixture, Fate.writes, List.take_length, if_pos (f.point_saved .backup)]

theorem storedConfig_backup_mixture (n : ℕ) (img : Mem) (nvs : Nvs) :
    storedConfig .backup (dpConfigSaveFirst dpList n img nvs) =
      mixture n (config .backup img) (storedConfig .backup nvs) :=
  funext (storedConfig_backup_saveFirst n img nvs)

-- ════════════════════════════════════════════════════════════════════════
-- What the programs do to the backup
-- ════════════════════════════════════════════════════════════════════════

/-- The backup in the image stays `live`; the NVS has `old`, or what a save has made of it. -/
structure Kept (fates : List Fate) (live old : NetConfig) (b : Board) : Prop where
  noLegacy : NoLegacy b
  next : ∀ i, b.fate i ∈ Fate.done :: fates
  image : config .backup b.img = live
  stored : storedConfig .backup b.nvs = old ∨
    ∃ fate ∈ Fate.done :: fates, storedConfig .backup b.nvs = mixture fate.writes live old

theorem frame_kept (fates : List Fate) (live old : NetConfig) :
    WideFrame (Kept fates live old) where
  log _ h := ⟨h.noLegacy, h.next, h.image, h.stored⟩
  prevBoot _ h := ⟨h.noLegacy, h.next, h.image, h.stored⟩
  img _ himg h := ⟨h.noLegacy, h.next, himg.trans h.image, h.stored⟩
  popFate h := ⟨h.noLegacy, fun i => fate_popFate i ▸ h.next (i + 1), h.image, h.stored⟩
  save {b} h := by
    refine ⟨frame_noLegacy.save h.noLegacy, fun i => fate_popFate i ▸ h.next (i + 1), h.image,
      .inr ?_⟩
    have hsave : storedConfig .backup (b.popFate.saveFirst (b.fate 0).writes).nvs =
        mixture (b.fate 0).writes live (storedConfig .backup b.nvs) := by
      rw [← h.image]
      exact storedConfig_backup_mixture _ b.img b.nvs
    rcases h.stored with hold | ⟨fate, hfate, hmix⟩
    · exact ⟨_, h.next 0, by rw [hsave, hold]⟩
    · rw [hsave, hmix, mixture_mixture]
      rcases max_choice (b.fate 0).writes fate.writes with hmax | hmax
      · exact ⟨_, h.next 0, by rw [hmax]⟩
      · exact ⟨fate, hfate, by rw [hmax]⟩
  flag _ h := ⟨h.noLegacy, h.next, h.image, h.stored⟩
  window _ _ h := ⟨h.noLegacy, h.next, h.image, h.stored⟩

theorem fate_mem (h : b.fates = fates) (i : ℕ) : b.fate i ∈ Fate.done :: fates := by
  rw [Board.fate, h, List.getD_eq_getElem?_getD]
  cases hget : fates[i]? with
  | none => exact List.mem_cons_self
  | some fate => exact List.mem_cons_of_mem _ (List.mem_of_getElem? hget)

/-- What the NVS has when a step begins. -/
theorem Kept.start (hlegacy : NoLegacy b) (hfates : b.fates = fates) :
    Kept fates (config .backup b.img) (storedConfig .backup b.nvs) b :=
  ⟨hlegacy, fate_mem hfates, rfl, .inl rfl⟩

/-- When the values are good as far as every save gets, they are good. -/
theorem Kept.good (h : Kept fates live old b) (hlive : Good known live) (hold : Good known old)
    (hsaves : ∀ fate ∈ fates, Good known (mixture fate.writes live old)) :
    Good known (storedConfig .backup b.nvs) := by
  rcases h.stored with hstored | ⟨fate, hfate, hstored⟩
  · rwa [hstored]
  · rw [hstored]
    rcases List.mem_cons.mp hfate with rfl | hmem
    · rwa [mixture_done]
    · exact hsaves fate hmem

/-- The confirmation of a trial leaves the values. -/
theorem networkConfigTrialConfirm_spec (hlegacy : NoLegacy b) :
    Wp networkConfigTrialConfirm
      (fun _ b' => NoLegacy b' ∧ b'.nvs = b.nvs ∧ (∀ k, config k b'.img = config k b.img) ∧
        b'.fate 0 = b.copyFate ∧ ¬ b.ConfirmCut)
      (fun _ b' => NoLegacy b' ∧ b'.nvs = b.nvs ∧ b.ConfirmCut) b := by
  rw [networkConfigTrialConfirm, wp_bind, wp_get, wp_ite]
  split_ifs with hclosed
  · have hoff : b.trialActive = false := by simpa using hclosed
    exact ⟨hlegacy, rfl, fun _ => rfl, by rw [Board.copyFate, hoff]; rfl,
      fun h => by cases hoff.symm.trans h.1⟩
  · have hon : b.trialActive = true := by simpa using hclosed
    have hcopy : b.copyFate = b.fate 1 := by rw [Board.copyFate, hon]; rfl
    rw [wp_bind, wp_modify, wp_bind, wp_trialNvsSet, fate_setWindow]
    have hnext (b' : Board) (l : RuntimeLog) (himg : b'.img = b.img) (hnvs : b'.nvs = b.nvs)
        (hfate : b'.fate 0 = b.fate 1) (hnot : ¬ b.ConfirmCut) :
        let b'' := (b'.setImg (write b'.img (imgOff "Network_Trial_State") [2])).setLog l
        NoLegacy b'' ∧ b''.nvs = b.nvs ∧ (∀ k, config k b''.img = config k b.img) ∧
          b''.fate 0 = b.copyFate ∧ ¬ b.ConfirmCut := by
      have hlegacy' : NoLegacy b' := by
        rw [NoLegacy, hnvs]
        exact hlegacy
      refine ⟨frame_noLegacy.log l (frame_noLegacy.trialState 2 hlegacy'),
        by rw [Board.setLog_nvs, Board.setImg_nvs, hnvs], fun k => ?_,
        by rw [fate_setLog, fate_setImg, hfate, hcopy], hnot⟩
      rw [Board.setLog_img, Board.setImg_img, config_trialState, himg]
    cases hfate : b.fate 0 with
    | done =>
      rw [wp_bind, wp_setTrialState, wp_logging]
      exact hnext ((b.setWindow false b.trialDeadlineS).popFate.setTrial 0) _ rfl rfl
        (by rw [fate_setTrial, fate_popFate, fate_setWindow]) (by simp [Board.ConfirmCut, hfate])
    | failed n =>
      rw [wp_bind, wp_setTrialState, wp_logging]
      exact hnext (b.setWindow false b.trialDeadlineS).popFate _ rfl rfl
        (by rw [fate_popFate, fate_setWindow]) (by simp [Board.ConfirmCut, hfate])
    | lost n => exact ⟨hlegacy, rfl, hon, n, hfate⟩

/-- After a session-ready event the backup in the image is what the settings were. -/
theorem glueSessionBackup_spec (hlegacy : NoLegacy b) :
    Wp glueSessionBackup
      (fun _ b' => NoLegacy b' ∧ config .backup b'.img = config .network b.img ∧
        ¬ b.ConfirmCut ∧
        (config .backup b.img = config .network b.img ∧
            storedConfig .backup b'.nvs = storedConfig .backup b.nvs ∨
          config .backup b.img ≠ config .network b.img ∧ (∀ n, b.copyFate ≠ .lost n) ∧
            storedConfig .backup b'.nvs = mixture b.copyFate.writes (config .network b.img)
              (storedConfig .backup b.nvs)))
      (fun _ b' => NoLegacy b' ∧
        (storedConfig .backup b'.nvs = storedConfig .backup b.nvs ∧ b.ConfirmCut ∨
          config .backup b.img ≠ config .network b.img ∧ ¬ b.ConfirmCut ∧
            storedConfig .backup b'.nvs = mixture b.copyFate.writes (config .network b.img)
              (storedConfig .backup b.nvs))) b := by
  rw [glueSessionBackup, wp_bind]
  refine (networkConfigTrialConfirm_spec hlegacy).mono (fun _ b₁ h => ?_)
    (fun _ b' h => ⟨h.1, .inl ⟨by rw [h.2.1], h.2.2⟩⟩)
  obtain ⟨hlegacy, hnvs, himg, hfate, hnot⟩ := h
  rw [networkConfigBackup, wp_bind, wp_get, wp_ite]
  split_ifs with hsame
  · rw [Pending.backupMatches_iff, himg, himg] at hsame
    exact ⟨hlegacy, (himg .backup).trans hsame, hnot, .inl ⟨hsame, by rw [← hnvs]; rfl⟩⟩
  · have hne : config .backup b.img ≠ config .network b.img := by
      rwa [Pending.backupMatches_iff, himg, himg] at hsame
    have hbackup := (config_copyToBackup b₁.img).1
    rw [himg] at hbackup
    simp only [wp_bind, wp_modify]
    generalize copyToBackup b₁.img = img at hbackup ⊢
    have hstored (n : ℕ) : storedConfig .backup (dpConfigSaveFirst dpList n img b₁.nvs) =
        mixture n (config .network b.img) (storedConfig .backup b.nvs) := by
      rw [storedConfig_backup_mixture, hbackup, hnvs]
    have hsaved (n : ℕ) : NoLegacy ((b₁.setImg img).popFate.saveFirst n) :=
      (legacyCompatible_saveFirst n img b₁.nvs).trans hlegacy
    rw [wp_dpConfigSave, fate_setImg, hfate]
    cases hcopy : b.copyFate with
    | done => exact ⟨hsaved _, hbackup, hnot, .inr ⟨hne, by simp, hstored _⟩⟩
    | failed n => exact ⟨hsaved _, hbackup, hnot, .inr ⟨hne, by simp, hstored _⟩⟩
    | lost n => exact ⟨hsaved _, .inr ⟨hne, hnot, hstored _⟩⟩

-- ════════════════════════════════════════════════════════════════════════
-- Leases
-- ════════════════════════════════════════════════════════════════════════

theorem length_decimal_le {n k : ℕ} (hk : 0 < k) (h : n < 10 ^ k) :
    (decimal n).bytes.length ≤ k := by
  rw [decimal]
  dsimp only
  split_ifs with hn
  · exact hk
  · rw [List.length_map, List.length_reverse]
    exact (Nat.digits_length_le_iff (by decide) n).mpr h

/-- An address takes 15 characters at most. -/
theorem length_ipStr_le (ip : Ip4) : (ipStr ip).bytes.length ≤ 15 := by
  have hbyte (x : UInt8) : (decimal x.toNat).bytes.length ≤ 3 :=
    length_decimal_le (by decide) (by have := x.toNat_lt; omega)
  have hdot : (literal ".").bytes.length = 1 := rfl
  have happend (s t : CString) : (s ++ t).bytes.length = s.bytes.length + t.bytes.length :=
    List.length_append
  have ha := hbyte ip.a
  have hb := hbyte ip.b
  have hc := hbyte ip.c
  have hd := hbyte ip.d
  simp only [ipStr, happend, hdot]
  omega

/-- A lease leaves the backup. -/
theorem config_backup_mirrorAddress {f : NetField} (hstr : f.type = .str) (ip : Ip4) (img : Mem) :
    config .backup (mirrorAddress img (f.name .network) ip) = config .backup img := by
  have hlen : ((ipStr ip).bytes ++ [0]).length ≤ f.type.size := by
    have hip := length_ipStr_le ip
    rw [List.length_append, hstr]
    exact (Nat.add_le_add_right hip 1).trans (by decide)
  exact config_write_other (by decide) f hlen img

/-- An address printed into a field of the settings is the value of that field. -/
theorem config_mirrorAddress {f : NetField} (hstr : f.type = .str) (ip : Ip4) (img : Mem) :
    config .network (mirrorAddress img (f.name .network) ip) =
      Function.update (config .network img) f (ipStr ip).bytes := by
  have hip := length_ipStr_le ip
  have hlen : ((ipStr ip).bytes ++ [0]).length ≤ f.type.size := by
    rw [List.length_append, hstr]
    exact (Nat.add_le_add_right hip 1).trans (by decide)
  funext g
  by_cases hg : g = f
  · subst hg
    have hread : (read (mirrorAddress img (g.name .network) ip) (imgOff (g.name .network))
        (dpStrMax - 1)).take ((ipStr ip).bytes ++ [0]).length = (ipStr ip).bytes ++ [0] := by
      have hmax : ((ipStr ip).bytes ++ [0]).length ≤ dpStrMax - 1 := by
        rw [List.length_append]
        exact (Nat.add_le_add_right hip 1).trans (by decide)
      rw [take_read, min_eq_left hmax, mirrorAddress, read_write_self]
    rw [Function.update_self, ← fieldString_bytes .network hstr, fieldString]
    dsimp only
    rw [← List.take_append_drop ((ipStr ip).bytes ++ [0]).length (read _ _ (dpStrMax - 1)), hread,
      List.append_assoc, List.takeWhile_append_of_pos (by simpa using (ipStr ip).nonzero)]
    simp
  · rw [Function.update_of_ne hg, config, config, mirrorAddress,
      slot_write_name (f.find_point .network) (by rw [size_point]; exact hlen)
        (fun h => hg (NetField.name_injective h).2)]

/-- What a lease mirrors is what `leased` says. -/
theorem config_leased (ip mask gateway : Ip4) (img : Mem) :
    config .network (mirrorAddress (mirrorAddress (mirrorAddress img "Network_IP_Address" ip)
      "Network_Subnetmask" mask) "Network_Gateway" gateway) =
        leased ip mask gateway (config .network img) :=
  (config_mirrorAddress (f := .gateway) rfl gateway _).trans <|
    congrArg (Function.update · _ _) <|
      (config_mirrorAddress (f := .subnetmask) rfl mask _).trans <|
        congrArg (Function.update · _ _) (config_mirrorAddress (f := .ipAddress) rfl ip img)

-- ════════════════════════════════════════════════════════════════════════
-- Runs
-- ════════════════════════════════════════════════════════════════════════

/-- The backup is good: in the NVS, and in the image while the device runs. -/
structure Traced.Inv (w : Traced) : Prop where
  noLegacy : NoLegacy w.board
  stored : Good w.known (storedConfig .backup w.board.nvs)
  live : w.on = true → Good w.known (config .backup w.board.img)

section

variable (json : Option Json) (fallback : CString × CString)

theorem Traced.inv_factory (b : Board) : (Traced.factory b).Inv where
  noLegacy := rfl
  stored := by
    have hssid : storedConfig .backup (fun _ => none) .ssid = [] := by decide +kernel
    exact .inl hssid
  live h := by cases h

/-- What the device's step leaves, when its program leaves a good backup. -/
theorem Traced.inv_device {w : Traced} {e : Event} (h : w.Inv)
    (hwp : (w.on || e.isBoot) = true → Wp (e.program json fallback)
      (fun _ b => NoLegacy b ∧
        Good (w.reached (.device e) ++ w.known) (storedConfig .backup b.nvs) ∧
        Good (w.reached (.device e) ++ w.known) (config .backup b.img))
      (fun _ b => NoLegacy b ∧
        Good (w.reached (.device e) ++ w.known) (storedConfig .backup b.nvs)) w.board) :
    (w.step json fallback (.device e)).Inv := by
  by_cases hrun : (w.on || e.isBoot) = true
  · rw [Traced.step]
    rcases Station.step_of_wp json fallback hrun (hwp hrun) with
      ⟨c, b, hstep, hlegacy, hstored, hlive⟩ | ⟨stop, b, hstep, hlegacy, hstored⟩
    · rw [hstep]
      exact ⟨hlegacy, hstored, fun _ => hlive⟩
    · rw [hstep]
      exact ⟨hlegacy, hstored, fun hon => by cases hon⟩
  · have hsame : w.toStation.step json fallback e = (w.toStation, none) := by
      rw [Station.step, if_neg hrun]
    have hoff : w.on = false := by
      cases hon : w.on with
      | false => rfl
      | true => exact absurd (by rw [hon]; rfl) hrun
    rw [Traced.step, hsame]
    exact ⟨h.noLegacy, h.stored.append _, fun hon => by cases hoff.symm.trans hon⟩

/-- A boot reads the backup from the NVS, so that no save can mix it. -/
theorem Traced.Inv.boot {w : Traced} (h : w.Inv) (start : Start) (fates : List Fate) :
    (w.step json fallback (.device (.boot start fates))).Inv := by
  refine Traced.inv_device json fallback h fun _ => ?_
  rw [Event.program, wp_bind, wp_modify]
  have hlegacy : legacyCompatible dpList w.board.nvs = false := h.noLegacy
  have hlive : config .backup (start.fresh (w.board.setFates fates)).img =
      storedConfig .backup w.board.nvs := config_boot hlegacy start.id .backup
  have hstored : storedConfig .backup (start.fresh (w.board.setFates fates)).nvs =
      storedConfig .backup w.board.nvs := storedConfig_boot hlegacy start.id .backup
  have hkept : Kept fates (storedConfig .backup w.board.nvs) (storedConfig .backup w.board.nvs)
      (start.fresh (w.board.setFates fates)) :=
    ⟨legacyCompatible_dpInit start.id _, fate_mem rfl, hlive, .inl hstored⟩
  have hgood {b : Board}
      (hb : Kept fates (storedConfig .backup w.board.nvs) (storedConfig .backup w.board.nvs) b) :
      Good w.known (storedConfig .backup b.nvs) :=
    hb.good h.stored h.stored fun _ _ => by rw [mixture_self]; exact h.stored
  exact ((frame_kept _ _ _).boot json fallback start hkept).mono
    (fun _ b hb => ⟨hb.noLegacy, hgood hb, by rw [hb.image]; exact h.stored⟩)
    (fun _ b hb => ⟨hb.noLegacy, hgood hb⟩)

/-- A program that leaves the backup in the image, and saves inside the guard. -/
theorem Traced.Inv.saves {w : Traced} (h : w.Inv) {fates : List Fate} (hon : w.on = true)
    (hguard : w.board.SavesGood w.known fates) {b : Board}
    (hb : Kept fates (config .backup w.board.img) (storedConfig .backup w.board.nvs) b) :
    NoLegacy b ∧ Good w.known (storedConfig .backup b.nvs) ∧ Good w.known (config .backup b.img) :=
  ⟨hb.noLegacy, hb.good (h.live hon) h.stored hguard, by rw [hb.image]; exact h.live hon⟩

theorem Traced.Inv.framed {w : Traced} (h : w.Inv) {e : Event} (hboot : e.isBoot = false)
    {fates : List Fate} (hguard : w.on = true → w.board.SavesGood w.known fates)
    (hwp : Wp (e.program json fallback)
      (fun _ => Kept fates (config .backup w.board.img) (storedConfig .backup w.board.nvs))
      (fun _ => Kept fates (config .backup w.board.img) (storedConfig .backup w.board.nvs))
      w.board) :
    (w.step json fallback (.device e)).Inv := by
  refine Traced.inv_device json fallback h fun hrun => ?_
  have hon : w.on = true := by simpa [hboot] using hrun
  have hsaves {b : Board} := h.saves hon (hguard hon) (b := b)
  refine hwp.mono (fun _ _ hb => ?_) (fun _ _ hb => ?_)
  · obtain ⟨hlegacy, hstored, hlive⟩ := hsaves hb
    exact ⟨hlegacy, hstored.append _, hlive.append _⟩
  · obtain ⟨hlegacy, hstored, -⟩ := hsaves hb
    exact ⟨hlegacy, hstored.append _⟩

theorem Traced.Inv.write {w : Traced} (h : w.Inv) (dp : Option Json) (reboots : Bool)
    {fates : List Fate} (hguard : w.on = true → w.board.SavesGood w.known fates) :
    (w.step json fallback (.device (.write dp reboots fates))).Inv := by
  have hframe := frame_kept fates (config .backup w.board.img) (storedConfig .backup w.board.nvs)
  refine h.framed json fallback rfl hguard ?_
  rw [Event.program, wp_bind, wp_modify, wp_bind]
  exact hframe.toFrame.taskComApplyDpWrite (fun _ _ => hframe.flag 1)
    (Kept.start (b := w.board.setFates fates) h.noLegacy rfl)

theorem Traced.Inv.tick {w : Traced} (h : w.Inv) (timeUs : UInt64) (reboots : Bool)
    {fates : List Fate} (hguard : w.on = true → w.board.SavesGood w.known fates) :
    (w.step json fallback (.device (.tick timeUs reboots fates))).Inv := by
  have hframe := frame_kept fates (config .backup w.board.img) (storedConfig .backup w.board.nvs)
  refine h.framed json fallback rfl hguard ?_
  rw [Event.program, wp_bind, wp_modify, wp_bind]
  exact hframe.networkConfigTrialTick reboots
    (Kept.start (b := { w.board with timeUs, fates }) h.noLegacy rfl)

/-- A session inside the guard copies good settings. -/
theorem Traced.Inv.sessionReady {w : Traced} (h : w.Inv) {fates : List Fate}
    (hguard : BackupGuard w (.device (.sessionReady fates))) :
    (w.step json fallback (.device (.sessionReady fates))).Inv := by
  refine Traced.inv_device json fallback h fun hrun => ?_
  have hon : w.on = true := by simpa [Event.isBoot] using hrun
  have hcopies : (w.board.setFates fates).CopiesGood _ := hguard hon
  have hold := h.stored.append (w.reached (.device (.sessionReady fates)))
  have hlive := (h.live hon).append (w.reached (.device (.sessionReady fates)))
  have hlegacy : NoLegacy (w.board.setFates fates) := h.noLegacy
  rw [Event.program, wp_bind, wp_modify, wp_bind]
  refine (glueSessionBackup_spec hlegacy).mono (fun _ b hb => ?_) (fun _ b hb => ?_)
  · obtain ⟨hlegacy, hbackup, hnot, ⟨hsame, hstored⟩ | ⟨hne, hon', hstored⟩⟩ := hb
    · exact ⟨hlegacy, by rw [hstored]; exact hold, by rw [hbackup, ← hsame]; exact hlive⟩
    · rcases hcopies with hcut | hsame | ⟨hmix, hlost | hgood⟩
      · exact absurd hcut hnot
      · exact absurd hsame hne
      · obtain ⟨n, hn⟩ := hlost
        exact absurd hn (hon' n)
      · exact ⟨hlegacy, by rw [hstored]; exact hmix, by rw [hbackup]; exact hgood⟩
  · obtain ⟨hlegacy, ⟨hstored, -⟩ | ⟨hne, hnot, hstored⟩⟩ := hb
    · exact ⟨hlegacy, by rw [hstored]; exact hold⟩
    · rcases hcopies with hcut | hsame | ⟨hmix, -⟩
      · exact absurd hcut hnot
      · exact absurd hsame hne
      · exact ⟨hlegacy, by rw [hstored]; exact hmix⟩

theorem Traced.Inv.gotIp {w : Traced} (h : w.Inv) (ip mask gateway : Ip4) :
    (w.step json fallback (.gotIp ip mask gateway)).Inv := by
  have hrun : Network.gotIp ip mask gateway w.board = .ok () (w.board.setImg
      (mirrorAddress (mirrorAddress (mirrorAddress w.board.img "Network_IP_Address" ip)
        "Network_Subnetmask" mask) "Network_Gateway" gateway)) := rfl
  rw [Traced.step, hrun]
  cases hon : w.on with
  | false => exact h
  | true =>
    have hlegacy (img : Mem) : NoLegacy (w.board.setImg img) := h.noLegacy
    have hstored (img : Mem) : Good w.known (storedConfig .backup (w.board.setImg img).nvs) :=
      h.stored
    refine ⟨hlegacy _, hstored _, fun _ => ?_⟩
    have hlive := h.live hon
    have himg : config .backup (mirrorAddress (mirrorAddress (mirrorAddress w.board.img
        "Network_IP_Address" ip) "Network_Subnetmask" mask) "Network_Gateway" gateway) =
          config .backup w.board.img :=
      (config_backup_mirrorAddress (f := .gateway) rfl gateway _).trans <|
        (config_backup_mirrorAddress (f := .subnetmask) rfl mask _).trans
          (config_backup_mirrorAddress (f := .ipAddress) rfl ip w.board.img)
    dsimp only
    rw [Board.setImg_img, himg]
    exact hlive

/-- An event inside the guard keeps the invariant. -/
theorem Traced.Inv.step {w : Traced} (h : w.Inv) {e : NetEvent} (hguard : BackupGuard w e) :
    (w.step json fallback e).Inv := by
  cases e with
  | device e =>
    cases e with
    | boot start fates => exact h.boot json fallback start fates
    | write dp reboots fates => exact h.write json fallback dp reboots hguard
    | tick timeUs reboots fates => exact h.tick json fallback timeUs reboots hguard
    | sessionReady fates => exact h.sessionReady json fallback hguard
    | powerLoss =>
      refine Traced.inv_device json fallback h fun _ => ?_
      rw [Event.program, wp_throw]
      exact ⟨h.noLegacy, h.stored⟩
  | gotIp ip mask gateway => exact h.gotIp json fallback ip mask gateway
  | protoStart starts =>
    rw [Traced.step]
    split_ifs
    · exact ⟨h.noLegacy, h.stored, h.live⟩
    · exact h

/-- **The backup is known-good.** In every run of events inside the guard, from a device as it
    leaves the factory: while the device runs, a backup with an SSID is a configuration with which
    a boot has connected and reached a session. -/
theorem backup_known_good (json : Option Json) (fallback : CString × CString) (b : Board)
    (events : List NetEvent)
    (hguard : Machine.Guarded (Traced.step json fallback) BackupGuard (Traced.factory b) events)
    (hon : (Traced.after json fallback b events).on = true)
    (hssid : (Traced.after json fallback b events).board.img (imgOff "Backup_SSID") ≠ 0) :
    config .backup (Traced.after json fallback b events).board.img ∈
      (Traced.after json fallback b events).known := by
  have hinv : (Traced.after json fallback b events).Inv :=
    hguard.invariant (Traced.step json fallback) (fun _ _ hG h => h.step json fallback hG)
      (Traced.inv_factory b)
  exact (hinv.live hon).resolve_left ((backup_ssid_ne_nil _).mpr hssid)

end

-- ════════════════════════════════════════════════════════════════════════
-- A session with and without an edit
-- ════════════════════════════════════════════════════════════════════════

/-- A session whose connection uses the settings as they are is inside the guard, when the save
    is done. -/
theorem BackupGuard.of_inUse {w : Traced} {fates : List Fate} (hstarted : w.started = true)
    (hinUse : w.inUse = some (config .network w.board.img))
    (hdone : (w.board.setFates fates).copyFate = .done) :
    BackupGuard w (.device (.sessionReady fates)) := by
  intro hon
  have hreached : config .network w.board.img ∈ w.reached (.device (.sessionReady fates)) := by
    simp [Traced.reached, hon, hstarted, hinUse]
  have hgood : Good (w.reached (.device (.sessionReady fates)) ++ w.known)
      (config .network w.board.img) := .inr (List.mem_append_left _ hreached)
  refine .inr (.inr ⟨?_, .inr hgood⟩)
  rw [hdone, mixture_done]
  exact hgood

/-- A lease leaves the settings those of the connection. -/
theorem Traced.inUse_gotIp (json : Option Json) (fallback : CString × CString) {w : Traced}
    (h : w.inUse = some (config .network w.board.img)) (ip mask gateway : Ip4) :
    (w.step json fallback (.gotIp ip mask gateway)).inUse =
      some (config .network (w.step json fallback (.gotIp ip mask gateway)).board.img) := by
  have hrun : Network.gotIp ip mask gateway w.board = .ok () (w.board.setImg
      (mirrorAddress (mirrorAddress (mirrorAddress w.board.img "Network_IP_Address" ip)
        "Network_Subnetmask" mask) "Network_Gateway" gateway)) := rfl
  rw [Traced.step, hrun]
  cases w.on with
  | false => exact h
  | true =>
    dsimp only
    rw [Board.setImg_img, config_leased, h, Option.map_some]

/-- And so does the start of the protocol. -/
theorem Traced.inUse_protoStart (json : Option Json) (fallback : CString × CString) {w : Traced}
    (h : w.inUse = some (config .network w.board.img)) (starts : Bool) :
    (w.step json fallback (.protoStart starts)).inUse =
      some (config .network (w.step json fallback (.protoStart starts)).board.img) := by
  have hdialled : dialled w.board.img (config .network w.board.img) =
      config .network w.board.img := by
    rw [dialled, Function.update_eq_self, ite_self]
  rw [Traced.step]
  split_ifs
  · rw [h, Option.map_some, hdialled]
  · exact h

/-- A boot that runs to its end, with an SSID, connects with the settings in the image. -/
theorem boot_inUse (json : Option Json) (fallback : CString × CString) (start : Start) (b : Board) :
    Wp (boot json fallback start)
      (fun c b' => config .network b'.img .ssid ≠ [] → c = some (config .network b'.img))
      (fun _ _ => True) b := by
  rw [boot, wp_bind, wp_modify, wp_bind]
  refine (frame_any.networkConfigDefaultsApply json trivial).mono (fun _ b₁ _ => ?_)
    (fun _ _ h => h)
  rw [wp_bind]
  refine (frame_any.networkConfigTrialBootCheck trivial).mono (fun _ b₂ _ => ?_) (fun _ _ h => h)
  by_cases hssid : config .network b₂.img .ssid = []
  swap
  · exact (connect_ssid hssid fallback start.saved).mono (fun _ _ h _ => by rw [h.1]; exact h.2)
      (fun _ _ h => h.elim)
  have hzero : ¬ b₂.img (imgOff "Network_SSID") ≠ 0 := fun h =>
    (network_ssid_ne_nil b₂.img).mpr h hssid
  rw [wp_bind]
  unfold wlanCredentialsResolve
  rw [wp_bind, wp_get, wp_ite, if_neg hzero]
  cases start.saved with
  | none =>
    rw [wp_pure, wlanComConnect, wp_bind, wp_get, wp_ite]
    split_ifs <;> exact fun h => absurd hssid h
  | some credentials =>
    simp only [wp_bind, wp_modify]
    refine (frame_any.dpConfigSave trivial).mono (fun _ b₃ _ => ?_) (fun _ _ h => h)
    rw [wp_bind, wp_logging, wp_bind, wp_get, wp_pure]
    exact (wlanComConnect_fields _).mono (fun _ _ h => by rw [h.1]; exact h.2) (fun _ _ h => h.elim)

theorem Traced.inUse_boot (json : Option Json) (fallback : CString × CString) {w : Traced}
    (start : Start) (fates : List Fate)
    (hon : (w.step json fallback (.device (.boot start fates))).on = true)
    (hssid : config .network (w.step json fallback (.device (.boot start fates))).board.img .ssid
      ≠ []) :
    (w.step json fallback (.device (.boot start fates))).inUse =
      some (config .network (w.step json fallback (.device (.boot start fates))).board.img) := by
  have hwp : Wp ((Event.boot start fates).program json fallback)
      (fun c b' => config .network b'.img .ssid ≠ [] → c = some (config .network b'.img))
      (fun _ _ => True) w.board := by
    rw [Event.program, wp_bind, wp_modify]
    exact boot_inUse json fallback start _
  rw [Traced.step] at hon hssid ⊢
  rcases Station.step_of_wp json fallback (Bool.or_true _) hwp with
    ⟨c, b, hstep, hc⟩ | ⟨stop, b, hstep, -⟩
  · rw [hstep] at hssid ⊢
    exact hc hssid
  · rw [hstep] at hon
    cases hon

/-- A lease, or the start of the protocol. -/
def NetEvent.connects : NetEvent → Bool
  | .device _ => false
  | .gotIp _ _ _ | .protoStart _ => true

theorem Traced.on_connects (json : Option Json) (fallback : CString × CString) {w : Traced}
    {e : NetEvent} (he : e.connects = true) : (w.step json fallback e).on = w.on := by
  cases e with
  | device e => cases he
  | gotIp ip mask gateway =>
    rw [Traced.step]
    split <;> rfl
  | protoStart starts =>
    rw [Traced.step]
    split_ifs <;> rfl

theorem Traced.inUse_connects (json : Option Json) (fallback : CString × CString) {w : Traced}
    (h : w.inUse = some (config .network w.board.img)) {e : NetEvent} (he : e.connects = true) :
    (w.step json fallback e).inUse =
      some (config .network (w.step json fallback e).board.img) := by
  cases e with
  | device e => cases he
  | gotIp ip mask gateway => exact Traced.inUse_gotIp json fallback h ip mask gateway
  | protoStart starts => exact Traced.inUse_protoStart json fallback h starts

/-- **A session over a fresh connection is inside the guard**: after a boot, any leases and the
    start of the protocol, when the save of the copy is done. -/
theorem backupGuard_fresh (json : Option Json) (fallback : CString × CString) (w : Traced)
    (start : Start) (fates : List Fate)
    (hssid : config .network (w.step json fallback (.device (.boot start fates))).board.img .ssid
      ≠ []) (events : List NetEvent) (hevents : ∀ e ∈ events, e.connects = true)
    {connected : Traced} (hrun : connected = Machine.run (Traced.step json fallback)
      (w.step json fallback (.device (.boot start fates))) events)
    (hstarted : connected.started = true) {sessionFates : List Fate}
    (hdone : (connected.board.setFates sessionFates).copyFate = .done) :
    BackupGuard connected (.device (.sessionReady sessionFates)) := by
  intro hon
  have hconnect (pre : List NetEvent) (e : NetEvent) (post : List NetEvent)
      (hsplit : events = pre ++ e :: post) : e.connects = true :=
    hevents e (by simp [hsplit])
  have hbooted : (w.step json fallback (.device (.boot start fates))).on = true := by
    have hsame : connected.on = (w.step json fallback (.device (.boot start fates))).on := by
      rw [hrun]
      exact Machine.run_invariant_of_guard _
        (P := fun w' : Traced => w'.on = (w.step json fallback (.device (.boot start fates))).on)
        (G := fun _ e => e.connects = true)
        (fun _ _ he h => (Traced.on_connects json fallback he).trans h) rfl events hconnect
    rw [← hsame, hon]
  have hinUse : connected.inUse = some (config .network connected.board.img) := by
    rw [hrun]
    exact Machine.run_invariant_of_guard _
      (P := fun w' : Traced => w'.inUse = some (config .network w'.board.img))
      (G := fun _ e => e.connects = true)
      (fun _ _ he h => Traced.inUse_connects json fallback h he)
      (Traced.inUse_boot json fallback start fates hbooted hssid) events hconnect
  exact BackupGuard.of_inUse hstarted hinUse hdone hon

/-- A start for which the WLAN driver has saved the SSID `home`. -/
def homeStart : Start := { exampleStart with saved := some (homeSsid, literal "") }

/-- A device with factory settings boots and connects. -/
def connectEvents : List NetEvent :=
  [.device (.boot homeStart []), .gotIp ⟨10, 0, 0, 7⟩ ⟨255, 255, 255, 0⟩ ⟨10, 0, 0, 1⟩,
    .protoStart true]

/-- The session that follows is backed up. -/
theorem backup_known_good_home :
    config .backup (Traced.after none (literal "", literal "") exampleBoard
        (connectEvents ++ [.device (.sessionReady [])])).board.img ∈
      (Traced.after none (literal "", literal "") exampleBoard
        (connectEvents ++ [.device (.sessionReady [])])).known := by
  have hconnect : Machine.Guarded (Traced.step none (literal "", literal "")) BackupGuard
      (Traced.factory exampleBoard) connectEvents :=
    ⟨fun _ => trivial, fun _ => trivial, fun _ => trivial, trivial⟩
  have hrun : Traced.after none (literal "", literal "") exampleBoard connectEvents =
      Machine.run (Traced.step none (literal "", literal ""))
        ((Traced.factory exampleBoard).step none (literal "", literal "")
          (.device (.boot homeStart []))) connectEvents.tail := by
    rw [Traced.after, connectEvents, Machine.run_cons, List.tail_cons]
  have hsession : BackupGuard
      (Traced.after none (literal "", literal "") exampleBoard connectEvents)
      (.device (.sessionReady [])) :=
    backupGuard_fresh none (literal "", literal "") (Traced.factory exampleBoard) homeStart []
      (by decide +kernel) connectEvents.tail (by decide) hrun (by decide +kernel)
      (by decide +kernel)
  exact backup_known_good none (literal "", literal "") exampleBoard _
    ((Machine.guarded_append _ _ _ _ _).mpr ⟨hconnect, hsession, trivial⟩) (by decide +kernel)
    (by decide +kernel)

/-- Another SSID, without a request to try it. -/
def awayEdit : Json := .object [("Network_SSID", .string awaySsid)]

/-- The device after a session, an edit of the SSID without a request, and another session over the
    same connection. -/
def edited : Traced :=
  Traced.after none (literal "", literal "") exampleBoard
    (connectEvents ++ [.device (.sessionReady []), .device (.write (some awayEdit) true []),
      .device (.sessionReady [])])

/-- A write changes the SSID, the session is lost and comes back over the old connection: the
    backup is the edit, with which no boot has connected. -/
theorem edit_backed_up :
    edited.on = true ∧ edited.board.img (imgOff "Backup_SSID") ≠ 0 ∧
      config .backup edited.board.img ∉ edited.known :=
  ⟨by decide +kernel, by decide +kernel, by decide +kernel⟩

end Fountainer.Network
