import Fountainer.Lib.Backoff
import Fountainer.Lib.Runs
import Mathlib.Data.List.Chain

/-!
# The WLAN connection

`wlan_com.c` from `wlan_com_connect` on, which `main.c` calls once: the event handler, the one-shot
timer of the next attempt and the teardown before a reboot, each of which runs in a task of its own.

The driver sends `STA_START` once. It sends `STA_DISCONNECTED` only in an attempt or a connection,
which then is over, and a call of `esp_wifi_connect`, whose result is not looked at, either begins
an attempt or is refused. For the rest the driver and the access point may do what they like.
-/

namespace Fountainer.Network

open Backoff

/-- `WLAN_RECONNECT_BACKOFF_MIN_MS`. -/
def wlanReconnectBackoffMinMs : UInt32 := 5000

/-- `WLAN_RECONNECT_BACKOFF_MAX_MS`. -/
def wlanReconnectBackoffMaxMs : UInt32 := 120000

/-- `wlan_state_t`. -/
inductive WlanState where
  | disconnected
  | connecting
  | connected
  deriving DecidableEq, Repr

/-- The driver: `STA_START` is still to come, nothing goes on, or an attempt or a connection
    does. -/
inductive WlanDriver where
  | starting
  | idle
  | active
  deriving DecidableEq, Repr

/-- What is published to the event manager. -/
inductive WlanEvent where
  | connected (ip : UInt32)
  | disconnected (reason : UInt8)
  deriving DecidableEq, Repr

/-- The statics of `wlan_com.c`, the timer `wlan_reconn` with its expiry, and what the tasks are
    about to do: the callback of the expired timer, and the handler of `STA_DISCONNECTED` with its
    reason once it is past the look at `s_bShutdown`. Times are in microseconds. -/
structure Wlan where
  state : WlanState
  retry : ℕ
  backoffMs : UInt32
  shutdown : Bool
  disconnects : UInt32
  published : List WlanEvent
  timer : Option ℕ
  dispatched : Bool
  handling : Option UInt8
  driver : WlanDriver
  now : ℕ
  deriving Repr

/-- What the statements speak of besides: the times of all attempts, of those in the present series,
    and of those since the teardown; when this was, with whether an attempt was then due at once;
    and whether the driver has refused one. -/
structure WlanHistory where
  attempts : List ℕ
  series : List ℕ
  torn : Option (ℕ × Bool)
  late : List ℕ
  refused : Bool
  deriving Repr

/-- What can happen: time passes, the driver sends an event, the handler of a loss goes on, lwIP has
    an address, the timer expires, its callback runs, or the device is about to restart; `accepted`
    is what the driver says to the call of `esp_wifi_connect`. -/
inductive WlanOp where
  | pass (us : ℕ)
  | staStart (accepted : Bool)
  | staDisconnected (reason : UInt8)
  | handle
  | gotIp (ip : UInt32)
  | expire
  | callback (accepted : Bool)
  | teardown

/-- `esp_wifi_connect`. -/
def espWifiConnect (w : Wlan) (h : WlanHistory) (accepted : Bool) : Wlan × WlanHistory :=
  ({ w with driver := if accepted then .active else .idle },
    { h with
      attempts := h.attempts ++ [w.now]
      series := h.series ++ [w.now]
      late := if w.shutdown then h.late ++ [w.now] else h.late
      refused := h.refused || !accepted })

/-- `s_ulBackoffMs`, doubled for the next failed attempt. -/
def backoffNext (ms : UInt32) : UInt32 :=
  if ms * 2 > wlanReconnectBackoffMaxMs then wlanReconnectBackoffMaxMs else ms * 2

/-- `event_handler` on `STA_DISCONNECTED`, behind the look at `s_bShutdown`. -/
def Wlan.lossHandle (w : Wlan) (reason : UInt8) : Wlan :=
  { w with
    handling := none
    disconnects := w.disconnects + 1
    published := w.published ++ [.disconnected reason]
    state := .connecting
    retry := w.retry + 1
    timer := some (w.now + w.backoffMs.toNat * 1000)
    backoffMs := backoffNext w.backoffMs }

/-- `event_handler` on `GOT_IP`. -/
def Wlan.gotIp (w : Wlan) (ip : UInt32) : Wlan :=
  { w with
    retry := 0
    backoffMs := wlanReconnectBackoffMinMs
    published := w.published ++ [.connected ip]
    state := .connected }

/-- One step. The events are handled one at a time, in the task `sys_evt`. -/
def wlanStep (s : Wlan × WlanHistory) : WlanOp → Wlan × WlanHistory
  | .pass us => ({ s.1 with now := s.1.now + us }, s.2)
  | .staStart accepted =>
    if s.1.driver = .starting ∧ s.1.handling = none then
      espWifiConnect { s.1 with state := .connecting } s.2 accepted
    else s
  | .staDisconnected reason =>
    if s.1.driver = .active ∧ s.1.handling = none then
      if s.1.shutdown then ({ s.1 with driver := .idle }, s.2)
      else ({ s.1 with driver := .idle, handling := some reason }, s.2)
    else s
  | .handle =>
    match s.1.handling with
    | some reason => (s.1.lossHandle reason, s.2)
    | none => s
  | .gotIp ip =>
    if s.1.handling = none then
      -- The series begins anew with the attempt that led to the address.
      (s.1.gotIp ip,
        { s.2 with series := if s.1.driver = .active then s.2.series.getLast?.toList else [] })
    else s
  | .expire =>
    match s.1.timer with
    | some t => if t ≤ s.1.now then ({ s.1 with timer := none, dispatched := true }, s.2) else s
    | none => s
  | .callback accepted =>
    if s.1.dispatched then espWifiConnect { s.1 with dispatched := false } s.2 accepted else s
  | .teardown =>
    ({ s.1 with shutdown := true, timer := none },
      { s.2 with
        torn := if s.1.shutdown then s.2.torn
          else some (s.1.now, s.1.dispatched || s.1.driver == .starting) })

/-- `wlan_com_connect` has started the driver. -/
def wlanStart : Wlan × WlanHistory :=
  ({ state := .disconnected
     retry := 0
     backoffMs := wlanReconnectBackoffMinMs
     shutdown := false
     disconnects := 0
     published := []
     timer := none
     dispatched := false
     handling := none
     driver := .starting
     now := 0 },
    { attempts := [], series := [], torn := none, late := [], refused := false })

def wlanRun (ops : List WlanOp) : Wlan × WlanHistory := Machine.run wlanStep wlanStart ops

-- ════════════════════════════════════════════════════════════════════════
-- Where the next attempt is
-- ════════════════════════════════════════════════════════════════════════

/-- The first wait, in microseconds. -/
abbrev wlanMinUs : ℕ := 5000000

/-- The longest wait, in microseconds. -/
abbrev wlanMaxUs : ℕ := 120000000

/-- The wait after the failed attempt number `k` of a series, from 0 on. -/
abbrev wlanWait (k : ℕ) : ℕ := delay wlanMinUs wlanMaxUs k

/-- The next attempt may come from time `t` on. -/
structure Due (w : Wlan) (h : WlanHistory) (t : ℕ) : Prop where
  spaced : ∀ last ∈ h.attempts.getLast?, last + wlanMinUs ≤ t
  paced : ∀ last ∈ h.series.getLast?, last + wlanWait (h.series.length - 1) ≤ t
  length : h.series.length = w.retry
  late : ∀ torn ∈ h.torn, h.late = [] ∧ (torn.2 = true ∨ torn.1 + wlanMinUs ≤ t)

/-- An attempt has been made, and its failure has not been handled. -/
structure Made (w : Wlan) (h : WlanHistory) : Prop where
  attempts : ∀ last ∈ h.attempts.getLast?, last ≤ w.now
  series : ∀ last ∈ h.series.getLast?, last ≤ w.now
  length : h.series.length = w.retry + 1

/-- There is one place where the next attempt is; or there will be none, since the device is torn
    down or the driver has refused one. -/
inductive Stage (w : Wlan) (h : WlanHistory) : Prop
  | starting (hdriver : w.driver = .starting) (htimer : w.timer = none)
      (hdisp : w.dispatched = false) (hhand : w.handling = none) (hdue : Due w h w.now)
  | active (hdriver : w.driver = .active) (htimer : w.timer = none)
      (hdisp : w.dispatched = false) (hhand : w.handling = none) (hmade : Made w h)
  | handling (reason : UInt8) (hdriver : w.driver = .idle) (htimer : w.timer = none)
      (hdisp : w.dispatched = false) (hhand : w.handling = some reason) (hmade : Made w h)
      (hlate : h.late = [])
  | waiting (t : ℕ) (hdriver : w.driver = .idle) (htimer : w.timer = some t)
      (hsoon : t ≤ w.now + wlanMaxUs) (hdisp : w.dispatched = false) (hhand : w.handling = none)
      (hdue : Due w h t)
  | due (hdriver : w.driver = .idle) (htimer : w.timer = none) (hdisp : w.dispatched = true)
      (hhand : w.handling = none) (hdue : Due w h w.now)
  | ended (hdriver : w.driver = .idle) (htimer : w.timer = none) (hdisp : w.dispatched = false)
      (hhand : w.handling = none) (hend : w.shutdown = true ∨ h.refused = true)

/-- What holds of the waits and of the attempts made. -/
structure Sound (w : Wlan) (h : WlanHistory) : Prop where
  backoff : w.backoffMs.toNat * 1000 = wlanWait w.retry
  shutdown : w.shutdown = h.torn.isSome
  spaced : h.attempts.IsChain fun t t' => t + wlanMinUs ≤ t'
  paced : Paced wlanMinUs wlanMaxUs h.series
  untorn : h.torn = none → h.late = []
  late : ∀ torn ∈ h.torn, torn.1 ≤ w.now ∧ h.late.length ≤ 1 ∧
    (torn.2 = false → ∀ t ∈ h.late, torn.1 + wlanMinUs ≤ t)

/-- The invariant. -/
structure WlanInv (s : Wlan × WlanHistory) : Prop where
  sound : Sound s.1 s.2
  stage : Stage s.1 s.2

variable {w : Wlan} {h : WlanHistory} {s : Wlan × WlanHistory} {t t' : ℕ}

theorem Due.mono (hdue : Due w h t) (hle : t ≤ t') : Due w h t' where
  spaced last hlast := (hdue.spaced last hlast).trans hle
  paced last hlast := (hdue.paced last hlast).trans hle
  length := hdue.length
  late torn htorn := ⟨(hdue.late torn htorn).1, (hdue.late torn htorn).2.imp_right hle.trans'⟩

theorem backoffMin_eq : wlanReconnectBackoffMinMs.toNat * 1000 = wlanWait 0 := by
  rw [wlanWait, delay_zero (by decide)]
  rfl

/-- The doubled wait is the next one. -/
theorem backoffNext_eq {ms : UInt32} {k : ℕ} (hms : ms.toNat * 1000 = wlanWait k) :
    (backoffNext ms).toNat * 1000 = wlanWait (k + 1) := by
  have hnext : wlanWait (k + 1) = min (2 * wlanWait k) 120000000 := delay_succ k
  have hle : wlanWait k ≤ 120000000 := delay_le k
  rw [← hms] at hnext hle
  rw [hnext]
  clear hnext hms
  have hdouble : (ms * 2).toNat = ms.toNat * 2 := by
    rw [UInt32.toNat_mul, show UInt32.toNat 2 = 2 from rfl]
    omega
  have hmax : wlanReconnectBackoffMaxMs.toNat = 120000 := rfl
  rw [backoffNext]
  by_cases hgt : ms * 2 > wlanReconnectBackoffMaxMs
  · rw [if_pos hgt, hmax]
    rw [gt_iff_lt, UInt32.lt_iff_toNat_lt, hmax, hdouble] at hgt
    omega
  · rw [if_neg hgt, hdouble]
    rw [gt_iff_lt, UInt32.lt_iff_toNat_lt, hmax, hdouble] at hgt
    omega

/-- An attempt, once one is due. -/
theorem Sound.connect (hs : Sound w h) (hdue : Due w h w.now) (accepted : Bool) :
    Sound (espWifiConnect w h accepted).1 (espWifiConnect w h accepted).2 ∧
      Made (espWifiConnect w h accepted).1 (espWifiConnect w h accepted).2 := by
  refine ⟨⟨hs.backoff, hs.shutdown, ?_, ?_, ?_, ?_⟩, ?_, ?_, ?_⟩
  · refine List.isChain_append.mpr ⟨hs.spaced, List.isChain_singleton _, ?_⟩
    intro last hlast t ht
    obtain rfl : w.now = t := by simpa using ht
    exact hdue.spaced last hlast
  · show Paced _ _ (h.series ++ [w.now])
    cases hlast : h.series.getLast? with
    | none =>
      rw [List.getLast?_eq_none_iff.mp hlast]
      exact paced_singleton _
    | some last => exact hs.paced.concat hlast (hdue.paced last hlast)
  · intro hnone
    have hshut : w.shutdown = false := hs.shutdown.trans (Option.isSome_eq_false_iff.mpr (by
      rw [Option.isNone_iff_eq_none]; exact hnone))
    simp only [espWifiConnect, hshut, if_neg Bool.false_ne_true]
    exact hs.untorn hnone
  · intro torn htorn
    have hshut : w.shutdown = true := hs.shutdown.trans (Option.isSome_of_mem htorn)
    obtain ⟨hlate, hfrom⟩ := hdue.late torn htorn
    refine ⟨(hs.late torn htorn).1, ?_, ?_⟩
    · simp [espWifiConnect, hshut, hlate]
    · intro hearly t ht
      obtain rfl : t = w.now := by simpa [espWifiConnect, hshut, hlate] using ht
      exact hfrom.resolve_left (by rw [hearly]; exact Bool.false_ne_true)
  · intro last hlast
    obtain rfl : w.now = last := by simpa [espWifiConnect] using hlast
    exact le_rfl
  · intro last hlast
    obtain rfl : w.now = last := by simpa [espWifiConnect] using hlast
    exact le_rfl
  · simp [espWifiConnect, hdue.length]

/-- After the attempt there is nothing else under way; if it is refused there is nothing at all. -/
theorem Stage.connect {accepted : Bool} (htimer : w.timer = none) (hdisp : w.dispatched = false)
    (hhand : w.handling = none)
    (hmade : Made (espWifiConnect w h accepted).1 (espWifiConnect w h accepted).2) :
    Stage (espWifiConnect w h accepted).1 (espWifiConnect w h accepted).2 := by
  cases accepted with
  | true => exact .active rfl htimer hdisp hhand hmade
  | false => exact .ended rfl htimer hdisp hhand (.inr (Bool.or_true _))

/-- The handler of a loss sets the timer for the next attempt. -/
theorem Sound.loss (hs : Sound w h) (hmade : Made w h) (hlate : h.late = []) (reason : UInt8) :
    Sound (w.lossHandle reason) h ∧
      Due (w.lossHandle reason) h (w.now + w.backoffMs.toNat * 1000) := by
  have hmin : wlanMinUs ≤ wlanWait w.retry := le_delay (by decide) _
  have hwait := hs.backoff
  refine ⟨⟨backoffNext_eq hwait, hs.shutdown, hs.spaced, hs.paced, hs.untorn, hs.late⟩,
    ?_, ?_, ?_, ?_⟩
  · intro last hlast
    have := hmade.attempts last hlast
    omega
  · intro last hlast
    have := hmade.series last hlast
    rw [hmade.length, Nat.add_sub_cancel]
    omega
  · exact hmade.length
  · intro torn htorn
    have := (hs.late torn htorn).1
    exact ⟨hlate, .inr (by omega)⟩

theorem WlanInv.pass (hinv : WlanInv s) (us : ℕ) : WlanInv (wlanStep s (.pass us)) := by
  have hle : s.1.now ≤ s.1.now + us := Nat.le_add_right _ _
  have hmade {h : WlanHistory} (hm : Made s.1 h) : Made { s.1 with now := s.1.now + us } h :=
    ⟨fun last hlast => (hm.attempts last hlast).trans hle,
      fun last hlast => (hm.series last hlast).trans hle, hm.length⟩
  have hdue {t : ℕ} (hd : Due s.1 s.2 t) : Due { s.1 with now := s.1.now + us } s.2 t :=
    ⟨hd.spaced, hd.paced, hd.length, hd.late⟩
  have hs := hinv.sound
  refine ⟨⟨hs.backoff, hs.shutdown, hs.spaced, hs.paced, hs.untorn, fun torn htorn =>
    ⟨((hs.late torn htorn).1).trans hle, (hs.late torn htorn).2⟩⟩, ?_⟩
  cases hinv.stage with
  | starting h1 h2 h3 h4 h5 => exact .starting h1 h2 h3 h4 ((hdue h5).mono hle)
  | active h1 h2 h3 h4 h5 => exact .active h1 h2 h3 h4 (hmade h5)
  | handling reason h1 h2 h3 h4 h5 h6 => exact .handling reason h1 h2 h3 h4 (hmade h5) h6
  | waiting t h1 h2 h3 h4 h5 h6 =>
    exact .waiting t h1 h2 (h3.trans (Nat.add_le_add_right hle _)) h4 h5 (hdue h6)
  | due h1 h2 h3 h4 h5 => exact .due h1 h2 h3 h4 ((hdue h5).mono hle)
  | ended h1 h2 h3 h4 h5 => exact .ended h1 h2 h3 h4 h5

theorem WlanInv.staStart (hinv : WlanInv s) (accepted : Bool) :
    WlanInv (wlanStep s (.staStart accepted)) := by
  rw [wlanStep]
  by_cases hguard : s.1.driver = .starting ∧ s.1.handling = none
  · rw [if_pos hguard]
    cases hinv.stage with
    | starting h1 h2 h3 h4 h5 =>
      have hs := hinv.sound
      have hsound : Sound { s.1 with state := .connecting } s.2 :=
        ⟨hs.backoff, hs.shutdown, hs.spaced, hs.paced, hs.untorn, hs.late⟩
      obtain ⟨hsound', hmade⟩ := hsound.connect ⟨h5.spaced, h5.paced, h5.length, h5.late⟩ accepted
      exact ⟨hsound', .connect h2 h3 h4 hmade⟩
    | active h1 | handling _ h1 | waiting _ h1 | due h1 | ended h1 =>
      rw [h1] at hguard
      exact absurd hguard.1 nofun
  · rw [if_neg hguard]
    exact hinv

theorem WlanInv.staDisconnected (hinv : WlanInv s) (reason : UInt8) :
    WlanInv (wlanStep s (.staDisconnected reason)) := by
  rw [wlanStep]
  by_cases hguard : s.1.driver = .active ∧ s.1.handling = none
  · rw [if_pos hguard]
    cases hinv.stage with
    | active h1 h2 h3 h4 h5 =>
      have hs := hinv.sound
      by_cases hshut : s.1.shutdown = true
      · rw [if_pos hshut]
        exact ⟨⟨hs.backoff, hs.shutdown, hs.spaced, hs.paced, hs.untorn, hs.late⟩,
          .ended rfl h2 h3 h4 (.inl hshut)⟩
      · rw [if_neg hshut]
        have hnone : s.2.torn = none := by
          rw [hs.shutdown] at hshut
          simpa using hshut
        exact ⟨⟨hs.backoff, hs.shutdown, hs.spaced, hs.paced, hs.untorn, hs.late⟩,
          .handling reason rfl h2 h3 rfl ⟨h5.attempts, h5.series, h5.length⟩ (hs.untorn hnone)⟩
    | starting h1 | handling _ h1 | waiting _ h1 | due h1 | ended h1 =>
      rw [h1] at hguard
      exact absurd hguard.1 nofun
  · rw [if_neg hguard]
    exact hinv

theorem WlanInv.handle (hinv : WlanInv s) : WlanInv (wlanStep s .handle) := by
  cases hinv.stage with
  | handling reason h1 h2 h3 h4 h5 h6 =>
    have hstep : wlanStep s .handle = (s.1.lossHandle reason, s.2) := by rw [wlanStep, h4]
    obtain ⟨hsound, hdue⟩ := hinv.sound.loss h5 h6 reason
    have hwait : s.1.backoffMs.toNat * 1000 ≤ wlanMaxUs :=
      hinv.sound.backoff.le.trans (delay_le _)
    rw [hstep]
    exact ⟨hsound, .waiting _ h1 rfl (Nat.add_le_add_left hwait _) h3 rfl hdue⟩
  | starting _ _ _ h4 | active _ _ _ h4 | waiting _ _ _ _ _ h4 | due _ _ _ h4 | ended _ _ _ h4 =>
    rw [wlanStep, h4]
    exact hinv

/-- With an address the waits begin anew. -/
theorem WlanInv.gotIp (hinv : WlanInv s) (ip : UInt32) : WlanInv (wlanStep s (.gotIp ip)) := by
  rw [wlanStep]
  by_cases hguard : s.1.handling = none
  · rw [if_pos hguard]
    have hs := hinv.sound
    have hsound {series : List ℕ} (hpaced : Paced wlanMinUs wlanMaxUs series) :
        Sound (s.1.gotIp ip) { s.2 with series := series } :=
      ⟨backoffMin_eq, hs.shutdown, hs.spaced, hpaced, hs.untorn, hs.late⟩
    have hdue {t : ℕ} (hd : Due s.1 s.2 t) : Due (s.1.gotIp ip) { s.2 with series := [] } t :=
      ⟨hd.spaced, fun _ => nofun, rfl, hd.late⟩
    cases hinv.stage with
    | active h1 h2 h3 h4 h5 =>
      obtain ⟨last, hlast⟩ : ∃ last, s.2.series.getLast? = some last :=
        ⟨_, List.getLast?_eq_some_getLast (List.ne_nil_of_length_eq_add_one h5.length)⟩
      rw [if_pos h1, hlast]
      refine ⟨hsound (paced_singleton last), .active h1 h2 h3 h4 ⟨h5.attempts, ?_, rfl⟩⟩
      intro last' hlast'
      obtain rfl : last = last' := by simpa using hlast'
      exact h5.series last hlast
    | handling _ _ _ _ h4 =>
      rw [h4] at hguard
      cases hguard
    | starting h1 h2 h3 h4 h5 =>
      rw [if_neg (by rw [h1]; decide)]
      exact ⟨hsound paced_nil, .starting h1 h2 h3 h4 (hdue h5)⟩
    | waiting t h1 h2 h3 h4 h5 h6 =>
      rw [if_neg (by rw [h1]; decide)]
      exact ⟨hsound paced_nil, .waiting t h1 h2 h3 h4 h5 (hdue h6)⟩
    | due h1 h2 h3 h4 h5 =>
      rw [if_neg (by rw [h1]; decide)]
      exact ⟨hsound paced_nil, .due h1 h2 h3 h4 (hdue h5)⟩
    | ended h1 h2 h3 h4 h5 =>
      rw [if_neg (by rw [h1]; decide)]
      exact ⟨hsound paced_nil, .ended h1 h2 h3 h4 h5⟩
  · rw [if_neg hguard]
    exact hinv

theorem WlanInv.expire (hinv : WlanInv s) : WlanInv (wlanStep s .expire) := by
  cases hinv.stage with
  | waiting t h1 h2 h3 h4 h5 h6 =>
    rw [wlanStep, h2]
    by_cases hle : t ≤ s.1.now
    · have hs := hinv.sound
      have hdue := h6.mono hle
      simp only [if_pos hle]
      exact ⟨⟨hs.backoff, hs.shutdown, hs.spaced, hs.paced, hs.untorn, hs.late⟩,
        .due h1 rfl rfl h5 ⟨hdue.spaced, hdue.paced, hdue.length, hdue.late⟩⟩
    · simp only [if_neg hle]
      exact hinv
  | starting _ h2 | active _ h2 | handling _ _ h2 | due _ h2 | ended _ h2 =>
    rw [wlanStep, h2]
    exact hinv

theorem WlanInv.callback (hinv : WlanInv s) (accepted : Bool) :
    WlanInv (wlanStep s (.callback accepted)) := by
  cases hinv.stage with
  | due h1 h2 h3 h4 h5 =>
    have hs := hinv.sound
    have hsound : Sound { s.1 with dispatched := false } s.2 :=
      ⟨hs.backoff, hs.shutdown, hs.spaced, hs.paced, hs.untorn, hs.late⟩
    obtain ⟨hsound', hmade⟩ := hsound.connect ⟨h5.spaced, h5.paced, h5.length, h5.late⟩ accepted
    rw [wlanStep, if_pos h3]
    exact ⟨hsound', .connect h2 rfl h4 hmade⟩
  | starting _ _ h3 | active _ _ h3 | handling _ _ _ h3 | waiting _ _ _ _ h3 | ended _ _ h3 =>
    rw [wlanStep, h3]
    exact hinv

/-- The teardown stops the timer, but neither a callback that is due nor the handler of a loss. -/
theorem WlanInv.teardown (hinv : WlanInv s) : WlanInv (wlanStep s .teardown) := by
  have hs := hinv.sound
  rw [wlanStep]
  by_cases hshut : s.1.shutdown = true
  · rw [if_pos hshut]
    refine ⟨⟨hs.backoff, ?_, hs.spaced, hs.paced, hs.untorn, hs.late⟩, ?_⟩
    · rw [← hs.shutdown, hshut]
    · have hdue {t : ℕ} (hd : Due s.1 s.2 t) :
          Due { s.1 with shutdown := true, timer := none } { s.2 with torn := s.2.torn } t :=
        ⟨hd.spaced, hd.paced, hd.length, hd.late⟩
      cases hinv.stage with
      | starting h1 h2 h3 h4 h5 => exact .starting h1 rfl h3 h4 (hdue h5)
      | active h1 h2 h3 h4 h5 => exact .active h1 rfl h3 h4 ⟨h5.attempts, h5.series, h5.length⟩
      | handling reason h1 h2 h3 h4 h5 h6 =>
        exact .handling reason h1 rfl h3 h4 ⟨h5.attempts, h5.series, h5.length⟩ h6
      | waiting t h1 h2 h3 h4 h5 h6 => exact .ended h1 rfl h4 h5 (.inl rfl)
      | due h1 h2 h3 h4 h5 => exact .due h1 rfl h3 h4 (hdue h5)
      | ended h1 h2 h3 h4 h5 => exact .ended h1 rfl h3 h4 (.inl rfl)
  · rw [if_neg hshut]
    have hnone : s.2.torn = none := by
      rw [hs.shutdown] at hshut
      simpa using hshut
    have hlate := hs.untorn hnone
    refine ⟨⟨hs.backoff, rfl, hs.spaced, hs.paced, nofun, ?_⟩, ?_⟩
    · rintro torn htorn
      obtain rfl := Option.some.inj htorn
      rw [hlate]
      exact ⟨le_rfl, Nat.zero_le _, fun _ _ => nofun⟩
    · have hdue (hpending : (s.1.dispatched || s.1.driver == .starting) = true)
          (hd : Due s.1 s.2 s.1.now) :
          Due { s.1 with shutdown := true, timer := none }
            { s.2 with torn := some (s.1.now, s.1.dispatched || s.1.driver == .starting) }
            s.1.now := by
        refine ⟨hd.spaced, hd.paced, hd.length, fun torn htorn => ⟨hlate, .inl ?_⟩⟩
        obtain rfl := Option.some.inj htorn
        exact hpending
      cases hinv.stage with
      | starting h1 h2 h3 h4 h5 => exact .starting h1 rfl h3 h4 (hdue (by rw [h3, h1]; rfl) h5)
      | active h1 h2 h3 h4 h5 => exact .active h1 rfl h3 h4 ⟨h5.attempts, h5.series, h5.length⟩
      | handling reason h1 h2 h3 h4 h5 h6 =>
        exact .handling reason h1 rfl h3 h4 ⟨h5.attempts, h5.series, h5.length⟩ h6
      | waiting t h1 h2 h3 h4 h5 h6 => exact .ended h1 rfl h4 h5 (.inl rfl)
      | due h1 h2 h3 h4 h5 => exact .due h1 rfl h3 h4 (hdue (by rw [h3]; rfl) h5)
      | ended h1 h2 h3 h4 h5 => exact .ended h1 rfl h3 h4 (.inl rfl)

theorem wlanRun_inv (ops : List WlanOp) : WlanInv (wlanRun ops) := by
  refine Machine.run_invariant wlanStep ?_ ⟨⟨backoffMin_eq, rfl, .nil, paced_nil, fun _ => rfl,
    fun _ => nofun⟩, .starting rfl rfl rfl rfl
      ⟨fun _ => nofun, fun _ => nofun, rfl, fun _ => nofun⟩⟩ ops
  intro s op hinv
  cases op with
  | pass us => exact hinv.pass us
  | staStart accepted => exact hinv.staStart accepted
  | staDisconnected reason => exact hinv.staDisconnected reason
  | handle => exact hinv.handle
  | gotIp ip => exact hinv.gotIp ip
  | expire => exact hinv.expire
  | callback accepted => exact hinv.callback accepted
  | teardown => exact hinv.teardown

-- ════════════════════════════════════════════════════════════════════════
-- The attempts
-- ════════════════════════════════════════════════════════════════════════

/-- **The access point is not flooded**: in every run behind the one call of `wlan_com_connect` two
    attempts lie at least five seconds apart, and the attempts of one series, from the start or from
    the one that led to an address, take at least the sum of the waits, which double from five
    seconds up to two minutes. -/
theorem attempts_paced (ops : List WlanOp) :
    let h := (wlanRun ops).2
    h.attempts.Pairwise (fun t t' => t + 5000000 ≤ t') ∧
      ∀ first ∈ h.series.head?, ∀ last ∈ h.series.getLast?,
        first + ((List.range (h.series.length - 1)).map (delay 5000000 120000000)).sum ≤ last := by
  intro h
  have hs := (wlanRun_inv ops).sound
  have : Trans (fun t t' : ℕ => t + wlanMinUs ≤ t') (fun t t' => t + wlanMinUs ≤ t')
      (fun t t' => t + wlanMinUs ≤ t') := ⟨fun hab hbc => by omega⟩
  exact ⟨List.isChain_iff_pairwise.mp hs.spaced, fun first hfirst last hlast =>
    hs.paced.total hfirst hlast⟩

/-- **The link is not given up**: until the teardown, and as long as the driver refuses no attempt,
    there is always exactly one of: a start of the driver that is to come, an attempt or a
    connection, a loss being handled, a callback that is due, or a timer that is due within two
    minutes. None of them ever comes beside another, so that a timer never fires into a
    connection. -/
theorem link_not_given_up (ops : List WlanOp) :
    let w := (wlanRun ops).1
    (w.shutdown = false → (wlanRun ops).2.refused = false →
      w.driver = .starting ∨ w.driver = .active ∨ w.handling.isSome ∨ w.dispatched = true ∨
        w.timer.isSome) ∧
    (w.driver ≠ .idle → w.handling = none ∧ w.dispatched = false ∧ w.timer = none) ∧
    (w.handling.isSome → w.driver = .idle ∧ w.dispatched = false ∧ w.timer = none) ∧
    (w.dispatched = true → w.driver = .idle ∧ w.handling = none ∧ w.timer = none) ∧
    (∀ t ∈ w.timer, t ≤ w.now + 120000000 ∧
      w.driver = .idle ∧ w.handling = none ∧ w.dispatched = false) := by
  intro w
  cases (wlanRun_inv ops).stage with
  | starting h1 h2 h3 h4 =>
    refine ⟨fun _ _ => .inl h1, fun _ => ⟨h4, h3, h2⟩, ?_, ?_, ?_⟩
    · rw [h4]; exact nofun
    · rw [h3]; exact nofun
    · rw [h2]; exact fun _ => nofun
  | active h1 h2 h3 h4 =>
    refine ⟨fun _ _ => .inr (.inl h1), fun _ => ⟨h4, h3, h2⟩, ?_, ?_, ?_⟩
    · rw [h4]; exact nofun
    · rw [h3]; exact nofun
    · rw [h2]; exact fun _ => nofun
  | handling reason h1 h2 h3 h4 =>
    refine ⟨fun _ _ => .inr (.inr (.inl (by rw [h4]; rfl))), fun hne => absurd h1 hne,
      fun _ => ⟨h1, h3, h2⟩, ?_, ?_⟩
    · rw [h3]; exact nofun
    · rw [h2]; exact fun _ => nofun
  | waiting t h1 h2 h3 h4 h5 =>
    refine ⟨fun _ _ => .inr (.inr (.inr (.inr (by rw [h2]; rfl)))), fun hne => absurd h1 hne,
      ?_, ?_, ?_⟩
    · rw [h5]; exact nofun
    · rw [h4]; exact nofun
    · intro t' ht'
      obtain rfl := Option.some.inj (h2.symm.trans ht')
      exact ⟨h3, h1, h5, h4⟩
  | due h1 h2 h3 h4 =>
    refine ⟨fun _ _ => .inr (.inr (.inr (.inl h3))), fun hne => absurd h1 hne, ?_,
      fun _ => ⟨h1, h4, h2⟩, ?_⟩
    · rw [h4]; exact nofun
    · rw [h2]; exact fun _ => nofun
  | ended h1 h2 h3 h4 h5 =>
    refine ⟨fun hshut hno => ?_, fun hne => absurd h1 hne, ?_, ?_, ?_⟩
    · rcases h5 with h5 | h5
      · exact absurd (hshut.symm.trans h5) Bool.false_ne_true
      · exact absurd (hno.symm.trans h5) Bool.false_ne_true
    · rw [h4]; exact nofun
    · rw [h3]; exact nofun
    · rw [h2]; exact fun _ => nofun

/-- **The teardown**: whatever was under way at the time, at most one attempt is made after it, and
    that comes five seconds later at the earliest unless it was due at once. -/
theorem teardown_ends_attempts (ops : List WlanOp) (torn : ℕ × Bool)
    (htorn : torn ∈ (wlanRun ops).2.torn) :
    let late := (wlanRun ops).2.late
    late.length ≤ 1 ∧ (torn.2 = false → ∀ t ∈ late, torn.1 + 5000000 ≤ t) :=
  ((wlanRun_inv ops).sound.late torn htorn).2

/-- A loss that is being handled when the device is torn down: the attempt five seconds later. -/
theorem teardown_ends_attempts_handling :
    let ops := [.staStart true, .staDisconnected 8, .teardown, .handle, .pass 5000000, .expire,
      .callback true]
    (wlanRun ops).2.late = [5000000] ∧
      ((wlanRun ops).2.late.length ≤ 1 ∧
        ((0, false).2 = false → ∀ t ∈ (wlanRun ops).2.late, (0, false).1 + 5000000 ≤ t)) :=
  ⟨by decide, teardown_ends_attempts _ (0, false) (by decide)⟩

end Fountainer.Network
