import Fountainer.Lib.OverwriteRing
import Fountainer.Network.LinkScore
import Mathlib.Data.Bool.AllAny
import Mathlib.Data.List.Chain

/-!
# The supervision of the link

`link_quality.c`: the times of link events in rings, the tick that scores the link from what the
rings count, and the session edges. A ring keeps the last 16 events of its kind, and each penalty
reaches its cap before that many; so the score is that of the whole history.
-/

namespace Fountainer.Network

/-- `LQ_EVENT_RING`: the times kept of each kind of event. -/
def lqEventRing : ℕ := 16

instance : NeZero lqEventRing := ⟨by decide⟩

/-- `LQ_WIN_HOUR_S`. -/
def lqWinHourS : UInt32 := 3600

/-- `LQ_WIN_5MIN_S`. -/
def lqWin5MinS : UInt32 := 300

/-- `lq_ring_t`. A slot with time 0 is empty. -/
structure LqRing where
  aulTs : Fin lqEventRing → UInt32
  ucIdx : Fin lqEventRing

/-- The ring at the start of the program. -/
def emptyRing : LqRing := ⟨fun _ => 0, 0⟩

/-- `ring_push`. -/
def ringPush (r : LqRing) (now : UInt32) : LqRing where
  aulTs := Function.update r.aulTs r.ucIdx (if now ≠ 0 then now else 1)
  ucIdx := r.ucIdx + 1

/-- A slot that counts. -/
def slotCounts (now win ts : UInt32) : Bool := ts != 0 && decide (now - ts ≤ win)

/-- `ring_count`. -/
def ringCount (r : LqRing) (now win : UInt32) : UInt8 :=
  (List.finRange lqEventRing).foldl
    (fun n i => if slotCounts now win (r.aulTs i) then n + 1 else n) 0

-- ════════════════════════════════════════════════════════════════════════
-- What the rings count
-- ════════════════════════════════════════════════════════════════════════

/-- The window of `win` seconds up to `now`, both ends included. -/
def InWindow (now win t : UInt32) : Prop := t ≤ now ∧ now.toNat ≤ t.toNat + win.toNat

instance (now win t : UInt32) : Decidable (InWindow now win t) :=
  inferInstanceAs (Decidable (_ ∧ _))

theorem slotCounts_iff {now win t : UInt32} (hpos : 1 ≤ t) (hle : t ≤ now) :
    slotCounts now win t = true ↔ InWindow now win t := by
  have hne : t ≠ 0 := by
    rintro rfl
    exact absurd hpos (by decide)
  have hle' : t.toNat ≤ now.toNat := UInt32.le_iff_toNat_le.mp hle
  rw [slotCounts, InWindow, Bool.and_eq_true, bne_iff_ne, decide_eq_true_iff,
    UInt32.le_iff_toNat_le, UInt32.toNat_sub_of_le now t hle]
  constructor
  · rintro ⟨-, hwin⟩
    exact ⟨hle, by omega⟩
  · rintro ⟨-, hwin⟩
    exact ⟨hne, by omega⟩

theorem ringCount_toNat (r : LqRing) (now win : UInt32) :
    (ringCount r now win).toNat =
      (List.finRange lqEventRing).countP fun i => slotCounts now win (r.aulTs i) := by
  have h := OverwriteRing.foldl_count_toNat (fun i => slotCounts now win (r.aulTs i))
    (List.finRange lqEventRing) 0 (by decide)
  simpa [ringCount] using h

/-- The ring after the pushes, from the empty one. -/
def ringOf (hist : List UInt32) : LqRing := Machine.run ringPush emptyRing hist

theorem ringOf_append (hist ts : List UInt32) :
    ringOf (hist ++ ts) = Machine.run ringPush (ringOf hist) ts := Machine.run_append ..

theorem ringOf_concat (hist : List UInt32) (t : UInt32) :
    ringOf (hist ++ [t]) = ringPush (ringOf hist) t := Machine.run_concat ..

/-- The ring holds the end of its history. -/
theorem keeps_push (hist : List UInt32) (hpos : ∀ t ∈ hist, 1 ≤ t) :
    OverwriteRing.Keeps 0 (ringOf hist).aulTs (ringOf hist).ucIdx hist := by
  induction hist using List.reverseRecOn with
  | nil => exact OverwriteRing.keeps_nil 0 0
  | append_singleton hist t ih =>
    have ht : t ≠ 0 := by
      rintro rfl
      exact absurd (hpos 0 (by simp)) (by decide)
    have hkeeps := (ih fun u hu => hpos u (List.mem_append_left _ hu)).push t
    rw [ringOf_concat, ringPush, if_pos ht]
    exact hkeeps

variable {hist : List UInt32} {now : UInt32}

/-- A ring counts the events of a window up to its size. -/
theorem ringCount_eq_min (hsorted : hist.Pairwise (· ≤ ·)) (hpos : ∀ t ∈ hist, 1 ≤ t)
    (hnow : ∀ t ∈ hist, t ≤ now) (win : UInt32) :
    (ringCount (ringOf hist) now win).toNat =
      min lqEventRing (hist.countP (InWindow now win)) := by
  have hwindow : ∀ t ∈ hist, slotCounts now win t = true ↔ InWindow now win t :=
    fun t ht => slotCounts_iff (hpos t ht) (hnow t ht)
  have hcount : hist.countP (slotCounts now win) = hist.countP fun t => InWindow now win t :=
    List.countP_congr fun t ht => by simpa using hwindow t ht
  rw [ringCount_toNat, ← hcount,
    (keeps_push hist hpos).countP_eq_min (slotCounts now win) rfl hsorted ?later]
  case later =>
    intro t ht u hu htu hcounts
    rw [hwindow t ht] at hcounts
    rw [hwindow u hu]
    have hle : t.toNat ≤ u.toNat := UInt32.le_iff_toNat_le.mp htu
    exact ⟨hnow u hu, by have := hcounts.2; omega⟩

/-- A cap that is reached within `size` events hides that no more are counted. -/
theorem cap_min {weight size : ℕ} {lo : ℤ} (h : -((weight * size : ℕ) : ℤ) ≤ lo) (n : ℕ) :
    cap (-weight * (min size n : ℕ)) lo = cap (-weight * n) lo := by
  obtain hle | hlt := le_or_gt n size
  · rw [min_eq_right hle]
  · have hall : ∀ m, size ≤ m → cap (-weight * (m : ℤ)) lo = lo := by
      intro m hm
      have hmul : ((weight * size : ℕ) : ℤ) ≤ (weight * m : ℕ) :=
        Int.ofNat_le.mpr (Nat.mul_le_mul_left weight hm)
      rw [cap, neg_mul, ← Int.natCast_mul]
      split_ifs <;> omega
    rw [min_eq_left hlt.le, hall size le_rfl, hall n hlt.le]

variable {n : ℕ}

theorem wlanPenalty_eq {k : UInt8} (hk : k.toNat = min lqEventRing n) :
    wlanPenalty k = cap (-15 * n) (-30) := by
  rw [wlanPenalty, hk]
  exact @cap_min 15 _ _ (by decide) n

theorem sessionPenalty_eq {k : UInt8} (hk : k.toNat = min lqEventRing n) :
    sessionPenalty k = cap (-10 * n) (-30) := by
  rw [sessionPenalty, hk]
  exact @cap_min 10 _ _ (by decide) n

theorem txPenalty_eq {k : UInt8} (hk : k.toNat = min lqEventRing n) :
    txPenalty k.toUInt16 = cap (-2 * n) (-20) := by
  rw [txPenalty, UInt8.toNat_toUInt16, hk]
  exact @cap_min 2 _ _ (by decide) n

/-- **Undistorted penalties**: for events at times from 1 on that do not run backwards, and a query
    at or after the last one, the penalties from the counts of a ring are those from the exact
    numbers of events. -/
theorem ring_penalties (hist : List UInt32) (now : UInt32) (hsorted : hist.Pairwise (· ≤ ·))
    (hpos : ∀ t ∈ hist, 1 ≤ t) (hnow : ∀ t ∈ hist, t ≤ now) :
    wlanPenalty (ringCount (ringOf hist) now lqWinHourS) =
        cap (-15 * hist.countP (InWindow now lqWinHourS)) (-30) ∧
      sessionPenalty (ringCount (ringOf hist) now lqWinHourS) =
        cap (-10 * hist.countP (InWindow now lqWinHourS)) (-30) ∧
      txPenalty (ringCount (ringOf hist) now lqWin5MinS).toUInt16 =
        cap (-2 * hist.countP (InWindow now lqWin5MinS)) (-20) := by
  have hcount := ringCount_eq_min hsorted hpos hnow
  exact ⟨wlanPenalty_eq (hcount _), sessionPenalty_eq (hcount _), txPenalty_eq (hcount _)⟩

/-- Twenty events in one second and one an hour later. -/
theorem ring_penalties_burst :
    wlanPenalty (ringCount (ringOf (List.replicate 20 5 ++ [3605])) 3606 lqWinHourS) =
      cap (-15 * (List.replicate 20 (5 : UInt32) ++ [3605]).countP (InWindow 3606 lqWinHourS))
        (-30) :=
  (ring_penalties (List.replicate 20 5 ++ [3605]) 3606 (by decide)
    (List.all_iff_forall_prop.mp (by decide +kernel))
    (List.all_iff_forall_prop.mp (by decide +kernel))).1

-- ════════════════════════════════════════════════════════════════════════
-- The supervision
-- ════════════════════════════════════════════════════════════════════════

/-- `LQ_SAMPLE_GOOD_S`. -/
def lqSampleGoodS : UInt32 := 60

/-- `LQ_SAMPLE_POOR_S`. -/
def lqSamplePoorS : UInt32 := 120

/-- The statics of `link_quality.c`. -/
structure LinkQuality (F : Type*) where
  score : LinkState F
  wlanDrops : LqRing
  sessDrops : LqRing
  txFails : LqRing
  prevWlanDrops : UInt32
  prevTxFail : UInt32
  sessionDrops : UInt32
  sessionUp : Bool
  offlineStartS : UInt32
  offlineTotalS : UInt32
  lastOfflineS : UInt32
  lastSampleS : UInt32
  poorReported : Bool
  testPoorUntilS : UInt32

/-- What a tick reads: the uptime, the cumulative counters, and the signal strength of the access
    point where there is one. -/
structure LinkReadings where
  now : UInt32
  wlanDisconnects : UInt32
  txFail : UInt32
  ap : Option Int8

/-- What a tick does outside. The code cuts the average to a byte for the datapoint, the records
    and the alert. -/
inductive LinkEffect (F : Type*) where
  | mirror (score : F) (poor : Bool) (sessionDrops txFail offlineTotalS lastOfflineS : UInt32)
  | stateChanged (poor : Bool)
  | logPoor (score : F) (rssi : Int8)
  | alert (score : F)
  | logRecovered (score : F) (rssi : Int8)
  | netSample (rssi : Int8) (score : F) (txFail sessionDrops : UInt32)

section Functions

variable {F : Type*} [FloatArith F]

/-- `link_quality_init`, on the statics at the start of the program. -/
def linkQualityInit : LinkQuality F where
  score := linkStateInit
  wlanDrops := emptyRing
  sessDrops := emptyRing
  txFails := emptyRing
  prevWlanDrops := 0
  prevTxFail := 0
  sessionDrops := 0
  sessionUp := false
  offlineStartS := 0
  offlineTotalS := 0
  lastOfflineS := 0
  lastSampleS := 0
  poorReported := false
  testPoorUntilS := 0

/-- `on_session_edge`, for `EVT_SESSION_READY` and for `EVT_SESSION_LOST`. -/
def onSessionEdge (lq : LinkQuality F) (ready : Bool) (now : UInt32) : LinkQuality F :=
  if ready then
    { lq with
      lastOfflineS :=
        if !lq.sessionUp && lq.offlineStartS != 0 then now - lq.offlineStartS else lq.lastOfflineS
      sessionUp := true }
  else
    { lq with
      sessionUp := false
      offlineStartS := now
      sessionDrops := lq.sessionDrops + 1
      sessDrops := ringPush lq.sessDrops now }

/-- `link_quality_test_poor_set`. -/
def linkQualityTestPoorSet (lq : LinkQuality F) (now seconds : UInt32) : LinkQuality F :=
  { lq with testPoorUntilS := now + seconds }

/-- The events that a cumulative counter shows since it was `prev`, at `now`. -/
def eventsSince (prev counter now : UInt32) : List UInt32 :=
  List.replicate (counter.toNat - prev.toNat) now

/-- The folding of the cumulative counters in `link_quality_tick`. -/
def foldCounters (lq : LinkQuality F) (r : LinkReadings) : LinkQuality F :=
  { lq with
    wlanDrops := Machine.run ringPush lq.wlanDrops
      (eventsSince lq.prevWlanDrops r.wlanDisconnects r.now)
    prevWlanDrops := max lq.prevWlanDrops r.wlanDisconnects
    txFails := Machine.run ringPush lq.txFails (eventsSince lq.prevTxFail r.txFail r.now)
    prevTxFail := max lq.prevTxFail r.txFail }

/-- The inputs that `link_quality_tick` scores. -/
def linkInputs (lq : LinkQuality F) (r : LinkReadings) : LinkInputs where
  rssiDbm := r.ap.getD 0
  wlanDisconnects1h := ringCount lq.wlanDrops r.now lqWinHourS
  sessionDrops1h := ringCount lq.sessDrops r.now lqWinHourS
  txFails5m := (ringCount lq.txFails r.now lqWin5MinS).toUInt16

/-- The injected degradation. -/
def degrade (lq : LinkQuality F) (now : UInt32) : LinkQuality F :=
  if lq.testPoorUntilS = 0 then lq
  else if now < lq.testPoorUntilS then { lq with score := ⟨10.0, true⟩ }
  else { lq with testPoorUntilS := 0 }

/-- The end of `link_quality_tick` where the state is not what it was. -/
def linkEdge (lq : LinkQuality F) (wasPoor : Bool) (rssi : Int8) :
    List (LinkEffect F) × LinkQuality F :=
  let score := lq.score.scoreEma
  if lq.score.poor = wasPoor then ([], lq)
  else if lq.score.poor then
    if lq.sessionUp && !lq.poorReported then
      ([.stateChanged true, .logPoor score rssi, .alert score], { lq with poorReported := true })
    else ([.stateChanged true, .logPoor score rssi], lq)
  else ([.stateChanged false, .logRecovered score rssi], { lq with poorReported := false })

/-- The sample of the time series at the end of `link_quality_tick`. -/
def netSample (lq : LinkQuality F) (r : LinkReadings) (rssi : Int8) :
    List (LinkEffect F) × LinkQuality F :=
  let rate := if lq.score.poor then lqSamplePoorS else lqSampleGoodS
  if r.now - lq.lastSampleS ≥ rate then
    ([.netSample rssi lq.score.scoreEma r.txFail lq.sessionDrops], { lq with lastSampleS := r.now })
  else ([], lq)

/-- `link_quality_tick`. -/
def linkQualityTick (lq : LinkQuality F) (r : LinkReadings) :
    List (LinkEffect F) × LinkQuality F :=
  let lq := foldCounters lq r
  let lq := if lq.sessionUp then lq else { lq with offlineTotalS := lq.offlineTotalS + 5 }
  let inputs := linkInputs lq r
  let wasPoor := lq.score.poor
  let lq := degrade { lq with score := (linkScoreStep lq.score inputs).2 } r.now
  let mirror := .mirror lq.score.scoreEma lq.score.poor lq.sessionDrops r.txFail lq.offlineTotalS
    lq.lastOfflineS
  let (edge, lq) := linkEdge lq wasPoor inputs.rssiDbm
  let (sample, lq) := netSample lq r inputs.rssiDbm
  (mirror :: edge ++ sample, lq)

/-- A call on the supervision. -/
inductive LinkCall where
  | tick (r : LinkReadings)
  | session (ready : Bool) (now : UInt32)
  | testPoor (now seconds : UInt32)

/-- The uptime of the call. -/
def LinkCall.time : LinkCall → UInt32
  | .tick r => r.now
  | .session _ now => now
  | .testPoor now _ => now

def linkCall (lq : LinkQuality F) : LinkCall → LinkQuality F
  | .tick r => (linkQualityTick lq r).2
  | .session ready now => onSessionEdge lq ready now
  | .testPoor now seconds => linkQualityTestPoorSet lq now seconds

/-- The supervision after the calls. -/
def linkQualityRun (F : Type*) [FloatArith F] (calls : List LinkCall) : LinkQuality F :=
  Machine.run linkCall linkQualityInit calls

end Functions

-- ════════════════════════════════════════════════════════════════════════
-- The history behind the rings
-- ════════════════════════════════════════════════════════════════════════

/-- All link events so far, and the counters as last read. -/
structure LinkHistory where
  wlan : List UInt32
  sess : List UInt32
  tx : List UInt32
  wlanCounter : UInt32
  txCounter : UInt32

/-- The events that a tick finds. -/
def LinkHistory.note (h : LinkHistory) (r : LinkReadings) : LinkHistory :=
  { h with
    wlan := h.wlan ++ eventsSince h.wlanCounter r.wlanDisconnects r.now
    tx := h.tx ++ eventsSince h.txCounter r.txFail r.now
    wlanCounter := max h.wlanCounter r.wlanDisconnects
    txCounter := max h.txCounter r.txFail }

/-- The events of a call. -/
def LinkHistory.call (h : LinkHistory) : LinkCall → LinkHistory
  | .tick r => h.note r
  | .session ready now => if ready then h else { h with sess := h.sess ++ [now] }
  | .testPoor _ _ => h

/-- The events of the calls. -/
def linkHistory (calls : List LinkCall) : LinkHistory :=
  Machine.run LinkHistory.call ⟨[], [], [], 0, 0⟩ calls

/-- The score of `link_score_step` from the exact numbers of events. -/
def exactScore (rssi : Int8) (h : LinkHistory) (now : UInt32) : ℤ :=
  let score := rssiBase rssi + cap (-15 * h.wlan.countP (InWindow now lqWinHourS)) (-30) +
    cap (-10 * h.sess.countP (InWindow now lqWinHourS)) (-30) +
    cap (-2 * h.tx.countP (InWindow now lqWin5MinS)) (-20)
  let score := if score < 0 then 0 else score
  if score > 100 then 100 else score

/-- The calls have uptimes from `start` on that do not run backwards. -/
def TimedLink (start : UInt32) (calls : List LinkCall) : Prop :=
  List.IsChain (· ≤ ·) (start :: calls.map LinkCall.time)

instance (start : UInt32) (calls : List LinkCall) : Decidable (TimedLink start calls) :=
  inferInstanceAs (Decidable (List.IsChain _ _))

/-- Events up to `now`, in order. -/
structure Past (ts : List UInt32) (now : UInt32) : Prop where
  sorted : ts.Pairwise (· ≤ ·)
  pos : ∀ t ∈ ts, 1 ≤ t
  le : ∀ t ∈ ts, t ≤ now

theorem Past.mono {ts : List UInt32} {t u : UInt32} (h : Past ts t) (htu : t ≤ u) : Past ts u :=
  ⟨h.sorted, h.pos, fun v hv => UInt32.le_trans (h.le v hv) htu⟩

theorem Past.append {ts : List UInt32} {t : UInt32} (h : Past ts t) (hpos : 1 ≤ t) (k : ℕ) :
    Past (ts ++ List.replicate k t) t := by
  have hmem : ∀ u ∈ List.replicate k t, u = t := fun u hu => List.eq_of_mem_replicate hu
  refine ⟨List.pairwise_append.mpr ⟨h.sorted, ?_, ?_⟩, ?_, ?_⟩
  · exact List.pairwise_replicate.mpr (.inr (UInt32.le_refl t))
  · intro u hu v hv
    rw [hmem v hv]
    exact h.le u hu
  · intro u hu
    obtain hu | hu := List.mem_append.mp hu
    · exact h.pos u hu
    · exact hmem u hu ▸ hpos
  · intro u hu
    obtain hu | hu := List.mem_append.mp hu
    · exact h.le u hu
    · exact hmem u hu ▸ UInt32.le_refl t

/-- The rings and the counters. -/
@[ext]
structure LinkRings where
  wlan : LqRing
  sess : LqRing
  tx : LqRing
  wlanCounter : UInt32
  txCounter : UInt32

def LinkQuality.rings {F : Type*} (lq : LinkQuality F) : LinkRings where
  wlan := lq.wlanDrops
  sess := lq.sessDrops
  tx := lq.txFails
  wlanCounter := lq.prevWlanDrops
  txCounter := lq.prevTxFail

/-- The rings that a history gives. -/
def LinkHistory.rings (h : LinkHistory) : LinkRings where
  wlan := ringOf h.wlan
  sess := ringOf h.sess
  tx := ringOf h.tx
  wlanCounter := h.wlanCounter
  txCounter := h.txCounter

/-- The supervision and the history of events up to `now`. -/
structure TracksEvents {F : Type*} (lq : LinkQuality F) (h : LinkHistory) (now : UInt32) :
    Prop where
  rings : lq.rings = h.rings
  start : 1 ≤ now
  wlan : Past h.wlan now
  sess : Past h.sess now
  tx : Past h.tx now

section Tracks

variable {F : Type*} {lq : LinkQuality F} {h : LinkHistory} {t : UInt32}

theorem TracksEvents.mono (ht : TracksEvents lq h t) {u : UInt32} (htu : t ≤ u) :
    TracksEvents lq h u :=
  ⟨ht.rings, UInt32.le_trans ht.start htu, ht.wlan.mono htu, ht.sess.mono htu, ht.tx.mono htu⟩

theorem rings_fold (hrings : lq.rings = h.rings) (r : LinkReadings) :
    (foldCounters lq r).rings = (h.note r).rings := by
  have hwlan : lq.wlanDrops = ringOf h.wlan := congrArg LinkRings.wlan hrings
  have htx : lq.txFails = ringOf h.tx := congrArg LinkRings.tx hrings
  have hwlanCounter : lq.prevWlanDrops = h.wlanCounter := congrArg LinkRings.wlanCounter hrings
  have htxCounter : lq.prevTxFail = h.txCounter := congrArg LinkRings.txCounter hrings
  ext1
  · show _ = ringOf (h.wlan ++ _)
    rw [ringOf_append, ← hwlan, ← hwlanCounter]
    rfl
  · exact (congrArg LinkRings.sess hrings :)
  · show _ = ringOf (h.tx ++ _)
    rw [ringOf_append, ← htx, ← htxCounter]
    rfl
  · exact congrArg (max · r.wlanDisconnects) hwlanCounter
  · exact congrArg (max · r.txFail) htxCounter

variable [FloatArith F]

/-- Behind the folding of the counters a tick leaves the rings alone. -/
theorem rings_tick (lq : LinkQuality F) (r : LinkReadings) :
    (linkQualityTick lq r).2.rings = (foldCounters lq r).rings := by
  have hsample : ∀ (a : LinkQuality F) rssi, (netSample a r rssi).2.rings = a.rings := by
    intro a rssi
    rw [netSample]
    split_ifs <;> rfl
  have hedge : ∀ (a : LinkQuality F) was rssi, (linkEdge a was rssi).2.rings = a.rings := by
    intro a was rssi
    rw [linkEdge]
    split_ifs <;> rfl
  have hdegrade : ∀ a : LinkQuality F, (degrade a r.now).rings = a.rings := by
    intro a
    rw [degrade]
    split_ifs <;> rfl
  rw [linkQualityTick, hsample, hedge, hdegrade]
  split_ifs <;> rfl

/-- A call. -/
theorem TracksEvents.call (ht : TracksEvents lq h t) {c : LinkCall} (hc : t ≤ c.time) :
    TracksEvents (linkCall lq c) (h.call c) c.time := by
  replace ht := ht.mono hc
  cases c with
  | tick r =>
    refine ⟨(rings_tick lq r).trans (rings_fold ht.rings r), ht.start, ?_, ht.sess, ?_⟩
    · exact ht.wlan.append ht.start _
    · exact ht.tx.append ht.start _
  | session ready now =>
    cases ready with
    | true => exact ⟨ht.rings, ht.start, ht.wlan, ht.sess, ht.tx⟩
    | false =>
      refine ⟨?_, ht.start, ht.wlan, ht.sess.append ht.start 1, ht.tx⟩
      ext1
      · exact (congrArg LinkRings.wlan ht.rings :)
      · show _ = ringOf (h.sess ++ [now])
        rw [ringOf_concat]
        exact congrArg (fun rings => ringPush rings.sess now) ht.rings
      · exact (congrArg LinkRings.tx ht.rings :)
      · exact (congrArg LinkRings.wlanCounter ht.rings :)
      · exact (congrArg LinkRings.txCounter ht.rings :)
  | testPoor now seconds => exact ⟨ht.rings, ht.start, ht.wlan, ht.sess, ht.tx⟩

/-- **Run**: the calls up to the next one. -/
theorem TracksEvents.run (ht : TracksEvents lq h t) {calls : List LinkCall} {c : LinkCall}
    (htimed : TimedLink t (calls ++ [c])) :
    TracksEvents (Machine.run linkCall lq calls) (Machine.run LinkHistory.call h calls) c.time := by
  induction calls generalizing lq h t with
  | nil => exact ht.mono (List.isChain_cons_cons.mp htimed).1
  | cons d calls ih =>
    obtain ⟨hd, hcalls⟩ := List.isChain_cons_cons.mp htimed
    exact ih (ht.call hd) hcalls

theorem tracksEvents_init : TracksEvents (linkQualityInit : LinkQuality F) ⟨[], [], [], 0, 0⟩ 1 :=
  ⟨rfl, UInt32.le_refl 1, ⟨.nil, by simp, by simp⟩, ⟨.nil, by simp, by simp⟩,
    ⟨.nil, by simp, by simp⟩⟩

/-- **Undistorted score**: over any calls at uptimes from 1 on that do not run backwards, a tick
    scores the link as the exact numbers of events do. -/
theorem tick_rawScore (calls : List LinkCall) (r : LinkReadings)
    (htimed : TimedLink 1 (calls ++ [.tick r])) :
    rawScore (linkInputs (foldCounters (linkQualityRun F calls) r) r) =
      exactScore (r.ap.getD 0) ((linkHistory calls).note r) r.now := by
  have ht : TracksEvents (linkQualityRun F calls) (linkHistory calls) r.now :=
    tracksEvents_init.run htimed
  have hpast := @TracksEvents.call F _ _ _ _ ht (.tick r) (UInt32.le_refl r.now)
  have hrings := rings_fold ht.rings r
  obtain ⟨lq, hlq⟩ : ∃ lq, foldCounters (linkQualityRun F calls) r = lq := ⟨_, rfl⟩
  rw [hlq] at hrings ⊢
  have hcount : ∀ {ring : LqRing} {ts : List UInt32}, ring = ringOf ts →
      Past ts r.now → ∀ win,
        (ringCount ring r.now win).toNat = min lqEventRing (ts.countP (InWindow r.now win)) := by
    rintro _ ts rfl hts
    exact ringCount_eq_min hts.sorted hts.pos hts.le
  have hwlan := wlanPenalty_eq (hcount (congrArg LinkRings.wlan hrings) hpast.wlan lqWinHourS)
  have hsess := sessionPenalty_eq (hcount (congrArg LinkRings.sess hrings) hpast.sess lqWinHourS)
  have htx := txPenalty_eq (hcount (congrArg LinkRings.tx hrings) hpast.tx lqWin5MinS)
  have hscore : rssiBase (r.ap.getD 0) + wlanPenalty (ringCount lq.rings.wlan r.now lqWinHourS) +
      sessionPenalty (ringCount lq.rings.sess r.now lqWinHourS) +
      txPenalty (ringCount lq.rings.tx r.now lqWin5MinS).toUInt16 = _ :=
    congrArg₂ (· + ·) (congrArg₂ (· + ·) (congrArg (_ + ·) hwlan) hsess) htx
  exact congrArg (fun score : ℤ => if (if score < 0 then 0 else score) > 100 then 100
    else if score < 0 then 0 else score) hscore

end Tracks

-- ════════════════════════════════════════════════════════════════════════
-- What others learn of the state
-- ════════════════════════════════════════════════════════════════════════

section News

variable {F : Type*}

/-- What a tick tells others: the event of a change of state, and the alert. -/
inductive LinkNews where
  | state (poor : Bool)
  | alert
  deriving DecidableEq

/-- The state in a piece of news. -/
def LinkNews.state? : LinkNews → Option Bool
  | .state poor => some poor
  | .alert => none

/-- The news in an effect. -/
def LinkEffect.news : LinkEffect F → Option LinkNews
  | .stateChanged poor => some (.state poor)
  | .alert _ => some .alert
  | _ => none

/-- The news of a tick: none without a change of state; with it the event, and on entering the poor
    state in a session the alert. -/
def edgeNews (wasPoor poor sessionUp : Bool) : List LinkNews :=
  if poor = wasPoor then [] else if poor && sessionUp then [.state true, .alert] else [.state poor]

/-- A state is marked as reported only while it is poor. -/
def Reported (lq : LinkQuality F) : Prop := lq.poorReported = true → lq.score.poor = true

theorem findSome_edgeNews (wasPoor poor sessionUp : Bool) :
    (edgeNews wasPoor poor sessionUp).findSome? LinkNews.state? =
      if poor = wasPoor then none else some poor := by
  cases wasPoor <;> cases poor <;> cases sessionUp <;> rfl

theorem linkEdge_spec (lq : LinkQuality F) (wasPoor : Bool) (rssi : Int8)
    (h : lq.poorReported = true → wasPoor = true) :
    (linkEdge lq wasPoor rssi).1.filterMap LinkEffect.news =
        edgeNews wasPoor lq.score.poor lq.sessionUp ∧
      Reported (linkEdge lq wasPoor rssi).2 ∧ (linkEdge lq wasPoor rssi).2.score = lq.score := by
  by_cases hsame : lq.score.poor = wasPoor
  · rw [linkEdge, edgeNews, if_pos hsame, if_pos hsame]
    exact ⟨rfl, fun hreported => hsame.trans (h hreported), rfl⟩
  · rw [linkEdge, edgeNews, if_neg hsame, if_neg hsame]
    cases hpoor : lq.score.poor with
    | true =>
      have hnew : lq.poorReported = false := by
        by_contra hreported
        exact hsame (hpoor.trans (h (Bool.not_eq_false _ ▸ hreported)).symm)
      cases hup : lq.sessionUp with
      | true =>
        rw [hnew]
        exact ⟨rfl, fun _ => hpoor, rfl⟩
      | false => exact ⟨rfl, fun _ => hpoor, rfl⟩
    | false => exact ⟨rfl, nofun, rfl⟩

variable [FloatArith F]

/-- **Tick**: it tells the change of state, with the alert where the poor state is entered in a
    session. -/
theorem tick_news (lq : LinkQuality F) (r : LinkReadings) (h : Reported lq) :
    (linkQualityTick lq r).1.filterMap LinkEffect.news =
        edgeNews lq.score.poor (linkQualityTick lq r).2.score.poor lq.sessionUp ∧
      Reported (linkQualityTick lq r).2 := by
  have hsample : ∀ (a : LinkQuality F) rssi,
      (netSample a r rssi).1.filterMap LinkEffect.news = [] ∧
        (netSample a r rssi).2.score = a.score ∧
        (netSample a r rssi).2.poorReported = a.poorReported := by
    intro a rssi
    rw [netSample]
    split_ifs <;> exact ⟨rfl, rfl, rfl⟩
  have hdegrade : ∀ a : LinkQuality F,
      (degrade a r.now).poorReported = a.poorReported ∧
        (degrade a r.now).sessionUp = a.sessionUp := by
    intro a
    rw [degrade]
    split_ifs <;> exact ⟨rfl, rfl⟩
  obtain ⟨a, was, rssi, m, hreported, hup, hwas, hm, htick⟩ : ∃ a was rssi m,
      a.poorReported = lq.poorReported ∧ a.sessionUp = lq.sessionUp ∧ was = lq.score.poor ∧
        LinkEffect.news m = none ∧
        linkQualityTick lq r =
          (m :: (linkEdge a was rssi).1 ++ (netSample (linkEdge a was rssi).2 r rssi).1,
            (netSample (linkEdge a was rssi).2 r rssi).2) := by
    refine ⟨degrade _ r.now, _, _, .mirror .., ?_, ?_, ?_, rfl, rfl⟩
    · rw [(hdegrade _).1]
      split_ifs <;> rfl
    · rw [(hdegrade _).2]
      split_ifs <;> rfl
    · split_ifs <;> rfl
  subst hwas
  obtain ⟨hnews, hkept, hscore⟩ := linkEdge_spec a lq.score.poor rssi fun ha => h (hreported ▸ ha)
  obtain ⟨hnone, hscore', hreported'⟩ := hsample (linkEdge a lq.score.poor rssi).2 rssi
  rw [htick]
  constructor
  · rw [List.cons_append, List.filterMap_cons_none hm, List.filterMap_append, hnews, hnone,
      List.append_nil, hscore', hscore, hup]
  · intro hset
    rw [hscore']
    exact hkept (hreported' ▸ hset)

/-- The state that a call tells. -/
def toldState (lq : LinkQuality F) (c : LinkCall) (_ : LinkQuality F) : Option Bool :=
  match c with
  | .tick r => ((linkQualityTick lq r).1.filterMap LinkEffect.news).findSome? LinkNews.state?
  | .session _ _ | .testPoor _ _ => none

/-- The states that the calls tell, in order. -/
def toldStates (F : Type*) [FloatArith F] (calls : List LinkCall) : List Bool :=
  Machine.collect linkCall toldState (linkQualityInit : LinkQuality F) calls

theorem reported_run (calls : List LinkCall) : Reported (linkQualityRun F calls) := by
  refine Machine.run_invariant linkCall (fun lq c h => ?_) nofun calls
  cases c with
  | tick r => exact (tick_news lq r h).2
  | session ready now =>
    cases ready with
    | true => exact h
    | false => exact h
  | testPoor now seconds => exact h

/-- A call tells the state where it changes it. -/
theorem toldState_eq (lq : LinkQuality F) (h : Reported lq) (c : LinkCall) :
    toldState lq c (linkCall lq c) =
      if (linkCall lq c).score.poor = lq.score.poor then none
      else some (linkCall lq c).score.poor := by
  cases c with
  | tick r => rw [toldState, (tick_news lq r h).1, findSome_edgeNews, linkCall]
  | session ready now =>
    cases ready with
    | true => exact (if_pos rfl).symm
    | false => exact (if_pos rfl).symm
  | testPoor now seconds => exact (if_pos rfl).symm

/-- **In step**: who follows the events knows the state, and each event tells another state than
    the one before. -/
theorem toldStates_spec (calls : List LinkCall) :
    (false :: toldStates F calls).getLast? = some (linkQualityRun F calls).score.poor ∧
      List.IsChain (· ≠ ·) (false :: toldStates F calls) := by
  induction calls using List.reverseRecOn with
  | nil => exact ⟨rfl, .singleton false⟩
  | append_singleton calls c ih =>
    obtain ⟨hlast, hchain⟩ := ih
    have htold : toldStates F (calls ++ [c]) = toldStates F calls ++
        (toldState (linkQualityRun F calls) c (linkCall (linkQualityRun F calls) c)).toList :=
      Machine.collect_concat ..
    have hrun : linkQualityRun F (calls ++ [c]) = linkCall (linkQualityRun F calls) c :=
      Machine.run_concat ..
    rw [htold, hrun, toldState_eq _ (reported_run calls)]
    split_ifs with hsame
    · rw [Option.toList_none, List.append_nil, hlast, hsame]
      exact ⟨rfl, hchain⟩
    · rw [Option.toList_some, ← List.cons_append, List.getLast?_concat]
      refine ⟨rfl, List.isChain_append.mpr ⟨hchain, .singleton _, fun a ha b hb => ?_⟩⟩
      rw [hlast] at ha
      cases ha
      cases hb
      exact Ne.symm hsame

end News

end Fountainer.Network
