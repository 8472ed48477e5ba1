import Fountainer.Protocol.SessionLock

/-!
# Where an update comes from

Over every run of the client: an update task works on an offer that the session has verified when
it came, and what a task activates is what its check has read, unless another task has written to
the slot in the meantime.
-/

namespace Fountainer.Protocol

open Datapoints (Json)
open Network (Attested OtaInv OtaJob otaJob otaStart)

variable {σ : Type*} {E : ClientConfig σ} {s s' : Client σ × ClientHistory}

-- ════════════════════════════════════════════════════════════════════════
-- The offers of a handler
-- ════════════════════════════════════════════════════════════════════════

section Offers

variable {P : Primitives} {A : FpApp σ} {cfg : FpConfig} {now : Float} {w : FpWorld σ} {m : Json}

theorem emit_offers (w : FpWorld σ) (a : SessionAct) :
    offersOf (w.emit a).out = offersOf w.out ++ offersOf [a] := offersOf_append _ _

theorem emit_call_offers (w : FpWorld σ) {cb : Callback}
    (hplain : (HandlerAct.act (.call cb)).Plain) :
    offersOf (w.emit (.call cb)).out = offersOf w.out := by
  rw [emit_offers]
  cases cb with
  | onOta m => exact hplain.elim
  | _ => simp [offersOf]

theorem handleLogRead_offers (prevBoot : Bool) :
    offersOf (handleLogRead P A cfg now w m prevBoot).out = offersOf w.out := by
  unfold handleLogRead
  dsimp only
  split_ifs
  · rfl
  · cases A.fillLogBatch with
    | none => exact sendMsg_out _ _ _ _ _ _ _
    | some f => exact (sendMsg_out _ _ _ _ _ _ _).trans (emit_call_offers _ trivial)

theorem handleHistoryRead_offers :
    offersOf (handleHistoryRead P A cfg now w m).out = offersOf w.out := by
  unfold handleHistoryRead
  dsimp only
  split_ifs
  · rfl
  · cases A.fillHistoryBatch with
    | none => exact sendMsg_out _ _ _ _ _ _ _
    | some f => exact (sendMsg_out _ _ _ _ _ _ _).trans (emit_call_offers _ trivial)

theorem handleLogAckPrev_offers :
    offersOf (handleLogAckPrev P A cfg now w m).out = offersOf w.out := by
  unfold handleLogAckPrev
  dsimp only
  split_ifs
  · rfl
  · cases A.onLogAckPrev with
    | none => exact sendMsg_out _ _ _ _ _ _ _
    | some f => exact (sendMsg_out _ _ _ _ _ _ _).trans (emit_call_offers _ trivial)

theorem handleCommand_offers :
    offersOf (handleCommand P A cfg now w m).out = offersOf w.out := by
  unfold handleCommand
  dsimp only
  rw [sendMsg_out]
  split_ifs
  · cases A.onCommand with
    | none => rfl
    | some f => exact emit_call_offers _ trivial
  · rfl

theorem handleDpWrite_offers :
    offersOf (handleDpWrite P A cfg now w m).out = offersOf w.out := by
  unfold handleDpWrite
  dsimp only
  rw [sendMsg_out]
  split_ifs
  · cases A.onDpWrite with
    | none => rfl
    | some f => exact emit_call_offers _ trivial
  · rfl

theorem handleDpRead_offers : offersOf (handleDpRead A cfg now w m).out = offersOf w.out := by
  unfold handleDpRead dpReportSendNames
  dsimp only
  rw [sendMsg_out]
  cases A.fillSnapshot with
  | none => rfl
  | some f => exact emit_call_offers _ trivial

theorem handleOtaNone_offers : offersOf (handleOtaNone A w).out = offersOf w.out := by
  unfold handleOtaNone
  cases A.onReady with
  | none => rfl
  | some f => exact emit_call_offers _ trivial

theorem handleHelloAck_offers : offersOf (handleHelloAck P cfg now w m).out = offersOf w.out := by
  unfold handleHelloAck
  split
  · split
    · simp [otaCheckSend, emit_offers]
    · rfl
  · rfl

/-- An offer that a message adds is the message itself, and the session accepts it. -/
theorem dispatch_offers {m' : Json} (h : m' ∈ offersOf (dispatch P A cfg now w m).out) :
    m' ∈ offersOf w.out ∨ m' = m ∧ Accepts P cfg w.session m := by
  unfold dispatch at h
  split at h
  · rw [handleHelloAck_offers] at h
    exact .inl h
  · rw [handleOtaNone_offers] at h
    exact .inl h
  · rw [handleDpRead_offers] at h
    exact .inl h
  · split_ifs at h
    · rw [handleCommand_offers] at h
      exact .inl h
    · exact .inl h
  · split_ifs at h
    · rw [handleDpWrite_offers] at h
      exact .inl h
    · exact .inl h
  · split_ifs at h
    · rw [handleLogRead_offers] at h
      exact .inl h
    · exact .inl h
  · split_ifs at h
    · rw [handleLogRead_offers] at h
      exact .inl h
    · exact .inl h
  · split_ifs at h
    · rw [handleLogAckPrev_offers] at h
      exact .inl h
    · exact .inl h
  · split_ifs at h
    · rw [handleHistoryRead_offers] at h
      exact .inl h
    · exact .inl h
  · next htype =>
    unfold handleOtaAvailable at h
    dsimp only at h
    split at h
    · next f hpassed _ =>
      rw [emit_offers, List.mem_append] at h
      refine h.imp_right fun h => ⟨List.mem_singleton.mp h, ?_, hpassed⟩
      simp [FpSession.checks, htype]
    · exact .inl h
  · exact .inl h
  · exact .inl h

end Offers

/-- What `on_ws` hands to `ota_start` has been accepted by the session. -/
theorem onWs_offers {x : StepAnswers} {w : FpWorld σ} {ev : FpWsEvent} {m : Json}
    (hout : w.out = [])
    (h : m ∈ offersOf (onWs E x w ev).out) : Accepts E.P E.cfg w.session m := by
  cases ev with
  | connected =>
    rw [onWs, fpSessionHelloSend, sendMsg_out] at h
    simp [hout] at h
  | disconnected => simp [onWs, hout] at h
  | data json =>
    rw [onWs, fpSessionMessageHandle] at h
    cases hparse : E.P.parse json with
    | none => simp [hparse, hout] at h
    | some m' =>
      rw [hparse] at h
      rcases dispatch_offers h with hold | ⟨rfl, haccepts⟩
      · simp [hout] at hold
      · exact haccepts

-- ════════════════════════════════════════════════════════════════════════
-- The jobs
-- ════════════════════════════════════════════════════════════════════════

/-- The job is that of a verified offer. -/
def Offered (h : ClientHistory) (job : OtaJob) : Prop :=
  ∃ p ∈ h.offers, ∃ url, strOf p.2 "url" = some url ∧ job = otaJob p.2 url

/-- Where the updates come from. -/
structure Updating (E : ClientConfig σ) (s : Client σ × ClientHistory) : Prop where
  offers : ∀ p ∈ s.2.offers, Accepts E.P E.cfg p.1 p.2
  todo : ∀ todo m, s.1.ws = .handling todo → .act (.call (.onOta m)) ∈ todo →
    ∃ session, (session, m) ∈ s.2.offers
  jobs : ∃ created, OtaInv E.P E.slotSize created s.1.ota ∧ ∀ job ∈ created, Offered s.2 job

theorem otaStart_started {x : Network.OtaStartAnswers} {m : Json} {job : OtaJob}
    (h : otaStart x m = .started job) : ∃ url, strOf m "url" = some url ∧ job = otaJob m url := by
  unfold otaStart at h
  cases hurl : strOf m "url" with
  | none =>
    rw [hurl] at h
    simp only at h
    split_ifs at h
  | some url =>
    rw [hurl] at h
    simp only at h
    split_ifs at h
    cases h
    exact ⟨url, rfl, rfl⟩

theorem Offered.mono {h h' : ClientHistory} {job : OtaJob} (hoffered : Offered h job)
    (hsub : h.offers ⊆ h'.offers) : Offered h' job := by
  obtain ⟨p, hp, hjob⟩ := hoffered
  exact ⟨p, hsub hp, hjob⟩

theorem updating_boot (E : ClientConfig σ) (app : σ) (slot : Bytes.Mem) :
    Updating E (clientBoot app slot) :=
  ⟨by simp [clientBoot], by simp [clientBoot], [], Network.otaInv_boot slot, by simp⟩

/-- An action of a handler starts an update for a verified offer only. -/
theorem Updating.acts {c : Client σ} {h : ClientHistory} {todo todo' : List HandlerAct}
    {a : HandlerAct} (hs : Updating E s)
    (htodo : ∀ m, .act (.call (.onOta m)) ∈ a :: todo → ∃ session, (session, m) ∈ s.2.offers)
    (hact : Acts E s.1 s.2 todo a c h todo') :
    (∃ created, OtaInv E.P E.slotSize created c.ota ∧ ∀ job ∈ created, Offered h job) ∧
      ∀ m, .act (.call (.onOta m)) ∈ todo' → ∃ session, (session, m) ∈ h.offers := by
  obtain ⟨created, hinv, hjobs⟩ := hs.jobs
  have hrest (m : Json) (hm : HandlerAct.act (.call (.onOta m)) ∈ todo) :=
    htodo m (List.mem_cons_of_mem _ hm)
  cases hact with
  | sent => exact ⟨⟨created, hinv, hjobs⟩, hrest⟩
  | called => exact ⟨⟨created, hinv, hjobs⟩, hrest⟩
  | @started m x job hstart =>
    obtain ⟨session, hoffer⟩ := htodo m List.mem_cons_self
    obtain ⟨url, hurl, hjob⟩ := otaStart_started hstart
    refine ⟨⟨created ++ [job], hinv.create job, fun job' hjob' => ?_⟩, hrest⟩
    rcases List.mem_append.mp hjob' with hold | hnew
    · exact hjobs job' hold
    · rw [List.mem_singleton.mp hnew]
      exact ⟨_, hoffer, url, hurl, hjob⟩
  | refused hframe =>
    refine ⟨⟨created, hinv, hjobs⟩, fun m hm => ?_⟩
    rcases List.mem_append.mp hm with hm | hm
    · exact (hframe _ hm).elim
    · exact hrest m ((List.mem_cons.mp hm).resolve_left nofun)

theorem mem_offersOf {m : Json} {acts : List SessionAct}
    (h : HandlerAct.act (.call (.onOta m)) ∈ acts.map HandlerAct.act) : m ∈ offersOf acts := by
  obtain ⟨a, ha, heq⟩ := List.mem_map.mp h
  cases heq
  exact List.mem_filterMap.mpr ⟨_, ha, rfl⟩

theorem Updating.moves (hlocked : Locked s) (hmove : Moves E s s') (h : Updating E s) :
    Updating E s' := by
  cases hmove with
  | event ev hpc => exact ⟨h.offers, by simp, h.jobs⟩
  | wsEnter ev x hpc hlock =>
    obtain ⟨created, hinv, hjobs⟩ := h.jobs
    refine ⟨fun p hp => ?_, ?_, created, hinv, fun job hjob => ?_⟩
    · rcases List.mem_append.mp hp with hp | hp
      · exact h.offers p hp
      · obtain ⟨m, hm, rfl⟩ := List.mem_map.mp hp
        exact onWs_offers hlocked.out hm
    · rintro todo m ⟨⟩ hm
      exact ⟨_, List.mem_append_right _ (List.mem_map_of_mem (mem_offersOf hm))⟩
    · exact (hjobs job hjob).mono (List.subset_append_left _ _)
  | wsAct hpc hact =>
    obtain ⟨hjobs, htodo⟩ := h.acts (fun m => h.todo _ m hpc) hact
    refine ⟨?_, ?_, hjobs⟩
    · rw [hact.frame.history]
      exact h.offers
    · rintro todo m ⟨⟩
      exact htodo m
  | wsGive hpc => exact ⟨h.offers, by simp, h.jobs⟩
  | taskAct hpc hact =>
    have hplain := hlocked.taskPlain _ hpc
    obtain ⟨hjobs, -⟩ := h.acts (fun m hm => (hplain _ hm).elim) hact
    obtain ⟨rfl, -⟩ := hact.plain (hplain _ List.mem_cons_self)
    refine ⟨h.offers, fun todo m hws => h.todo todo m ?_, hjobs⟩
    rwa [← hact.frame.ws]
  | otaTask i x =>
    obtain ⟨created, hinv, hjobs⟩ := h.jobs
    exact ⟨h.offers, h.todo, created, hinv.step i x, hjobs⟩
  | otaNote i hlock =>
    obtain ⟨created, hinv, hjobs⟩ := h.jobs
    exact ⟨h.offers, h.todo, created, hinv.noted i, hjobs⟩
  | _ => exact ⟨h.offers, h.todo, h.jobs⟩

/-- **Only verified offers are installed**: in every run of the client, behind every activation
    there is an offer whose MAC and sequence number the session of that moment has accepted, and the
    check has read as many bytes as the offer says, which have the hash of the offer; unless another
    update task has written to the slot since the check began, the image begins with these bytes. -/
theorem updates_verified (E : ClientConfig σ) (app : σ) (slot : Bytes.Mem)
    (ops : List (ClientOp σ)) :
    ∀ a ∈ (clientRun E app slot ops).1.ota.activated, ∃ session m url,
      (session, m) ∈ (clientRun E app slot ops).2.offers ∧ Accepts E.P E.cfg session m ∧
      strOf m "url" = some url ∧ a.job = otaJob m url ∧
      Attested E.P E.slotSize a.job a.hashed ∧
      (a.disturbed = false → a.hashed = Bytes.read a.image 0 a.hashed.length) := by
  intro a ha
  have h : Updating E (clientRun E app slot ops) :=
    (client_invariant (fun _ _ hlocked hmove h => h.moves hlocked hmove) (locked_boot app slot)
      (updating_boot E app slot) ops).2
  obtain ⟨created, hinv, hjobs⟩ := h.jobs
  obtain ⟨hmem, hattested, himage⟩ := hinv.activated a ha
  obtain ⟨⟨session, m⟩, hoffer, url, hurl, hjob⟩ := hjobs _ hmem
  exact ⟨session, m, url, hoffer, h.offers _ hoffer, hurl, hjob, hattested, himage⟩

/-- The hash of the image with the only byte 7. -/
def imageSha256 : String := "ca358758f6d27e6cf45272937977a748fd88391db679ceda7dc7bf1f005ee879"

/-- An offer of this image, signed for the connection with the nonce of 16 zero bytes. -/
def imageOfferText : List UInt8 :=
  text "\x7b\"v\":2,\"type\":\"ota_available\",\"url\":\"u\",\"sha256\":\"" ++ text imageSha256 ++
  text "\",\"size\":1,\"auth\":\x7b\"kid\":\"k1\",\"seq\":1," ++
  text "\"mac\":\"CcgTHWmQ3r6GRrW/Q73tSQ==\"\x7d\x7d"

/-- The primitives on the texts of a connection with this offer. The hashes of the image and of the
    offer's body, and its MAC under the key `key`, are those of SHA-256. -/
def imagePrimitives : Primitives where
  parse json :=
    if json = imageOfferText then
      some (.object [("v", .number 2), ("type", .string offerType),
        ("url", .string (literal "u")), ("sha256", .string (literal imageSha256)),
        ("size", .number 1),
        ("auth", .object [("kid", .string exampleDevice.authKid), ("seq", .number 1),
          ("mac", .string (literal "CcgTHWmQ3r6GRrW/Q73tSQ=="))])])
    else examplePrimitives.parse json
  sha256 data :=
    if data = [7] then
      #v[202, 53, 135, 88, 246, 210, 126, 108, 244, 82, 114, 147, 121, 119, 167, 72, 253, 136, 57,
        29, 182, 121, 206, 218, 125, 199, 191, 31, 0, 94, 232, 121]
    else if data = text "\x7b\"sha256\":\"" ++ text imageSha256 ++
        text "\",\"size\":1,\"url\":\"u\"\x7d" then
      #v[135, 66, 112, 88, 89, 124, 90, 190, 112, 187, 51, 247, 60, 56, 220, 179, 149, 165, 185, 19,
        120, 79, 107, 32, 194, 102, 201, 168, 43, 59, 79, 14]
    else Vector.replicate 32 0
  hmac128 _ _ := [9, 200, 19, 29, 105, 144, 222, 190, 134, 70, 181, 191, 67, 189, 237, 73]
  formatG _ _ := []
  strtod _ := 0

def imageClient : ClientConfig ℕ := { exampleClient with P := imagePrimitives, slotSize := 1 }

/-- Every call of an update succeeds; those that write write the image. -/
def imageAnswers : Network.OtaAnswers where
  err := 0
  writes := [(0, [7])]
  handle := true
  partition := true
  memory := true
  complete := true
  read := true

/-- A greeting, the offer, and the steps of its task. -/
def imageOps : List (ClientOp ℕ) :=
  [.event .connected, .ws exampleAnswers, .ws exampleAnswers, .ws exampleAnswers,
    .event (.data helloAckText), .ws exampleAnswers, .ws exampleAnswers, .ws exampleAnswers,
    .event (.data imageOfferText), .ws exampleAnswers, .ws exampleAnswers] ++
  List.replicate 7 (.otaTask 0 imageAnswers)

/-- The image is installed, and has the hash of its offer. -/
theorem updates_verified_image :
    ∃ a ∈ (clientRun imageClient 0 (fun _ => 0) imageOps).1.ota.activated,
      Attested imagePrimitives 1 a.job a.hashed ∧
        a.hashed = Bytes.read a.image 0 a.hashed.length := by
  have hone : (clientRun imageClient 0 (fun _ => 0) imageOps).1.ota.activated.length = 1 := by
    decide +kernel
  have halone : (clientRun imageClient 0 (fun _ => 0) imageOps).1.ota.activated.all
      (!·.disturbed) = true := by
    decide +kernel
  obtain ⟨a, ha⟩ := List.length_eq_one_iff.mp hone
  have hmem : a ∈ (clientRun imageClient 0 (fun _ => 0) imageOps).1.ota.activated := by
    rw [ha]
    exact List.mem_singleton_self a
  obtain ⟨_, _, _, -, -, -, -, hattested, himage⟩ :=
    updates_verified imageClient 0 (fun _ => 0) imageOps a hmem
  exact ⟨a, hmem, hattested, himage (by simpa using List.all_eq_true.mp halone a hmem)⟩

end Fountainer.Protocol
