import Dimpl.Dtls13.FlightCapacity

/-!
# The records of the flights of a server

A HelloRetryRequest is short and opens a flight, so it always finds room. The messages
behind the ServerHello share one flight and may not.
-/

namespace Dimpl.Dtls13

open Nom Program Packing

/-- A short message finds room in a flight without records. -/
theorem Engine.fits_short {e : Engine} {length : Nat} (empty : e.flightSavedRecords = [])
    (mtu : 64 ≤ e.config.mtu) (short : length ≤ 350) : e.Fits .serverHello length := by
  have overhead : e.overhead .serverHello = 25 := rfl
  have capacity : 25 < e.outbox.mtu := by
    show 25 < e.config.mtu
    omega
  have few : Outbox.records 25 (flightCapacity + 1) e.outbox length ≤
      length / (e.outbox.mtu - 25) + 3 := Outbox.records_le capacity
  have datagram : 39 ≤ e.outbox.mtu - 25 := by
    show 39 ≤ e.config.mtu - 25
    omega
  have pieces : length / (e.outbox.mtu - 25) ≤ 350 / 39 :=
    (Nat.div_le_div_right short).trans (Nat.div_le_div_left datagram (by decide))
  unfold Engine.Fits flightCapacity
  rw [empty, overhead]
  simp only [List.length_nil, Nat.zero_add]
  unfold flightCapacity at few
  omega

namespace Server

/-- What a server writes as its ServerHello, if it gets that far. -/
def writeServerHello (s : Server) : Option (EngineM Bytes) := do
  let random ← s.endpoint.random
  let (share, extensionData) ← storedShare s.extensionData
  return createServerHello random (s.clientSessionId.getD []) share extensionData

/-- The message that a handler sends finds room. -/
def FitsIn (s : Server) : State → Prop
  | .sendServerHello =>
    ∀ write ∈ s.writeServerHello, s.engine.flightBegin.Takes .serverHello write
  | .sendEncryptedExtensions => s.engine.Takes .encryptedExtensions
    (pure (createEncryptedExtensions s.endpoint.negotiatedSrtpProfile))
  | .sendCertificateRequest => s.engine.Takes .certificateRequest (pure createCertificateRequest)
  | .sendCertificate => s.engine.Takes .certificate (createCertificate [])
  | .sendCertificateVerify =>
    s.engine.Takes .certificateVerify (createCertificateVerify serverLabel)
  | .sendFinished => ∀ secret ∈ s.endpoint.serverHsTrafficSecret,
    s.engine.Takes .finished (computeVerifyData secret)
  | _ => True

/-- Every handler that `make_progress` runs finds room for what it sends. -/
def RoundsFit : (fuel : Nat) → Server → Prop
  | 0, _ => True
  | fuel + 1, s => s.FitsIn s.state ∧
    Post s.state.makeProgress s
      (fun next s' => next ≠ s.state → RoundsFit fuel { s' with state := next }) (fun _ _ => True)

/-- Every handler that a call runs finds room for what it sends. -/
def CallFits (s : Server) : Call → Prop
  | .handlePacket packet =>
    Post (do retainHello packet; withEngine (receivePacket packet)) s (fun _ s' => s'.RoundsFit 20)
      (fun _ _ => True)
  | .handleTimeout now =>
    Post (withEndpoint (Endpoint.handleTimeout now)) s (fun _ s' => s'.RoundsFit 20) (fun _ _ => True)
  | _ => True

/-- The engine of a server is ready. -/
def Ready (tagLen : Nat) (s : Server) : Prop := s.engine.Ready tagLen

/-- A ready server that has a session of a ClientHello, or none. -/
def Greeted (tagLen : Nat) (s : Server) : Prop :=
  s.Ready tagLen ∧ (s.clientSessionId.getD []).length ≤ 32

/-- A server in the handler that installs the application keys has four receive epochs. -/
def Crowded (s : Server) : Prop := s.state = .sendFinished ∧ 4 ≤ s.engine.appRecvKeys.length

section Handlers

variable {tagLen : Nat} {s : Server}

theorem withEndpoint_ready {α : Type} {program : EndpointM α}
    (secures : Secures (Endpoint.Ready tagLen) Fault.WithinCapacity program) :
    Secures (Ready tagLen) Fault.WithinCapacity (withEndpoint program) :=
  secures_zoom secures (fun _ ready => ready) fun _ _ _ kept => kept

theorem withEngine_ready {α : Type} {program : EngineM α}
    (secures : Secures (Engine.Ready tagLen) Fault.WithinCapacity program) :
    Secures (Ready tagLen) Fault.WithinCapacity (withEngine program) :=
  withEndpoint_ready (Endpoint.withEngine_ready secures)

/-- The session is kept outside the engine. -/
theorem withEngine_greeted {α : Type} {program : EngineM α}
    (secures : Secures (Engine.Ready tagLen) Fault.WithinCapacity program) :
    Secures (Greeted tagLen) Fault.WithinCapacity (withEngine program) := by
  intro s greeted
  rw [withEngine_post]
  exact (secures s.engine greeted.1).mono (fun _ _ ready => ⟨ready, greeted.2⟩) fun _ _ within => within

/-- A change of the engine that keeps the lengths. -/
theorem change_ready {f : Engine → Engine} (sizes : ∀ e, Sizes tagLen e (f e)) :
    Secures (Ready tagLen) Fault.WithinCapacity (withEngine (modify f)) :=
  withEngine_ready (Dtls13.modify_ready sizes)

/-- A change of other fields. -/
theorem modify_ready {f : Server → Server} (same : ∀ s, (f s).engine = s.engine) :
    Secures (Ready tagLen) Fault.WithinCapacity (modify f : ServerM PUnit) := by
  refine secures_modify fun s ready => ?_
  unfold Ready
  rw [same]
  exact ready

theorem advance_ready {next : State} :
    Secures (Ready tagLen) Fault.WithinCapacity (advance next) :=
  secures_bind (change_ready fun _ => .of_same rfl rfl rfl) fun _ => secures_pure

theorem onMessage_ready {wanted : MessageType} {stay : State} {handle : Body → Bytes → ServerM State}
    (handles : ∀ body buffer, Secures (Ready tagLen) Fault.WithinCapacity (handle body buffer)) :
    Secures (Ready tagLen) Fault.WithinCapacity (onMessage (nextHandshake wanted) stay handle) := by
  refine secures_bind (withEngine_ready nextHandshakeWithOptions_ready) fun found => ?_
  cases found with
  | none => exact secures_pure
  | some message => exact handles _ _

/-- A message that finds room. -/
theorem createHandshake_ready {type : MessageType} {writeBody : EngineM Bytes} (ready : s.Ready tagLen)
    (reads : ReadOnly writeBody) (takes : s.engine.Takes type writeBody)
    (within : Post writeBody s.engine (fun _ _ => True) fun fault _ => fault.WithinCapacity) :
    Post (withEngine (createHandshake type writeBody)) s (fun _ s' => s'.Ready tagLen)
      (fun fault _ => fault.WithinCapacity) := by
  rw [withEngine_post]
  exact Dtls13.createHandshake_ready ready reads takes within

theorem flightBegin_ready (ready : s.Ready tagLen) : s.engine.flightBegin.Ready tagLen := by
  have sizes : Sizes tagLen s.engine s.engine.flightBegin := .of_same rfl rfl rfl
  exact .of_sizes sizes ready

/-- A cookie has 32 bytes. -/
theorem computeCookie_post {random : Random} (ready : s.Ready tagLen) :
    Post (computeCookie random) s (fun cookie s' => s' = s ∧ cookie.length = 32)
      (fun fault _ => fault.WithinCapacity) := by
  unfold computeCookie
  rw [post_bind, post_get]
  split
  · rename_i cookie computed
    exact ⟨rfl, ready.sized.provider.cookie _ _ _ computed⟩
  · trivial

/-- A HelloRetryRequest finds room. -/
theorem sendHelloRetryRequest_ready {suite : Dtls13CipherSuite} {cookie : Bytes}
    {group : Option NamedGroup} (greeted : s.Greeted tagLen) (isCookie : cookie.length = 32) :
    Post (sendHelloRetryRequest suite cookie group) s (fun _ s' => s'.Ready tagLen)
      (fun fault _ => fault.WithinCapacity) := by
  unfold sendHelloRetryRequest
  rw [post_bind, post_get, post_bind, withEngine_post, post_modify]
  refine createHandshake_ready (flightBegin_ready greeted.1) along_pure ?_ trivial
  intro body isBody
  have isRequest : some (helloRetryRequest (s.clientSessionId.getD []) suite cookie group) =
      some body := isBody
  cases isRequest
  have short := @Server.length_helloRetryRequest (s.clientSessionId.getD []) cookie suite group
  have session := greeted.2
  exact Engine.fits_short rfl (flightBegin_ready greeted.1).mtu (by omega)

theorem retryHello_ready {suite : Dtls13CipherSuite} {random : Random} {group : Option NamedGroup}
    (greeted : s.Greeted tagLen) :
    Post (retryHello suite random group) s (fun _ s' => s'.Ready tagLen)
      (fun fault _ => fault.WithinCapacity) := by
  unfold retryHello
  rw [post_bind]
  have chosen : Secures (Greeted tagLen) Fault.WithinCapacity
      (withEngine (modify (Engine.setCipherSuite suite))) :=
    withEngine_greeted (Dtls13.modify_ready fun _ => .of_same rfl rfl rfl)
  refine (chosen s greeted).mono (fun _ s₁ greeted₁ => ?_) fun _ _ within => within
  rw [post_bind, post_get, post_bind]
  have replaced : Secures (Greeted tagLen) Fault.WithinCapacity
      (withEngine (replaceTranscriptWithMessageHash s₁.engine.transcript.length)) :=
    withEngine_greeted (ready_of_sizes sizes_conducts.replaceTranscript
      replaceTranscriptWithMessageHash_within)
  refine (replaced s₁ greeted₁).mono (fun _ s₂ greeted₂ => ?_) fun _ _ within => within
  rw [post_bind]
  refine (computeCookie_post greeted₂.1).mono ?_ fun _ _ within => within
  rintro cookie _ ⟨rfl, isCookie⟩
  rw [post_bind]
  refine (sendHelloRetryRequest_ready greeted₂ isCookie).mono (fun _ s₃ ready₃ => ?_)
    fun _ _ within => within
  have rest : Secures (Ready tagLen) Fault.WithinCapacity (do
      withEngine (modify Engine.advancePeerHandshakeSeq)
      withEngine (modify Engine.resetForHelloRetry)
      withEndpoint (modify fun (p : Endpoint) => { p with helloRetry := true })
      return State.awaitClientHello) := by
    refine secures_bind (change_ready fun _ => .of_same rfl rfl rfl) fun _ => ?_
    refine secures_bind (change_ready fun _ => .of_same rfl rfl rfl) fun _ => ?_
    refine secures_bind (withEndpoint_ready ?_) fun _ => secures_pure
    exact Endpoint.modify_ready fun _ => rfl
  exact rest s₃ ready₃

theorem acceptShare_ready {suite : Dtls13CipherSuite} {share : KeyShareEntry}
    {profiles : Option (List SrtpProfile)} {buffer : Bytes} :
    Secures (Ready tagLen) Fault.WithinCapacity (acceptShare suite share profiles buffer) := by
  refine secures_bind secures_get fun s => secures_bind (secures_orThrow trivial) fun kx => ?_
  refine secures_bind (withEndpoint_ready Endpoint.startExchange_ready) fun exchange => ?_
  refine secures_bind (modify_ready fun _ => rfl) fun _ => ?_
  refine secures_bind (secures_liftCrypto within_crypto) fun sharedSecret => ?_
  refine secures_bind (modify_ready fun _ => rfl) fun _ => ?_
  refine secures_bind (change_ready fun _ => .of_same rfl rfl rfl) fun _ => ?_
  exact secures_bind (modify_ready fun _ => rfl) fun _ => advance_ready

theorem selectShare_ready {suite : Dtls13CipherSuite} {random : Random} {groups : List NamedGroup}
    {found : HelloExtensions} {buffer : Bytes} (greeted : s.Greeted tagLen) :
    Post (selectShare suite random groups found buffer) s (fun _ s' => s'.Ready tagLen)
      (fun fault _ => fault.WithinCapacity) := by
  unfold selectShare
  split
  · exact acceptShare_ready s greeted.1
  · split
    · exact trivial
    · rw [post_bind, post_get, post_ite]
      exact ⟨fun _ => trivial, fun _ => retryHello_ready greeted⟩

theorem checkCookie_post {random : Random} {cookie : Option Bytes} (ready : s.Ready tagLen) :
    Post (checkCookie random cookie) s (fun _ s' => s' = s) (fun fault _ => fault.WithinCapacity) := by
  unfold checkCookie
  rw [post_bind, post_get, post_ite]
  refine ⟨fun _ => ?_, fun _ => rfl⟩
  rw [post_bind]
  refine (computeCookie_post ready).mono ?_ fun _ _ within => within
  rintro expected _ ⟨rfl, _⟩
  cases cookie with
  | some cookie =>
      rw [post_ite]
      exact ⟨fun _ => trivial, fun _ => rfl⟩
  | none => rfl

theorem acceptClientHello_ready {lengthBefore : Nat} {hello : ClientHello} {found : HelloExtensions}
    {buffer : Bytes} (session : hello.legacySessionId.length ≤ 32) (ready : s.Ready tagLen) :
    Post (acceptClientHello lengthBefore hello found buffer) s (fun _ s' => s'.Ready tagLen)
      (fun fault _ => fault.WithinCapacity) := by
  unfold acceptClientHello
  rw [post_bind, post_get, post_bind, post_orThrow]
  refine ⟨fun suite _ => ?_, fun _ => trivial⟩
  rw [post_bind, post_modify, post_bind, withEngine_post]
  unfold supportedGroups
  dsimp only
  rw [if_pos (by simpa using ready.groups)]
  have greeted : Greeted tagLen { s with clientSessionId := some hello.legacySessionId } :=
    ⟨ready, session⟩
  rw [post_pure, post_bind]
  refine (checkCookie_post greeted.1).mono ?_ fun _ _ within => within
  rintro accepted _ rfl
  rw [post_ite]
  refine ⟨fun _ => selectShare_ready greeted, fun _ => ?_⟩
  rw [post_bind, post_get, post_ite]
  refine ⟨fun _ => ?_, fun _ => retryHello_ready greeted⟩
  have dropped : Secures (Ready tagLen) Fault.WithinCapacity (do
      withEngine (modify (Engine.truncateTranscript lengthBefore))
      return State.awaitClientHello) :=
    secures_bind (change_ready fun _ => .of_same rfl rfl rfl) fun _ => secures_pure
  exact dropped _ greeted.1

/-- An extension that does not parse is noise. -/
theorem parseExtension_bind_within {α β : Type} {parser : Parser α} {data : Bytes}
    {next : α → Except Fault β} {fault : Fault}
    (failed : (parseExtension parser data >>= next) = .error fault)
    (rest : ∀ value, next value = .error fault → fault.WithinCapacity) : fault.WithinCapacity := by
  unfold parseExtension at failed
  cases outcome : Nom.parse parser data with
  | ok parsed =>
      rw [outcome] at failed
      exact rest _ failed
  | error err =>
      rw [outcome] at failed
      cases failed
      trivial

theorem readExtension_within {buffer : Bytes} {found : HelloExtensions} {ext : Extension}
    {fault : Fault} (failed : readExtension buffer found ext = .error fault) :
    fault.WithinCapacity := by
  unfold readExtension at failed
  dsimp only at failed
  split at failed
  · exact parseExtension_bind_within failed fun _ impossible => by cases impossible
  split at failed
  · exact parseExtension_bind_within failed fun _ impossible => by cases impossible
  split at failed
  · exact parseExtension_bind_within failed fun _ impossible => by cases impossible
  split at failed
  · exact parseExtension_bind_within failed fun _ impossible => by cases impossible
  split at failed
  · refine parseExtension_bind_within failed fun cookie refused => ?_
    split at refused
    · cases refused
      trivial
    · cases refused
  · cases failed

theorem readExtensions_within {buffer : Bytes} {extensions : List Extension} {fault : Fault}
    (failed : readExtensions buffer extensions = .error fault) : fault.WithinCapacity := by
  unfold readExtensions at failed
  generalize ({ versionOk := false, keyShares := none, groups := none, profiles := none,
                cookie := none } : HelloExtensions) = found at failed
  induction extensions generalizing found with
  | nil => cases failed
  | cons ext rest inductionHypothesis =>
      rw [List.foldlM_cons] at failed
      cases isRead : readExtension buffer found ext with
      | ok next =>
          rw [isRead] at failed
          exact inductionHypothesis next failed
      | error reason =>
          rw [isRead] at failed
          cases failed
          exact readExtension_within isRead

theorem handleClientHello_ready {lengthBefore : Nat} {hello : ClientHello} {buffer : Bytes}
    (session : hello.legacySessionId.length ≤ 32) (ready : s.Ready tagLen) :
    Post (handleClientHello lengthBefore hello buffer) s (fun _ s' => s'.Ready tagLen)
      (fun fault _ => fault.WithinCapacity) := by
  unfold handleClientHello
  split
  · exact trivial
  · rw [post_bind]
    cases isRead : readExtensions buffer hello.extensions with
    | error fault => exact readExtensions_within isRead
    | ok found =>
        unfold ofExcept
        rw [post_pure, post_ite]
        refine ⟨fun _ => ?_, fun _ => acceptClientHello_ready session ready⟩
        rw [post_bind, post_get, post_ite]
        exact ⟨fun _ => trivial, fun _ => trivial⟩

/-- A ClientHello of a datagram has a session of at most 32 bytes. -/
theorem awaitClientHello_ready (ready : s.Ready tagLen) :
    Post awaitClientHello s (fun _ s' => s'.Ready tagLen) (fun fault _ => fault.WithinCapacity) := by
  obtain ⟨allowUnknown, isNext⟩ : ∃ allowUnknown,
      (if s.autoMode then nextClientHelloForAutoSense else nextHandshake .clientHello) =
        nextHandshakeWithOptions .clientHello true allowUnknown := by
    cases s.autoMode with
    | true => exact ⟨true, rfl⟩
    | false => exact ⟨false, rfl⟩
  unfold awaitClientHello
  rw [post_bind, post_get]
  dsimp only
  rw [isNext]
  unfold onMessage
  rw [post_bind, withEngine_post]
  refine ((nextHandshakeWithOptions_ready s.engine ready).and nextHandshake_read).mono ?_
    fun _ _ both => both.1
  rintro found e' ⟨kept, ⟨rfl, _⟩ | ⟨handshake, buffer, rfl, read⟩⟩
  · exact kept
  · dsimp only
    split
    · rename_i hello isHello
      rw [isHello] at read
      exact handleClientHello_ready read.sessionId kept
    · exact trivial

theorem createServerHello_within {random : Random} {sessionId extensionData : Bytes}
    {share : KeyShareEntry} :
    Throws Fault.WithinCapacity (createServerHello random sessionId share extensionData) :=
  throws_bind throws_get fun _ => throws_bind (throws_orThrow trivial) fun _ =>
    throws_ite (throws_throw trivial) throws_pure

/-- The ServerHello opens the flight. -/
theorem sendServerHello_ready (ready : s.Ready tagLen) (fits : s.FitsIn .sendServerHello) :
    Post sendServerHello s (fun _ s' => s'.Ready tagLen) (fun fault _ => fault.WithinCapacity) := by
  unfold sendServerHello
  rw [post_bind, post_get, post_bind, post_orThrow]
  refine ⟨fun random isRandom => ?_, fun _ => trivial⟩
  rw [post_bind, post_orThrow]
  refine ⟨fun stored isStored => ?_, fun _ => trivial⟩
  obtain ⟨share, extensionData⟩ := stored
  dsimp only
  rw [post_bind, post_set, post_bind, withEngine_post, post_modify, post_bind]
  have writes : s.writeServerHello =
      some (createServerHello random (s.clientSessionId.getD []) share extensionData) := by
    unfold writeServerHello
    simp [isRandom, isStored]
  rw [withEngine_post]
  refine (Dtls13.createHandshake_ready (flightBegin_ready ready) createServerHello_readOnly
    (fits _ writes) (createServerHello_within _)).mono (fun _ e₁ ready₁ => ?_) fun _ _ within => within
  · have rest : Secures (Ready tagLen) Fault.WithinCapacity (do
        let sharedSecret ← orThrow (.fatal (.invalidState .noSharedSecretForHandshakeKeyDerivation))
          (← get).sharedSecret
        modify fun (s : Server) => { s with sharedSecret := none }
        withEndpoint (Endpoint.installHandshakeSecrets sharedSecret)
        return State.sendEncryptedExtensions) := by
      refine secures_bind secures_get fun s => secures_bind (secures_orThrow trivial) fun secret => ?_
      refine secures_bind (modify_ready fun _ => rfl) fun _ => ?_
      exact secures_bind (withEndpoint_ready Endpoint.installHandshakeSecrets_ready) fun _ => secures_pure
    exact rest _ ready₁

theorem sendEncryptedExtensions_ready (ready : s.Ready tagLen)
    (fits : s.FitsIn .sendEncryptedExtensions) :
    Post sendEncryptedExtensions s (fun _ s' => s'.Ready tagLen)
      (fun fault _ => fault.WithinCapacity) := by
  unfold sendEncryptedExtensions
  rw [post_bind, post_get, post_bind]
  exact (createHandshake_ready ready along_pure fits trivial).mono (fun _ _ kept => kept)
    fun _ _ within => within

theorem sendCertificateRequest_ready (ready : s.Ready tagLen)
    (fits : s.FitsIn .sendCertificateRequest) :
    Post sendCertificateRequest s (fun _ s' => s'.Ready tagLen)
      (fun fault _ => fault.WithinCapacity) := by
  unfold sendCertificateRequest
  rw [post_bind]
  exact (createHandshake_ready ready along_pure fits trivial).mono (fun _ _ kept => kept)
    fun _ _ within => within

theorem sendCertificate_ready (ready : s.Ready tagLen) (fits : s.FitsIn .sendCertificate) :
    Post sendCertificate s (fun _ s' => s'.Ready tagLen) (fun fault _ => fault.WithinCapacity) := by
  unfold sendCertificate
  rw [post_bind]
  exact (createHandshake_ready ready createCertificate_readOnly fits trivial).mono
    (fun _ _ kept => kept) fun _ _ within => within

theorem sendCertificateVerify_ready (ready : s.Ready tagLen) (fits : s.FitsIn .sendCertificateVerify) :
    Post sendCertificateVerify s (fun _ s' => s'.Ready tagLen)
      (fun fault _ => fault.WithinCapacity) := by
  unfold sendCertificateVerify
  rw [post_bind]
  exact (createHandshake_ready ready createCertificateVerify_readOnly fits
    (Client.createCertificateVerify_within _)).mono (fun _ _ kept => kept) fun _ _ within => within

/-- The application keys need a free place for their receive epoch. -/
theorem sendFinished_ready (ready : s.Ready tagLen) (fits : s.FitsIn .sendFinished) :
    Post sendFinished s (fun _ s' => s'.Ready tagLen)
      (fun fault s' => fault.WithinCapacity ∨ 4 ≤ s'.engine.appRecvKeys.length) := by
  unfold sendFinished
  rw [post_bind, post_get, post_bind, post_orThrow]
  refine ⟨fun secret isSecret => ?_, fun _ => .inl trivial⟩
  rw [post_bind]
  refine (createHandshake_ready ready computeVerifyData_readOnly (fits secret isSecret)
    (computeVerifyData_within _)).mono (fun _ s₁ ready₁ => ?_) fun _ _ within => .inl within
  rw [post_bind]
  unfold withEndpoint
  rw [post_zoom]
  refine (Endpoint.installApplicationSecrets_ready ready₁).mono (fun _ p₂ ready₂ => ?_)
    fun _ _ failed => failed
  have rest : Secures (Ready tagLen) Fault.WithinCapacity (do
      withEngine enablePeerEncryption
      return if (← get).endpoint.clientAuthRequested then State.awaitCertificate
        else State.awaitFinished) := by
    refine secures_bind (withEngine_ready (ready_of_sizes enablePeerEncryption_sizes
      enablePeerEncryption_within)) fun _ => ?_
    exact secures_bind secures_get fun _ => secures_pure
  exact (rest { s₁ with endpoint := p₂ } ready₂).mono (fun _ _ kept => kept)
    fun _ _ within => .inl within

theorem awaitCertificate_ready : Secures (Ready tagLen) Fault.WithinCapacity awaitCertificate := by
  have stopped : Secures (Ready tagLen) Fault.WithinCapacity
      (withEngine (modify Engine.flightStopResendTimers)) :=
    change_ready fun _ => .of_same rfl rfl rfl
  refine onMessage_ready fun body buffer => ?_
  split
  · refine secures_ite ?_ ?_
    · refine secures_bind (change_ready fun _ => .of_same rfl rfl rfl) fun _ => ?_
      exact secures_bind stopped fun _ => secures_pure
    · refine secures_bind (withEndpoint_ready Endpoint.takeCertificates_ready) fun _ => ?_
      exact secures_bind stopped fun _ => advance_ready
  · exact secures_throw trivial

theorem awaitCertificateVerify_ready :
    Secures (Ready tagLen) Fault.WithinCapacity awaitCertificateVerify := by
  refine secures_bind secures_get fun s => ?_
  refine secures_bind (withEndpoint_ready
    (Endpoint.withEngine_reads transcriptHash_readOnly transcriptHash_within)) fun _ => ?_
  refine onMessage_ready fun body buffer => ?_
  split
  · exact secures_bind (withEndpoint_ready Endpoint.checkCertificateVerify_ready) fun _ => secures_pure
  · exact secures_throw trivial

theorem awaitFinished_ready : Secures (Ready tagLen) Fault.WithinCapacity awaitFinished := by
  refine secures_bind secures_get fun s => secures_bind secures_get fun s =>
    secures_bind (secures_orThrow trivial) fun secret => ?_
  refine secures_bind (withEndpoint_ready
    (Endpoint.withEngine_reads computeVerifyData_readOnly computeVerifyData_within)) fun _ => ?_
  refine onMessage_ready fun body buffer => ?_
  split
  · refine secures_bind (withEndpoint_ready Endpoint.checkFinished_ready) fun _ => ?_
    refine secures_bind (withEngine_ready (ready_of_sizes sizes_conducts.sendAck sendAck_within))
      fun _ => ?_
    refine secures_bind (change_ready fun _ => .of_same rfl rfl rfl) fun _ => ?_
    exact secures_bind (withEndpoint_ready Endpoint.completeHandshake_ready) fun _ => secures_pure
  · exact secures_throw trivial

/-- Every handler of a server that finds room for what it sends. -/
theorem handlers_ready {state : State} (ready : s.Ready tagLen) (fits : s.FitsIn state)
    (isState : s.state = state) :
    Post state.makeProgress s (fun _ s' => s'.Ready tagLen)
      (fun fault s' => fault.WithinCapacity ∨ s'.Crowded) := by
  have plain : ∀ {handler : ServerM State},
      Post handler s (fun _ s' => s'.Ready tagLen) (fun fault _ => fault.WithinCapacity) →
      Post handler s (fun _ s' => s'.Ready tagLen) (fun fault s' => fault.WithinCapacity ∨ s'.Crowded) :=
    fun holds => holds.mono (fun _ _ kept => kept) fun _ _ within => .inl within
  cases state with
  | awaitClientHello => exact plain (awaitClientHello_ready ready)
  | sendServerHello => exact plain (sendServerHello_ready ready fits)
  | sendEncryptedExtensions => exact plain (sendEncryptedExtensions_ready ready fits)
  | sendCertificateRequest => exact plain (sendCertificateRequest_ready ready fits)
  | sendCertificate => exact plain (sendCertificate_ready ready fits)
  | sendCertificateVerify => exact plain (sendCertificateVerify_ready ready fits)
  | sendFinished =>
      refine ((sendFinished_ready ready fits).and (sendFinished_leads s)).mono (fun _ _ both => both.1)
        fun _ _ both => both.1.imp_right fun full => ⟨both.2.state.trans isState, full⟩
  | awaitCertificate => exact plain (awaitCertificate_ready s ready)
  | awaitCertificateVerify => exact plain (awaitCertificateVerify_ready s ready)
  | awaitFinished => exact plain (awaitFinished_ready s ready)
  | awaitApplicationData =>
      exact plain (secures_bind (withEndpoint_ready Endpoint.awaitApplicationData_ready)
        (fun _ => secures_pure) s ready)
  | halfClosedLocal =>
      exact plain (secures_bind (withEndpoint_ready Endpoint.halfClosedLocal_ready)
        (fun _ => secures_pure) s ready)
  | closed => exact ready

/-- The loop of `make_progress`. -/
theorem progressLoop_ready {fuel : Nat} (ready : s.Ready tagLen) (fits : s.RoundsFit fuel) :
    Post (progressLoop fuel) s (fun _ s' => s'.Ready tagLen)
      (fun fault s' => fault.WithinCapacity ∨ s'.Crowded) := by
  induction fuel generalizing s with
  | zero => exact .inl trivial
  | succ fuel inductionHypothesis =>
      unfold progressLoop
      rw [post_bind, post_get, post_bind]
      refine ((handlers_ready ready fits.1 rfl).and fits.2).mono (fun next s₁ both => ?_)
        fun _ _ both => both.1
      rw [post_ite]
      refine ⟨fun _ => both.1, fun moves => ?_⟩
      rw [post_bind, post_modify]
      exact inductionHypothesis both.1 (both.2 moves)

/-- A call whose handlers find room for what they send fills no list, unless it installs the
application keys a fifth time. -/
theorem call_ready {call : Call} (ready : s.Ready tagLen) (fits : s.CallFits call) :
    Post call.program s (fun _ _ => True) (fun fault s' => fault.WithinCapacity ∨ s'.Crowded) := by
  have hidden : ∀ {program : ServerM Unit} {s : Server},
      Post program s (fun _ _ => True) (fun fault s' => fault.WithinCapacity ∨ s'.Crowded) →
      Post (publicResult program) s (fun _ _ => True)
        (fun fault s' => fault.WithinCapacity ∨ s'.Crowded) := by
    intro program s holds
    rw [post_publicResult]
    refine holds.mono (fun _ _ _ => trivial) fun fault s' failed => ?_
    cases fault with
    | transient reason => trivial
    | fatal reason => exact failed
    | panic site => exact failed
  have plain : ∀ {α : Type} {program : ServerM α},
      Secures (Ready tagLen) Fault.WithinCapacity program →
      Post program s (fun _ _ => True) (fun fault s' => fault.WithinCapacity ∨ s'.Crowded) :=
    fun secures => (secures s ready).mono (fun _ _ _ => trivial) fun _ _ within => .inl within
  have retained : ∀ packet, Secures (Ready tagLen) Fault.WithinCapacity (retainHello packet) := by
    intro packet
    refine secures_get_bind fun s ready => ?_
    rw [post_ite]
    refine ⟨fun _ => ?_, fun _ => ready⟩
    rw [post_ite]
    exact ⟨fun _ => trivial, fun _ => ready⟩
  cases call with
  | handlePacket packet =>
      unfold Call.program Server.handlePacket
      have fits : Post (do retainHello packet; withEngine (receivePacket packet)) s
          (fun _ s' => s'.RoundsFit 20) (fun _ _ => True) := fits
      rw [post_bind] at fits ⊢
      refine ((retained packet s ready).and fits).mono (fun _ s₁ both => hidden ?_)
        fun _ _ both => .inl both.1
      rw [post_bind]
      have received : Secures (Ready tagLen) Fault.WithinCapacity (withEngine (receivePacket packet)) :=
        withEngine_ready (ready_of_sizes receivePacket_sizes receivePacket_within)
      refine ((received s₁ both.1).and both.2).mono (fun _ s₂ both => ?_) fun _ _ both => .inl both.1
      rw [post_bind]
      exact (progressLoop_ready both.1 both.2).mono (fun _ _ _ => trivial) fun _ _ failed => failed
  | handleTimeout now =>
      unfold Call.program handleTimeout
      rw [post_bind]
      have timed : Secures (Ready tagLen) Fault.WithinCapacity
          (withEndpoint (Endpoint.handleTimeout now)) :=
        withEndpoint_ready Endpoint.handleTimeout_ready
      refine ((timed s ready).and fits).mono (fun _ s₁ both => hidden ?_) fun _ _ both => .inl both.1
      exact (progressLoop_ready both.1 both.2).mono (fun _ _ _ => trivial) fun _ _ failed => failed
  | pollOutput bufLen =>
      exact plain (secures_bind (withEndpoint_ready Endpoint.pollOutput_ready) fun _ => secures_pure)
  | sendApplicationData data =>
      refine plain (secures_bind secures_get fun s => secures_ite (secures_throw trivial) ?_)
      refine secures_ite (withEndpoint_ready ?_) (withEndpoint_ready Endpoint.sendData_ready)
      exact Endpoint.modify_ready fun _ => rfl
  | close =>
      refine plain (secures_bind secures_get fun s => secures_ite secures_pure (secures_ite ?_ ?_))
      · exact secures_bind (change_ready fun _ => .of_same rfl rfl rfl) fun _ =>
          modify_ready fun _ => rfl
      · exact secures_bind (withEndpoint_ready Endpoint.closeWrite_ready) fun _ =>
          modify_ready fun _ => rfl

end Handlers

end Server

end Dimpl.Dtls13
