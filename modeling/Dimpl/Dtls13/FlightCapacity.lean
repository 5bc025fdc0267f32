import Dimpl.Dtls13.Exchange
import Dimpl.Dtls13.Ready

/-!
# The records of the flights of a client and a server

The records of a flight are saved in a list of twelve. The list does not overflow in a run
in which every message that is sent finds room in it: its records, counted by the datagrams
that wait and the transmit queue, and those that are saved are at most twelve.
-/

namespace Dimpl.Dtls13

open Nom Program

namespace Client

/-- What a client writes as its ClientHello, if it gets that far. -/
def writeHello (c : Client) : Option (EngineM Bytes) := do
  let random ← c.endpoint.random
  let group ← c.hrrSelectedGroup.or (c.engine.config.kxGroups.head?.map SupportedKxGroup.name)
  let kx ← c.engine.findKxGroup group
  match kx.startExchange (c.endpoint.entropy.random (2 ^ 64)).1 with
  | .ok exchange => some (createClientHello random group exchange.pubKey c.savedCookie)
  | .error _ => none

/-- What a client writes as its Certificate: an empty list when there is none. -/
def writeCertificate (c : Client) : EngineM Bytes :=
  let context := c.certRequestContext.getD []
  if c.engine.certificate.certificate.isEmpty then
    pure (UInt8.ofNat context.length :: context ++ [0, 0, 0])
  else createCertificate context

/-- The message that a handler sends finds room. -/
def FitsIn (c : Client) : State → Prop
  | .sendClientHello => ∀ write ∈ c.writeHello, c.engine.flightBegin.Takes .clientHello write
  | .sendCertificate => c.engine.flightBegin.Takes .certificate c.writeCertificate
  | .sendCertificateVerify =>
    c.engine.Takes .certificateVerify (createCertificateVerify clientLabel)
  | .sendFinished => ∀ secret ∈ c.endpoint.clientHsTrafficSecret,
    (if c.endpoint.clientAuthRequested then c.engine else c.engine.flightBegin).Takes .finished
      (computeVerifyData secret)
  | _ => True

/-- Every handler that `make_progress` runs finds room for what it sends. -/
def RoundsFit : (fuel : Nat) → Client → Prop
  | 0, _ => True
  | fuel + 1, c => c.FitsIn c.state ∧
    Post c.state.makeProgress c
      (fun next c' => next ≠ c.state → RoundsFit fuel { c' with state := next }) (fun _ _ => True)

/-- Every handler that a call runs finds room for what it sends. -/
def CallFits (c : Client) : Call → Prop
  | .handlePacket packet =>
    Post (withEngine (receivePacket packet)) c (fun _ c' => c'.RoundsFit 20) (fun _ _ => True)
  | .handleTimeout now =>
    Post (withEndpoint (Endpoint.handleTimeout now)) c (fun _ c' => c'.RoundsFit 20) (fun _ _ => True)
  | _ => True

/-- The engine of a client is ready. -/
def Ready (tagLen : Nat) (c : Client) : Prop := c.engine.Ready tagLen

/-- A client in the handler that installs the application keys has four receive epochs. -/
def Crowded (c : Client) : Prop := c.state = .awaitFinished ∧ 4 ≤ c.engine.appRecvKeys.length

section Handlers

variable {tagLen : Nat} {c : Client}

theorem withEndpoint_ready {α : Type} {program : EndpointM α}
    (secures : Secures (Endpoint.Ready tagLen) Fault.WithinCapacity program) :
    Secures (Ready tagLen) Fault.WithinCapacity (withEndpoint program) :=
  secures_zoom secures (fun _ ready => ready) fun _ _ _ kept => kept

theorem withEngine_ready {α : Type} {program : EngineM α}
    (secures : Secures (Engine.Ready tagLen) Fault.WithinCapacity program) :
    Secures (Ready tagLen) Fault.WithinCapacity (withEngine program) :=
  withEndpoint_ready (Endpoint.withEngine_ready secures)

/-- A change of the engine that keeps the lengths. -/
theorem change_ready {f : Engine → Engine} (sizes : ∀ e, Sizes tagLen e (f e)) :
    Secures (Ready tagLen) Fault.WithinCapacity (withEngine (modify f)) :=
  withEngine_ready (Dtls13.modify_ready sizes)

/-- A change of other fields. -/
theorem modify_ready {f : Client → Client} (same : ∀ c, (f c).engine = c.engine) :
    Secures (Ready tagLen) Fault.WithinCapacity (modify f : ClientM PUnit) := by
  refine secures_modify fun c ready => ?_
  unfold Ready
  rw [same]
  exact ready

theorem advance_ready {next : State} :
    Secures (Ready tagLen) Fault.WithinCapacity (advance next) :=
  secures_bind (change_ready fun _ => .of_same rfl rfl rfl) fun _ => secures_pure

theorem onHandshake_ready {wanted : MessageType} {stay : State} {handle : Body → Bytes → ClientM State}
    (handles : ∀ body buffer, Secures (Ready tagLen) Fault.WithinCapacity (handle body buffer)) :
    Secures (Ready tagLen) Fault.WithinCapacity (onHandshake wanted stay handle) := by
  refine secures_bind (withEngine_ready nextHandshakeWithOptions_ready) fun found => ?_
  cases found with
  | none => exact secures_pure
  | some message => exact handles _ _

theorem readRetryExtensions_ready {buffer : Bytes} {extensions : List Extension} :
    Secures (Ready tagLen) Fault.WithinCapacity (readRetryExtensions buffer extensions) := by
  induction extensions with
  | nil => exact secures_pure
  | cons ext rest inductionHypothesis =>
      refine secures_ite ?_ (secures_ite ?_ inductionHypothesis)
      · exact secures_bind (modify_ready fun _ => rfl) fun _ => inductionHypothesis
      · split
        · exact secures_throw trivial
        · exact secures_bind (modify_ready fun _ => rfl) fun _ => inductionHypothesis

theorem handleHelloRetryRequest_ready {lengthBefore : Nat} {hello : ServerHello} {buffer : Bytes} :
    Secures (Ready tagLen) Fault.WithinCapacity
      (handleHelloRetryRequest lengthBefore hello buffer) := by
  refine secures_bind secures_get fun c => secures_ite ?_ ?_
  · exact secures_bind (change_ready fun _ => .of_same rfl rfl rfl) fun _ => secures_pure
  · refine secures_bind readRetryExtensions_ready fun _ => secures_bind secures_get fun c => ?_
    refine secures_ite (secures_throw trivial) ?_
    refine secures_bind (change_ready fun _ => .of_same rfl rfl rfl) fun _ => ?_
    refine secures_ite (secures_throw trivial) ?_
    refine secures_bind (withEngine_ready (ready_of_sizes sizes_conducts.replaceTranscript
      replaceTranscriptWithMessageHash_within)) fun _ => ?_
    refine secures_bind (change_ready fun _ => .of_same rfl rfl rfl) fun _ => ?_
    refine secures_bind (change_ready fun _ => .of_same rfl rfl rfl) fun _ => ?_
    exact secures_bind (modify_ready fun _ => rfl) fun _ => secures_pure

theorem handleServerHello_ready {hello : ServerHello} {buffer : Bytes} :
    Secures (Ready tagLen) Fault.WithinCapacity (handleServerHello hello buffer) := by
  refine secures_bind secures_get fun c => ?_
  split
  · exact secures_throw trivial
  · refine secures_bind (change_ready fun _ => .of_same rfl rfl rfl) fun _ => ?_
    refine secures_bind (modify_ready fun _ => rfl) fun _ => ?_
    split
    · exact secures_throw trivial
    · split
      · exact secures_throw trivial
      · exact secures_throw trivial
      · have completed : ∀ group publicKey,
            Secures (Ready tagLen) Fault.WithinCapacity (completeExchange group publicKey) := by
          intro group publicKey
          refine secures_get_bind fun c ready => ?_
          rw [post_bind, post_orThrow]
          refine ⟨fun exchange _ => ?_, fun _ => trivial⟩
          rw [post_bind, post_set]
          exact secures_ite (secures_throw trivial) (secures_liftCrypto within_crypto) _ ready
        refine secures_bind (completed _ _) fun sharedSecret => ?_
        refine secures_bind (withEndpoint_ready Endpoint.installHandshakeSecrets_ready) fun _ => ?_
        refine secures_bind (withEngine_ready (ready_of_sizes enablePeerEncryption_sizes
          enablePeerEncryption_within)) fun _ => ?_
        exact advance_ready

theorem awaitServerHello_ready : Secures (Ready tagLen) Fault.WithinCapacity awaitServerHello := by
  refine secures_bind secures_get fun c => onHandshake_ready fun body buffer => ?_
  split
  · exact secures_ite handleHelloRetryRequest_ready handleServerHello_ready
  · exact secures_throw trivial

theorem awaitEncryptedExtensions_ready :
    Secures (Ready tagLen) Fault.WithinCapacity awaitEncryptedExtensions := by
  have extensions : ∀ buffer list,
      Secures (Ready tagLen) Fault.WithinCapacity (readEncryptedExtensions buffer list) := by
    intro buffer list
    induction list with
    | nil => exact secures_pure
    | cons ext rest inductionHypothesis =>
        refine secures_ite ?_ inductionHypothesis
        split
        · exact secures_throw trivial
        · refine secures_bind (withEndpoint_ready ?_) fun _ => inductionHypothesis
          exact Endpoint.modify_ready fun _ => rfl
  refine onHandshake_ready fun body buffer => ?_
  split
  · exact secures_bind (extensions _ _) fun _ => advance_ready
  · exact secures_throw trivial

theorem awaitCertificateRequest_ready :
    Secures (Ready tagLen) Fault.WithinCapacity awaitCertificateRequest := by
  refine secures_bind secures_get fun c => secures_ite secures_pure ?_
  refine onHandshake_ready fun body buffer => ?_
  split
  · split
    · exact secures_throw trivial
    · exact secures_bind (modify_ready fun _ => rfl) fun _ => advance_ready
  · exact secures_throw trivial

theorem awaitCertificate_ready : Secures (Ready tagLen) Fault.WithinCapacity awaitCertificate := by
  refine onHandshake_ready fun body buffer => ?_
  split
  · refine secures_ite (secures_throw trivial) (secures_ite (secures_throw trivial) ?_)
    exact secures_bind (withEndpoint_ready Endpoint.takeCertificates_ready) fun _ => advance_ready
  · exact secures_throw trivial

theorem awaitCertificateVerify_ready :
    Secures (Ready tagLen) Fault.WithinCapacity awaitCertificateVerify := by
  refine secures_bind secures_get fun c => ?_
  refine secures_bind (withEndpoint_ready
    (Endpoint.withEngine_reads transcriptHash_readOnly transcriptHash_within)) fun _ => ?_
  refine onHandshake_ready fun body buffer => ?_
  split
  · exact secures_bind (withEndpoint_ready Endpoint.checkCertificateVerify_ready) fun _ => secures_pure
  · exact secures_throw trivial

/-- The application keys need a free place for their receive epoch. -/
theorem awaitFinished_ready (ready : c.Ready tagLen) :
    Post awaitFinished c (fun _ c' => c'.Ready tagLen)
      (fun fault c' => fault.WithinCapacity ∨ 4 ≤ c'.engine.appRecvKeys.length) := by
  unfold awaitFinished
  rw [post_bind, post_get, post_bind, post_get, post_bind, post_orThrow]
  refine ⟨fun secret _ => ?_, fun _ => .inl trivial⟩
  rw [post_bind]
  have computed : Secures (Ready tagLen) Fault.WithinCapacity (withEngine (computeVerifyData secret)) :=
    withEndpoint_ready (Endpoint.withEngine_reads computeVerifyData_readOnly computeVerifyData_within)
  refine (computed c ready).mono (fun expected c₁ ready₁ => ?_) fun _ _ within => .inl within
  unfold onHandshake
  rw [post_bind]
  refine (withEngine_ready nextHandshakeWithOptions_ready c₁ ready₁).mono (fun found c₂ ready₂ => ?_)
    fun _ _ within => .inl within
  cases found with
  | none => exact ready₂
  | some message =>
      dsimp only
      split
      · rw [post_bind]
        refine (withEndpoint_ready Endpoint.checkFinished_ready c₂ ready₂).mono (fun _ c₃ ready₃ => ?_)
          fun _ _ within => .inl within
        rw [post_bind]
        unfold withEndpoint
        rw [post_zoom]
        exact (Endpoint.installApplicationSecrets_ready ready₃).mono (fun _ _ kept => kept)
          fun _ _ failed => failed
      · exact .inl trivial

theorem withEndpoint_state {α : Type} {program : EndpointM α} :
    Along (Keeps Client.state) (withEndpoint program) := by
  intro c
  unfold withEndpoint
  rw [post_zoom]
  exact post_self.mono (fun _ _ _ => rfl) fun _ _ _ => rfl

theorem awaitFinished_state : Along (Keeps Client.state) awaitFinished := by
  refine along_bind along_get fun _ => along_bind along_get fun _ => along_bind along_orThrow fun _ => ?_
  refine along_bind withEndpoint_state fun _ => along_bind withEndpoint_state fun found => ?_
  cases found with
  | none => exact along_pure
  | some message =>
      dsimp only
      split
      · refine along_bind withEndpoint_state fun _ => along_bind withEndpoint_state fun _ => ?_
        exact along_bind along_get fun _ => along_pure
      · exact along_throw

/-- A message that finds room. -/
theorem createHandshake_ready {type : MessageType} {writeBody : EngineM Bytes} (ready : c.Ready tagLen)
    (reads : ReadOnly writeBody) (takes : c.engine.Takes type writeBody)
    (within : Post writeBody c.engine (fun _ _ => True) fun fault _ => fault.WithinCapacity) :
    Post (withEngine (createHandshake type writeBody)) c (fun _ c' => c'.Ready tagLen)
      (fun fault _ => fault.WithinCapacity) := by
  rw [withEngine_post]
  exact Dtls13.createHandshake_ready ready reads takes within

theorem createClientHello_within {random : Random} {group : NamedGroup} {publicKey : Bytes}
    {cookie : Option Bytes} {e : Engine} (groups : e.config.kxGroups.length ≤ 4) :
    Post (createClientHello random group publicKey cookie) e (fun _ _ => True)
      (fun fault _ => fault.WithinCapacity) := by
  unfold createClientHello supportedGroups
  rw [post_bind, post_get, post_bind]
  dsimp only
  rw [if_pos (by simpa using groups)]
  trivial

theorem flightBegin_ready (ready : c.Ready tagLen) : c.engine.flightBegin.Ready tagLen := by
  have sizes : Sizes tagLen c.engine c.engine.flightBegin := .of_same rfl rfl rfl
  exact .of_sizes sizes ready

/-- The hello of a client. -/
theorem sendClientHello_ready (ready : c.Ready tagLen) (fits : c.FitsIn .sendClientHello) :
    Post sendClientHello c (fun _ c' => c'.Ready tagLen) (fun fault _ => fault.WithinCapacity) := by
  unfold sendClientHello
  rw [post_bind, post_get, post_bind, post_orThrow]
  refine ⟨fun random isRandom => ?_, fun _ => trivial⟩
  rw [post_bind, withEngine_post, post_modify, post_bind]
  have begun : c.engine.flightBegin.Ready tagLen := flightBegin_ready ready
  -- The group is known from the client as it was; beginning a flight keeps the settings.
  have grouped : Post keyShareGroup
      { c with endpoint := { c.endpoint with engine := c.engine.flightBegin } }
      (fun group c' =>
        c.hrrSelectedGroup.or (c.engine.config.kxGroups.head?.map SupportedKxGroup.name) = some group ∧
          c' = { c with endpoint := { c.endpoint with engine := c.engine.flightBegin } })
      (fun fault _ => fault.WithinCapacity) := by
    unfold keyShareGroup
    rw [post_bind, post_get]
    dsimp only
    cases isSelected : c.hrrSelectedGroup with
    | some group => exact ⟨rfl, rfl⟩
    | none =>
        rw [post_orThrow]
        exact ⟨fun group isGroup => ⟨isGroup, rfl⟩, fun _ => trivial⟩
  refine grouped.mono ?_ fun _ _ within => within
  rintro group _ ⟨isGroup, rfl⟩
  rw [post_bind, post_get, post_bind, post_orThrow]
  refine ⟨fun kx isKx => ?_, fun _ => trivial⟩
  rw [post_bind]
  unfold withEndpoint Endpoint.startExchange
  rw [post_zoom, post_bind, post_get]
  dsimp only
  rw [post_bind, post_set, post_liftCrypto]
  refine ⟨fun exchange started => ?_, fun _ _ => trivial⟩
  rw [post_bind, post_modify, post_bind, post_get, post_bind]
  have isKx : c.engine.findKxGroup group = some kx := isKx
  have started : kx.startExchange (c.endpoint.entropy.random (2 ^ 64)).1 = .ok exchange := started
  have writes : c.writeHello =
      some (createClientHello random group exchange.pubKey c.savedCookie) := by
    unfold writeHello
    simp only [isRandom, isGroup, isKx, Option.bind_eq_bind, Option.bind_some]
    rw [started]
  refine (createHandshake_ready ?_ createClientHello_readOnly ?_ ?_).mono (fun _ _ kept => kept)
    fun _ _ within => within
  · exact begun
  · exact fits _ writes
  · exact createClientHello_within begun.groups

theorem createCertificateVerify_within {label : String} :
    Throws Fault.WithinCapacity (createCertificateVerify label) :=
  throws_bind transcriptHash_within fun _ => throws_bind throws_get fun _ =>
    throws_bind (throws_liftCrypto within_crypto) fun _ =>
      throws_bind (throws_orThrow trivial) fun _ => throws_pure

/-- The Certificate of a client. -/
theorem sendCertificate_ready (ready : c.Ready tagLen) (fits : c.FitsIn .sendCertificate) :
    Post sendCertificate c (fun _ c' => c'.Ready tagLen) (fun fault _ => fault.WithinCapacity) := by
  have begun := flightBegin_ready ready
  unfold sendCertificate
  rw [post_bind, withEngine_post, post_modify, post_bind, post_get, post_bind, post_get, post_ite]
  have takes : c.engine.flightBegin.Takes .certificate c.writeCertificate := fits
  unfold writeCertificate at takes
  dsimp only at takes
  refine ⟨fun isEmpty => ?_, fun isCertificate => ?_⟩
  · have isEmpty : c.engine.certificate.certificate.isEmpty = true := isEmpty
    rw [if_pos isEmpty] at takes
    rw [post_bind]
    refine (createHandshake_ready ?_ along_pure ?_ trivial).mono (fun _ _ kept => kept)
      fun _ _ within => within
    · exact begun
    · exact takes
  · have isCertificate : ¬c.engine.certificate.certificate.isEmpty = true := isCertificate
    rw [if_neg isCertificate] at takes
    rw [post_bind]
    refine (createHandshake_ready ?_ createCertificate_readOnly ?_ ?_).mono (fun _ _ kept => kept)
      fun _ _ within => within
    · exact begun
    · exact takes
    · trivial

theorem sendCertificateVerify_ready (ready : c.Ready tagLen) (fits : c.FitsIn .sendCertificateVerify) :
    Post sendCertificateVerify c (fun _ c' => c'.Ready tagLen)
      (fun fault _ => fault.WithinCapacity) := by
  unfold sendCertificateVerify
  rw [post_bind]
  exact (createHandshake_ready ready createCertificateVerify_readOnly fits
    (createCertificateVerify_within _)).mono (fun _ _ kept => kept) fun _ _ within => within

theorem sendFinished_ready (ready : c.Ready tagLen) (fits : c.FitsIn .sendFinished) :
    Post sendFinished c (fun _ c' => c'.Ready tagLen) (fun fault _ => fault.WithinCapacity) := by
  unfold sendFinished
  rw [post_bind, post_get, post_bind, withEngine_post, post_runIf]
  have sent : ∀ c₀ : Client, c₀.Ready tagLen →
      (∀ secret ∈ c₀.endpoint.clientHsTrafficSecret,
        c₀.engine.Takes .finished (computeVerifyData secret)) →
      Post (do
          let secret ← orThrow (.fatal (.invalidState .noClientHandshakeTrafficSecretForFinished))
            (← get).endpoint.clientHsTrafficSecret
          withEngine (createHandshake .finished (computeVerifyData secret))
          withEndpoint Endpoint.completeHandshake
          return State.awaitApplicationData)
        c₀ (fun _ c' => c'.Ready tagLen) (fun fault _ => fault.WithinCapacity) := by
    intro c₀ isReady takes
    rw [post_bind, post_get, post_bind, post_orThrow]
    refine ⟨fun secret isSecret => ?_, fun _ => trivial⟩
    rw [post_bind]
    refine (createHandshake_ready isReady computeVerifyData_readOnly (takes secret isSecret)
      (computeVerifyData_within _)).mono (fun _ c₁ ready₁ => ?_) fun _ _ within => within
    rw [post_bind]
    exact (withEndpoint_ready Endpoint.completeHandshake_ready c₁ ready₁).mono (fun _ _ kept => kept)
      fun _ _ within => within
  have takes : ∀ secret ∈ c.endpoint.clientHsTrafficSecret,
      (if c.endpoint.clientAuthRequested then c.engine else c.engine.flightBegin).Takes .finished
        (computeVerifyData secret) := fits
  refine ⟨fun isFirst => ?_, fun isLater => ?_⟩
  · rw [post_modify]
    have requested : c.endpoint.clientAuthRequested = false := by simpa using isFirst
    rw [requested, if_neg Bool.false_ne_true] at takes
    exact sent _ (flightBegin_ready ready) takes
  · have requested : c.endpoint.clientAuthRequested = true := by simpa using isLater
    rw [requested, if_pos rfl] at takes
    exact sent _ ready takes

/-- Every handler of a client that finds room for what it sends. -/
theorem handlers_ready {state : State} (ready : c.Ready tagLen) (fits : c.FitsIn state)
    (isState : c.state = state) :
    Post state.makeProgress c (fun _ c' => c'.Ready tagLen)
      (fun fault c' => fault.WithinCapacity ∨ c'.Crowded) := by
  have plain : ∀ {handler : ClientM State},
      Post handler c (fun _ c' => c'.Ready tagLen) (fun fault _ => fault.WithinCapacity) →
      Post handler c (fun _ c' => c'.Ready tagLen) (fun fault c' => fault.WithinCapacity ∨ c'.Crowded) :=
    fun holds => holds.mono (fun _ _ kept => kept) fun _ _ within => .inl within
  cases state with
  | sendClientHello => exact plain (sendClientHello_ready ready fits)
  | awaitServerHello => exact plain (awaitServerHello_ready c ready)
  | awaitEncryptedExtensions => exact plain (awaitEncryptedExtensions_ready c ready)
  | awaitCertificateRequest => exact plain (awaitCertificateRequest_ready c ready)
  | awaitCertificate => exact plain (awaitCertificate_ready c ready)
  | awaitCertificateVerify => exact plain (awaitCertificateVerify_ready c ready)
  | awaitFinished =>
      refine ((awaitFinished_ready ready).and (awaitFinished_state c)).mono (fun _ _ both => both.1)
        fun _ _ both => both.1.imp_right fun full => ⟨both.2.trans isState, full⟩
  | sendCertificate => exact plain (sendCertificate_ready ready fits)
  | sendCertificateVerify => exact plain (sendCertificateVerify_ready ready fits)
  | sendFinished => exact plain (sendFinished_ready ready fits)
  | awaitApplicationData =>
      exact plain (secures_bind (withEndpoint_ready Endpoint.awaitApplicationData_ready)
        (fun _ => secures_pure) c ready)
  | halfClosedLocal =>
      exact plain (secures_bind (withEndpoint_ready Endpoint.halfClosedLocal_ready)
        (fun _ => secures_pure) c ready)
  | closed => exact ready

/-- The loop of `make_progress`. -/
theorem progressLoop_ready {fuel : Nat} (ready : c.Ready tagLen) (fits : c.RoundsFit fuel) :
    Post (progressLoop fuel) c (fun _ c' => c'.Ready tagLen)
      (fun fault c' => fault.WithinCapacity ∨ c'.Crowded) := by
  induction fuel generalizing c with
  | zero => exact .inl trivial
  | succ fuel inductionHypothesis =>
      unfold progressLoop
      rw [post_bind, post_get, post_bind]
      refine ((handlers_ready ready fits.1 rfl).and fits.2).mono (fun next c₁ both => ?_)
        fun _ _ both => both.1
      rw [post_ite]
      refine ⟨fun _ => both.1, fun moves => ?_⟩
      rw [post_bind, post_modify]
      exact inductionHypothesis both.1 (both.2 moves)

/-- A call whose handlers find room for what they send fills no list, unless it installs the
application keys a fifth time. -/
theorem call_ready {call : Call} (ready : c.Ready tagLen) (fits : c.CallFits call) :
    Post call.program c (fun _ _ => True) (fun fault c' => fault.WithinCapacity ∨ c'.Crowded) := by
  have hidden : ∀ {program : ClientM Unit} {c : Client},
      Post program c (fun _ _ => True) (fun fault c' => fault.WithinCapacity ∨ c'.Crowded) →
      Post (publicResult program) c (fun _ _ => True)
        (fun fault c' => fault.WithinCapacity ∨ c'.Crowded) := by
    intro program c holds
    rw [post_publicResult]
    refine holds.mono (fun _ _ _ => trivial) fun fault c' failed => ?_
    cases fault with
    | transient reason => trivial
    | fatal reason => exact failed
    | panic site => exact failed
  have plain : ∀ {α : Type} {program : ClientM α},
      Secures (Ready tagLen) Fault.WithinCapacity program →
      Post program c (fun _ _ => True) (fun fault c' => fault.WithinCapacity ∨ c'.Crowded) :=
    fun secures => (secures c ready).mono (fun _ _ _ => trivial) fun _ _ within => .inl within
  cases call with
  | handlePacket packet =>
      refine hidden ?_
      rw [post_bind]
      have received : Secures (Ready tagLen) Fault.WithinCapacity (withEngine (receivePacket packet)) :=
        withEngine_ready (ready_of_sizes receivePacket_sizes receivePacket_within)
      refine ((received c ready).and fits).mono (fun _ c₁ both => ?_) fun _ _ both => .inl both.1
      exact (progressLoop_ready both.1 both.2).mono (fun _ _ _ => trivial) fun _ _ failed => failed
  | handleTimeout now =>
      unfold Call.program handleTimeout
      rw [post_bind]
      have timed : Secures (Ready tagLen) Fault.WithinCapacity
          (withEndpoint (Endpoint.handleTimeout now)) :=
        withEndpoint_ready Endpoint.handleTimeout_ready
      refine ((timed c ready).and fits).mono (fun _ c₁ both => hidden ?_) fun _ _ both => .inl both.1
      exact (progressLoop_ready both.1 both.2).mono (fun _ _ _ => trivial) fun _ _ failed => failed
  | pollOutput bufLen =>
      exact plain (secures_bind (withEndpoint_ready Endpoint.pollOutput_ready) fun _ => secures_pure)
  | sendApplicationData data =>
      refine plain (secures_bind secures_get fun c => secures_ite (secures_throw trivial) ?_)
      refine secures_ite (withEndpoint_ready ?_) (withEndpoint_ready Endpoint.sendData_ready)
      exact Endpoint.modify_ready fun _ => rfl
  | close =>
      refine plain (secures_bind secures_get fun c => secures_ite secures_pure (secures_ite ?_ ?_))
      · exact secures_bind (change_ready fun _ => .of_same rfl rfl rfl) fun _ =>
          modify_ready fun _ => rfl
      · exact secures_bind (withEndpoint_ready Endpoint.closeWrite_ready) fun _ =>
          modify_ready fun _ => rfl

end Handlers

end Client

section Greeting

theorem parseVarArray_yields {max : Nat} (small : max < 256) :
    Yields (fun bytes => bytes.length ≤ max) (parseVarArray max) := by
  refine yields_bind yields_any fun len _ => ?_
  have fits : Yields (fun _ => len.toNat ≤ max) (require (len.toNat ≤ max % 256) .lengthValue) := by
    intro input value rest succeeds
    have holds := (require_ok succeeds).1
    rw [Nat.mod_eq_of_lt small] at holds
    simpa using holds
  refine yields_bind fits fun _ bounded => ?_
  intro input value rest succeeds
  rw [yields_take _ _ _ succeeds]
  exact bounded

/-- The session of a ClientHello has at most 32 bytes. -/
theorem ClientHello.parse_sessionId {baseOffset : Nat} {allowUnknown : Bool} :
    Yields (fun hello => hello.legacySessionId.length ≤ 32)
      (ClientHello.parseWithOptions baseOffset allowUnknown) := by
  refine yields_bind yields_any fun _ _ => yields_bind yields_any fun _ _ => ?_
  refine yields_bind yields_any fun _ _ => yields_bind (parseVarArray_yields (by decide)) fun _ short => ?_
  refine yields_bind yields_any fun _ _ => yields_bind yields_any fun _ _ => ?_
  refine yields_bind yields_any fun _ _ => yields_bind yields_any fun _ _ => ?_
  refine yields_bind yields_any fun _ _ => yields_bind yields_any fun _ _ => ?_
  refine yields_bind yields_any fun _ _ => yields_bind yields_any fun _ _ => ?_
  refine yields_bind yields_any fun _ _ => yields_bind yields_any fun _ _ => ?_
  refine yields_bind yields_any fun _ _ => yields_bind yields_any fun _ _ => ?_
  exact yields_pure short

theorem Read.sessionId {wanted : MessageType} {allowUnknown : Bool} {e e' : Engine} {hello : ClientHello}
    {buffer : Bytes} (read : Read wanted allowUnknown e e' (.clientHello hello) buffer) :
    hello.legacySessionId.length ≤ 32 := by
  have short : ∀ {suite : Option Dtls13CipherSuite}, Yields
      (fun body => ∀ hello, body = .clientHello hello → hello.legacySessionId.length ≤ 32)
      (Body.parseWithOptions 0 wanted suite allowUnknown) := by
    intro suite
    refine yields_ite ?_ (yields_ite ?_ (yields_ite ?_ (yields_ite ?_ (yields_ite ?_ (yields_ite ?_
      (yields_ite ?_ (yields_ite ?_ ?_)))))))
    · refine yields_bind ClientHello.parse_sessionId fun hello short => yields_pure ?_
      rintro _ ⟨⟩
      exact short
    · exact yields_bind yields_any fun _ _ => yields_pure (by rintro _ ⟨⟩)
    · exact yields_bind yields_any fun _ _ => yields_pure (by rintro _ ⟨⟩)
    · exact yields_bind yields_any fun _ _ => yields_pure (by rintro _ ⟨⟩)
    · exact yields_bind yields_any fun _ _ => yields_bind yields_any fun _ _ =>
        yields_pure (by rintro _ ⟨⟩)
    · exact yields_bind yields_any fun _ _ => yields_pure (by rintro _ ⟨⟩)
    · split
      · exact yields_fail
      · exact yields_bind yields_any fun _ _ => yields_pure (by rintro _ ⟨⟩)
    · refine yields_bind yields_any fun _ _ => yields_bind yields_any fun _ _ =>
        yields_bind yields_any fun _ _ => ?_
      split
      · exact yields_fail
      · exact yields_pure (by rintro _ ⟨⟩)
    · exact yields_pure (by rintro _ ⟨⟩)
  obtain ⟨rest, parsed⟩ := read.parsed
  exact short _ _ _ parsed hello rfl

theorem Server.length_helloRetryRequest {sessionId cookie : Bytes} {suite : Dtls13CipherSuite}
    {group : Option NamedGroup} :
    (Server.helloRetryRequest sessionId suite cookie group).length ≤
      58 + sessionId.length + cookie.length := by
  cases group with
  | none =>
      simp [Server.helloRetryRequest, Extension.layout, ServerHello.serialize, Extension.serializeAll,
        Extension.serialize, Extension.extensionData, slice, hrrRandom, ProtocolVersion.serialize]
      omega
  | some group =>
      simp [Server.helloRetryRequest, Extension.layout, ServerHello.serialize, Extension.serializeAll,
        Extension.serialize, Extension.extensionData, slice, hrrRandom, ProtocolVersion.serialize]
      omega

end Greeting

end Dimpl.Dtls13
