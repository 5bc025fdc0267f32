import Dimpl.Dtls13.Authentication
import Dimpl.Dtls13.ServerRun

/-!
# What a server knows

What a server has checked in each of its states and when its handshake deadline is
still set, in every run.
-/

namespace Dimpl.Dtls13

open Nom Program

/-- Whether a Certificate message with an empty list is put together. -/
def Event.isEmptyCertificate : Event → Bool
  | .assembled type fragments =>
    type = .certificate &&
      match Nom.parse (Body.parseWithOptions 0 .certificate none false) (assembledBytes fragments) with
      | .ok (.certificate certificate, _) => certificate.certificateList.isEmpty
      | _ => false
  | _ => false

/-- A Certificate message with an empty list was put together. -/
def EmptyCertificateSent (log : List Event) : Prop :=
  ∃ event ∈ log, event.isEmptyCertificate = true

instance (log : List Event) : Decidable (EmptyCertificateSent log) :=
  inferInstanceAs (Decidable (∃ event ∈ log, event.isEmptyCertificate = true))

theorem EmptyCertificateSent.mono {log log' : List Event} (sent : EmptyCertificateSent log)
    (grown : log <+: log') : EmptyCertificateSent log' := by
  obtain ⟨event, member, isEmpty⟩ := sent
  exact ⟨event, grown.subset member, isEmpty⟩

/-- An empty list that was read was sent. -/
theorem EmptyCertificateSent.of_read {e e' : Engine} {certificate : Certificate} {buffer : Bytes}
    (read : Read .certificate false e e' (.certificate certificate) buffer)
    (empty : certificate.certificateList.isEmpty = true) : EmptyCertificateSent e'.log := by
  obtain ⟨fragments, assembled, rfl⟩ := read.heard
  obtain ⟨rest, parsed⟩ := read.parsed
  refine ⟨_, assembled, ?_⟩
  -- The suite plays no part in a Certificate.
  have unsuited : Nom.parse (Body.parseWithOptions 0 .certificate none false)
      (assembledBytes fragments) = .ok (.certificate certificate, rest) := parsed
  simp [Event.isEmptyCertificate, unsuited, List.isEmpty_iff.mp empty]

namespace Server

/-- Whether the handshake is under way: neither over nor given up. -/
def State.inHandshake (state : State) : Bool :=
  state ≠ .awaitApplicationData && state ≠ .halfClosedLocal && state ≠ .closed

/-- Whether the handshake is over and the connection not fully closed. -/
def State.connected (state : State) : Bool :=
  state = .awaitApplicationData || state = .halfClosedLocal

/-- Whether suite, secrets and transcript are still open. -/
def State.early (state : State) : Bool := state = .awaitClientHello || state = .sendServerHello

/-- Whether the server has decided to ask for a certificate. -/
def State.asked (state : State) : Bool :=
  !state.early && state ≠ .sendEncryptedExtensions && state ≠ .sendCertificateRequest &&
    state ≠ .closed

/-- Whether the certificate of a client that was asked is still to come. -/
def State.unoffered (state : State) : Bool :=
  state.inHandshake && state ≠ .awaitCertificateVerify && state ≠ .awaitFinished

/-- Whether a client that was asked has signed. -/
def State.signed (state : State) : Bool := state = .awaitFinished || state.connected

/-- Whether the timers were stopped in a handshake: the client's Certificate was
read. -/
def State.stopped (state : State) (authRequested : Bool) : Bool :=
  state = .awaitCertificateVerify || (state = .awaitFinished && authRequested)

/-- Whether the handshake is under way with its deadline. -/
def State.waits (state : State) (authRequested : Bool) : Bool :=
  state.inHandshake && !state.stopped authRequested

/-- A client that was asked for a certificate and sent a list that is not empty has
signed. -/
def ClientSigned (p : Endpoint) : Prop :=
  p.clientAuthRequested = true → ¬EmptyCertificateSent p.engine.log →
    PeerSigned clientLabel p.engine

/-- All checks of a handshake were made. -/
structure Verified (p : Endpoint) : Prop where
  asked : p.engine.config.requireClientCertificate = true → p.clientAuthRequested = true
  signed : ClientSigned p
  finished : PeerFinished p.clientHsTrafficSecret p.engine

/-- The certificates of the client are those of its Certificate message. -/
def Offered (p : Endpoint) : Prop :=
  ∃ through, Presented p.engine.log through p.peerCertificates ∧ p.peerCertificates ≠ [] ∧
    through <+: p.engine.transcript

/-- What holds in a state. What is promised of the deadline, while it is there, is
open. -/
structure Has (due : Promise) (p : Endpoint) (state : State) : Prop where
  deadline : state.waits p.clientAuthRequested = true →
    due p.engine.config.handshakeTimeout p.engine.connectTimeout
  calm : state.waits p.clientAuthRequested = false → p.engine.connectTimeout = .disabled
  suite : state ≠ .awaitClientHello → state ≠ .closed → p.engine.cipherSuite.isSome = true
  asked : state.asked = true → p.engine.config.requireClientCertificate = true →
    p.clientAuthRequested = true
  requested : state = .awaitCertificate ∨ state = .awaitCertificateVerify →
    p.clientAuthRequested = true
  unoffered : state.unoffered = true → p.peerCertificates = []
  offered : state = .awaitCertificateVerify → Offered p
  signed : state.signed = true → ClientSigned p
  finished : state.connected = true → PeerFinished p.clientHsTrafficSecret p.engine
  unreported : state.inHandshake = true → ¬Reported p
  verified : Reported p → Verified p

/-- The invariant of a server. -/
def Inv (due : Promise) (s : Server) : Prop := Has due s.endpoint s.state

/-- Before the client's certificate the deadline is there. -/
theorem State.waits_of_unoffered {state : State} (waits : state.unoffered = true)
    (authRequested : Bool) : state.waits authRequested = true := by
  cases state <;> simp_all [State.unoffered, State.waits, State.stopped]

section Lasting

variable {due : Promise} {early : Prop} {p p' : Endpoint} {state : State}

theorem ClientSigned.mono (signed : ClientSigned p) (endures : Endures early True p p')
    (late : ¬early) : ClientSigned p' := by
  intro requested notEmpty
  have before := signed (endures.auth ▸ requested)
    fun sent => notEmpty (sent.mono endures.engine.log)
  exact before.mono endures.engine late

theorem finished_mono (finished : PeerFinished p.clientHsTrafficSecret p.engine)
    (endures : Endures early True p p') (late : ¬early) :
    PeerFinished p'.clientHsTrafficSecret p'.engine := by
  rw [(endures.secrets late).1]
  exact finished.mono endures.engine late

theorem Verified.mono (verified : Verified p) (endures : Endures early True p p') (late : ¬early) :
    Verified p' where
  asked := by
    rw [endures.engine.config, endures.auth]
    exact verified.asked
  signed := verified.signed.mono endures late
  finished := finished_mono verified.finished endures late

/-- What holds in a state keeps holding. -/
theorem Has.of_endures (has : Has due p state) (endures : Endures (state.early = true) True p p') :
    Has due p' state where
  deadline := by
    rw [endures.auth]
    exact fun waits => endures.engine.due (has.deadline waits)
  calm := by
    rw [endures.engine.deadline, endures.auth]
    exact has.calm
  suite := fun known isOpen => endures.engine.known (has.suite known isOpen)
  asked := by
    rw [endures.engine.config, endures.auth]
    exact has.asked
  requested := by
    rw [endures.auth]
    exact has.requested
  unoffered := fun waits => endures.certificates.trans (has.unoffered waits)
  offered := fun isState => by
    obtain ⟨through, presented, some, sent⟩ := has.offered isState
    have late : ¬state.early = true := by
      rw [isState]
      decide
    rw [Offered, endures.certificates]
    exact ⟨through, presented.mono endures.engine.log, some,
      sent.trans (endures.engine.transcript late)⟩
  signed := fun isSigned => by
    refine (has.signed isSigned).mono endures fun isEarly => ?_
    cases state <;> simp_all [State.signed, State.early, State.connected]
  finished := fun isConnected => by
    refine finished_mono (has.finished isConnected) endures fun isEarly => ?_
    cases state <;> simp_all [State.early, State.connected]
  unreported := fun under reported => has.unreported under (reported.before endures)
  verified := fun reported => by
    have before := reported.before endures
    refine (has.verified before).mono endures fun isEarly => has.unreported ?_ before
    cases state <;> simp_all [State.early, State.inHandshake]

/-- A move among the states before the client's certificate. -/
theorem Has.before_offer {next : State} (has : Has due p state) (waits : state.unoffered = true)
    (nextWaits : next.unoffered = true) (suite : p.engine.cipherSuite.isSome = true)
    (asked : next.asked = true → p.engine.config.requireClientCertificate = true →
      p.clientAuthRequested = true)
    (requested : next = .awaitCertificate → p.clientAuthRequested = true) : Has due p next where
  deadline := fun _ => has.deadline (State.waits_of_unoffered waits _)
  calm := fun isOver => by simp [State.waits_of_unoffered nextWaits] at isOver
  suite := fun _ _ => suite
  asked := asked
  requested := fun isNext => by
    rcases isNext with isNext | rfl
    · exact requested isNext
    · cases nextWaits
  unoffered := fun _ => has.unoffered waits
  offered := fun isNext => by
    subst isNext
    cases nextWaits
  signed := fun isSigned => by
    cases next <;> simp_all [State.unoffered, State.signed, State.connected, State.inHandshake]
  finished := fun isConnected => by
    cases next <;> simp_all [State.unoffered, State.connected, State.inHandshake]
  unreported := fun _ => has.unreported (by cases state <;> simp_all [State.unoffered])
  verified := has.verified

end Lasting

section Handlers

variable {due : Promise} {early : Prop} {s : Server} {T : State → Server → Prop}

/-- A client that was asked and sent no certificate: the timers stop. -/
theorem Has.empty {p : Endpoint} (has : Has due p .awaitCertificate)
    (sent : EmptyCertificateSent p.engine.log) :
    Has due { p with engine := p.engine.advancePeerHandshakeSeq.flightStopResendTimers }
      .awaitFinished where
  deadline := fun waits => by simp [State.waits, State.stopped, has.requested (.inl rfl)] at waits
  calm := fun _ => rfl
  suite := fun _ _ => has.suite (by decide) (by decide)
  asked := fun _ _ => has.requested (.inl rfl)
  requested := fun isState => by simp at isState
  unoffered := fun waits => by cases waits
  offered := fun isState => by cases isState
  signed := fun _ _ notEmpty => absurd sent notEmpty
  finished := fun isConnected => by cases isConnected
  unreported := fun _ => has.unreported rfl
  verified := fun reported => absurd reported (has.unreported rfl)

/-- A client that was asked and sent certificates: the timers stop. -/
theorem Has.offer {p p' : Endpoint} (has : Has due p .awaitCertificate) {through : Bytes}
    {list : List Bytes} (presented : Presented p.engine.log through list) (some : list ≠ [])
    (sent : through <+: p.engine.transcript)
    (taken : p'.peerCertificates = p.peerCertificates ++ list)
    (endures : Endures False True p { p' with peerCertificates := p.peerCertificates }) :
    Has due { p' with engine := p'.engine.flightStopResendTimers.advancePeerHandshakeSeq }
      .awaitCertificateVerify := by
  have isList : p'.peerCertificates = list := by simpa [has.unoffered rfl] using taken
  have requested : p'.clientAuthRequested = true := endures.auth.trans (has.requested (.inl rfl))
  have silent : ¬Reported p' := fun reported => by
    have same : Reported { p' with peerCertificates := p.peerCertificates } := reported
    exact has.unreported rfl (same.before endures)
  exact
    { deadline := fun waits => by simp [State.waits, State.stopped] at waits
      calm := fun _ => rfl
      suite := fun _ _ => endures.engine.known (has.suite (by decide) (by decide))
      asked := fun _ _ => requested
      requested := fun _ => requested
      unoffered := fun waits => by cases waits
      offered := fun _ =>
        ⟨through, isList ▸ presented.mono endures.engine.log, isList ▸ some,
          sent.trans (endures.engine.transcript id)⟩
      signed := fun isSigned => by cases isSigned
      finished := fun isConnected => by cases isConnected
      unreported := fun _ => silent
      verified := fun reported => absurd reported silent }

theorem awaitCertificate_post (has : Has due s.endpoint .awaitCertificate) :
    Post awaitCertificate s (fun next s' => s'.state = s.state ∧ Has due s'.endpoint next)
      (fun _ s' => Within False s s') := by
  refine onMessage_post ⟨rfl, has⟩ fun body buffer s₁ sameState read only => ?_
  have within : Within False s s₁ := read_endures read only
  have has₁ : Has due s₁.endpoint .awaitCertificate := has.of_endures (within.endures.weaken False.elim id)
  split
  · rename_i certificate
    obtain ⟨rest, parsed⟩ := read.parsed
    rw [post_ite]
    refine ⟨fun empty => ?_, fun nonempty => ?_⟩
    · exact ⟨sameState, has₁.empty (.of_read read empty)⟩
    · unfold withEndpoint
      rw [post_bind, post_zoom]
      refine Endpoint.takeCertificates_post.mono (fun _ p' taken => ?_) fun _ _ never => never.elim
      have presented : Presented s₁.engine.log s₁.engine.transcript
          (certificate.certificateList.map fun entry => slice buffer entry.cert) :=
        ⟨s.engine.transcript, buffer, s.engine.cipherSuite, certificate, rest, read.heard,
          read.transcript, parsed, rfl⟩
      have some : certificate.certificateList.map (fun entry => slice buffer entry.cert) ≠ [] := by
        simpa using nonempty
      exact ⟨sameState, has₁.offer presented some List.prefix_rfl taken.1 (taken.2.weaken id fun _ => trivial)⟩
  · exact within

/-- A client that has signed. -/
theorem Has.sign {p p' : Endpoint} (has : Has due p .awaitCertificateVerify)
    (endures : Endures False True p p') (signed : PeerSigned clientLabel p'.engine) :
    Has due p' .awaitFinished := by
  have requested : p'.clientAuthRequested = true := endures.auth.trans (has.requested (.inr rfl))
  have silent : ¬Reported p' := fun reported => has.unreported rfl (reported.before endures)
  have disabled : p'.engine.connectTimeout = .disabled :=
    endures.engine.deadline.trans (has.calm (by simp [State.waits, State.stopped]))
  exact
    { deadline := fun waits => by simp [State.waits, State.stopped, requested] at waits
      calm := fun _ => disabled
      suite := fun _ _ => endures.engine.known (has.suite (by decide) (by decide))
      asked := fun _ _ => requested
      requested := fun isState => by simp at isState
      unoffered := fun waits => by cases waits
      offered := fun isState => by cases isState
      signed := fun _ _ _ => signed
      finished := fun isConnected => by cases isConnected
      unreported := fun _ => silent
      verified := fun reported => absurd reported silent }

/-- A CertificateVerify that was read and verified over the transcript before it. -/
theorem Offered.signed {p p₁ p₂ : Endpoint} {suite : Dtls13CipherSuite} {buffer certificate : Bytes}
    {signed : DigitallySigned} {hash : HashAlgorithm} {algorithm : SignatureAlgorithm}
    (offered : Offered p) (isSuite : p.engine.cipherSuite = some suite)
    (read : Read .certificateVerify false p.engine p₁.engine (.certificateVerify signed) buffer)
    (first : p.peerCertificates.head? = some certificate) (endures : Endures False True p₁ p₂)
    (scheme : signatureSchemeToComponents signed.scheme = .ok (hash, algorithm))
    (verified : p.engine.config.cryptoProvider.verifySignature certificate
      (signedContent clientLabel
        (p.engine.config.cryptoProvider.hash suite.hashAlgorithm p.engine.transcript))
      (signed.signature buffer) hash algorithm = .ok ()) :
    PeerSigned clientLabel p₂.engine := by
  obtain ⟨through, presented, _, sent⟩ := offered
  obtain ⟨others, isList⟩ := List.head?_eq_some_iff.mp first
  obtain ⟨rest, parsed⟩ := read.parsed
  have isSuite₂ : p₂.engine.cipherSuite = some suite := by
    rw [endures.engine.suite id, read.frame.cipherSuite, isSuite]
  have grown := read.frame.log.trans endures.engine.log
  refine ⟨suite, through, certificate, others, p.engine.transcript, buffer, isSuite₂,
    (isList ▸ presented).mono grown, sent, read.heard.mono endures.engine.log, ?_, signed, rest,
    hash, algorithm, isSuite ▸ parsed, scheme, ?_⟩
  · rw [← read.transcript]
    exact endures.engine.transcript id
  · rw [endures.engine.config, read.frame.config]
    exact verified

theorem awaitCertificateVerify_post (has : Has due s.endpoint .awaitCertificateVerify) :
    Post awaitCertificateVerify s (fun next s' => s'.state = s.state ∧ Has due s'.endpoint next)
      (fun _ s' => Within False s s') := by
  unfold awaitCertificateVerify
  rw [post_bind, post_get, post_bind, withEngine_post]
  refine transcriptHash_post.mono ?_ ?_
  · rintro _ _ ⟨rfl, suite, isSuite, rfl⟩
    refine onMessage_post (s := s) ⟨rfl, has⟩ fun body buffer s₁ sameState read only => ?_
    have within : Within False s s₁ := read_endures read only
    split
    · unfold withEndpoint
      rw [post_bind, post_zoom]
      refine Endpoint.checkCertificateVerify_post.mono ?_ fun _ p' endures => ?_
      · rintro _ p' ⟨endures, certificate, hash, algorithm, first, scheme, verified⟩
        refine ⟨sameState, has.sign (IsTrans.trans _ _ _ within.endures (endures.weaken id fun _ => trivial)) ?_⟩
        rw [within.endures.certificates] at first
        rw [within.endures.engine.config] at verified
        exact (has.offered rfl).signed isSuite read first (endures.weaken id fun _ => trivial) scheme verified
      · exact ⟨sameState, IsTrans.trans _ _ _ within.endures (endures.weaken id fun _ => trivial)⟩
    · exact within
  · rintro _ _ rfl
    exact .refl s

/-- A client whose Finished matched: the connection is reported. -/
theorem Has.complete {p p' : Endpoint} (has : Has due p .awaitFinished) (endures : Endures False True p p')
    (finished : PeerFinished p'.clientHsTrafficSecret p'.engine) {localEvents : List LocalEvent} :
    Has due { p' with
      engine := p'.engine.flightStopResendTimers.releaseApplicationData
      localEvents } .awaitApplicationData := by
  have has' : Has due p' .awaitFinished := has.of_endures (endures.weaken False.elim id)
  have asked := has'.asked rfl
  have signed := has'.signed rfl
  exact
    { deadline := fun waits => by cases waits
      calm := fun _ => rfl
      suite := fun _ _ => has'.suite (by decide) (by decide)
      asked := fun _ => asked
      requested := fun isState => by simp at isState
      unoffered := fun waits => by cases waits
      offered := fun isState => by cases isState
      signed := fun _ => signed
      finished := fun _ => finished
      unreported := fun isHandshake => by cases isHandshake
      verified := fun _ => ⟨asked, signed, finished⟩ }

/-- A Finished that was read and is the verify data over the transcript before it. -/
theorem finished_of_read {p p₁ p₂ : Endpoint} {suite : Dtls13CipherSuite} {secret buffer : Bytes}
    {range : Range} (isSuite : p.engine.cipherSuite = some suite)
    (isSecret : p.clientHsTrafficSecret = some secret)
    (read : Read .finished false p.engine p₁.engine (.finished range) buffer)
    (endures : Endures False True p p₂) (grown : p₁.engine.transcript <+: p₂.engine.transcript)
    (logged : p₁.engine.log <+: p₂.engine.log)
    (equal : verifyDataOver p.engine.config.cryptoProvider suite secret p.engine.transcript =
      .ok (slice buffer range)) :
    PeerFinished p₂.clientHsTrafficSecret p₂.engine := by
  obtain ⟨rest, parsed⟩ := read.parsed
  refine ⟨suite, secret, p.engine.transcript, buffer, range, rest,
    (endures.engine.suite id).trans isSuite, (endures.secrets id).1.trans isSecret,
    read.heard.mono logged, ?_, isSuite ▸ parsed, ?_⟩
  · rw [← read.transcript]
    exact grown
  · rw [endures.engine.config]
    exact equal

theorem awaitFinished_post (has : Has due s.endpoint .awaitFinished) :
    Post awaitFinished s (fun next s' => s'.state = s.state ∧ Has due s'.endpoint next)
      (fun _ s' => Within False s s') := by
  unfold awaitFinished
  rw [post_bind, post_get, post_bind, post_get, post_bind, post_orThrow]
  refine ⟨fun secret isSecret => ?_, fun _ => .refl s⟩
  rw [post_bind, withEngine_post]
  refine computeVerifyData_post.mono ?_ ?_
  · rintro expected _ ⟨rfl, suite, isSuite, isExpected⟩
    refine onMessage_post (s := s) ⟨rfl, has⟩ fun body buffer s₁ sameState read only => ?_
    have within : Within False s s₁ := read_endures read only
    split
    · rename_i range
      unfold withEndpoint
      rw [post_bind, post_zoom]
      refine Endpoint.checkFinished_post.mono ?_ fun _ p' endures =>
        ⟨sameState, IsTrans.trans _ _ _ within.endures (endures.weaken id fun _ => trivial)⟩
      rintro _ p₂ ⟨checked, rfl⟩
      have endures : Endures False True s₁.endpoint p₂ := (checked.weaken id fun _ => trivial)
      rw [post_bind]
      have acked : Along (Within False) (withEngine sendAck) := withEngine_framed sendAck_frame
      refine (acked _).mono (fun _ s₃ ack => ?_) fun _ s₃ ack =>
        ⟨ack.state.trans sameState, IsTrans.trans _ _ _ within.endures
          (IsTrans.trans _ _ _ endures ack.endures)⟩
      have total : Endures False True s.endpoint s₃.endpoint :=
        IsTrans.trans _ _ _ within.endures (IsTrans.trans _ _ _ endures ack.endures)
      have grown := (endures.engine.transcript id).trans (ack.endures.engine.transcript id)
      have logged := endures.engine.log.trans ack.endures.engine.log
      have finished := finished_of_read isSuite isSecret read total grown logged isExpected
      have known : s₃.endpoint.engine.cipherSuite.isSome = true :=
        total.engine.known (has.suite (by decide) (by decide))
      rw [post_bind, withEngine_post, post_modify, post_bind, post_zoom]
      refine (Endpoint.completeHandshake_post
        (p := { s₃.endpoint with engine := s₃.engine.flightStopResendTimers }) known).mono ?_
        fun _ _ never => never.elim
      rintro _ _ ⟨localEvents, rfl⟩
      exact ⟨ack.state.trans sameState, has.complete total finished⟩
    · exact within
  · rintro _ _ rfl
    exact .refl s

/-- A certificate is asked for. -/
theorem Has.request {p : Endpoint} (has : Has due p .sendCertificateRequest) :
    Has due { p with clientAuthRequested := true } .sendCertificate where
  deadline := fun _ => has.deadline (State.waits_of_unoffered rfl _)
  calm := fun isOver => by cases isOver
  suite := fun _ _ => has.suite (by decide) (by decide)
  asked := fun _ _ => rfl
  requested := fun isState => by simp at isState
  unoffered := fun _ => has.unoffered rfl
  offered := fun isState => by cases isState
  signed := fun isSigned => by cases isSigned
  finished := fun isConnected => by cases isConnected
  unreported := fun _ => has.unreported rfl
  verified := fun reported => absurd reported (has.unreported rfl)

/-- A client that was not asked has nothing to offer. -/
theorem Has.unasked {p : Endpoint} (has : Has due p .sendFinished)
    (unasked : p.clientAuthRequested = false) : Has due p .awaitFinished where
  deadline := fun _ => has.deadline (State.waits_of_unoffered rfl _)
  calm := fun isOver => by simp [State.waits, State.stopped, State.inHandshake, unasked] at isOver
  suite := fun _ _ => has.suite (by decide) (by decide)
  asked := fun _ => has.asked rfl
  requested := fun isState => by simp at isState
  unoffered := fun waits => by cases waits
  offered := fun isState => by cases isState
  signed := fun _ requested => by simp [unasked] at requested
  finished := fun isConnected => by cases isConnected
  unreported := fun _ => has.unreported rfl
  verified := has.verified

/-- Closing keeps what was verified. -/
theorem Has.closed {p : Endpoint} {state : State} (has : Has due p state)
    (stopped : p.engine.connectTimeout = .disabled) : Has due p .closed where
  deadline := fun waits => by cases waits
  calm := fun _ => stopped
  suite := fun _ isOpen => absurd rfl isOpen
  asked := fun asked => by cases asked
  requested := fun isState => by simp at isState
  unoffered := fun waits => by cases waits
  offered := fun isState => by cases isState
  signed := fun isSigned => by cases isSigned
  finished := fun isConnected => by cases isConnected
  unreported := fun isHandshake => by cases isHandshake
  verified := has.verified

/-- Closing the own half keeps everything. -/
theorem Has.half_closed {p : Endpoint} (has : Has due p .awaitApplicationData) :
    Has due p .halfClosedLocal where
  deadline := fun waits => by cases waits
  calm := fun _ => has.calm rfl
  suite := fun _ _ => has.suite (by decide) (by decide)
  asked := fun _ => has.asked rfl
  requested := fun isState => by simp at isState
  unoffered := fun waits => by cases waits
  offered := fun isState => by cases isState
  signed := fun _ => has.signed rfl
  finished := fun _ => has.finished rfl
  unreported := fun isHandshake => by cases isHandshake
  verified := has.verified

/-- What a handler makes of what holds in a state. -/
abbrev Progresses (due : Promise) (state : State) (program : ServerM State) (s : Server) : Prop :=
  Post program s (fun next s' => s'.state = s.state ∧ Has due s'.endpoint next)
    (fun _ s' => s'.state = s.state ∧ Has due s'.endpoint state)

/-- A handler that stays within the endpoint and goes where what holds may go. -/
theorem progresses_of_leads {state : State} {program : ServerM State}
    (leads : Leads (Within early) program T) (has : Has due s.endpoint state)
    (isEarly : early → state.early = true)
    (goes : ∀ next s', T next s' → Has due s'.endpoint state → Has due s'.endpoint next) :
    Progresses due state program s := by
  refine (leads s).mono ?_ fun _ s' within =>
    ⟨within.state, has.of_endures (within.endures.weaken isEarly id)⟩
  rintro next s' ⟨within, leadsTo⟩
  exact ⟨within.state, goes next s' leadsTo (has.of_endures (within.endures.weaken isEarly id))⟩

/-- A handler that says what it does when it succeeds. -/
theorem progresses_of_post {state : State} {program : ServerM State}
    (post : Post program s (fun next s' => s'.state = s.state ∧ Has due s'.endpoint next)
      fun _ s' => Within False s s') (has : Has due s.endpoint state) : Progresses due state program s :=
  post.mono (fun _ _ done => done) fun _ _ within =>
    ⟨within.state, has.of_endures (within.endures.weaken False.elim id)⟩

theorem sendCertificateRequest_progresses (has : Has due s.endpoint .sendCertificateRequest) :
    Progresses due .sendCertificateRequest sendCertificateRequest s := by
  unfold Progresses sendCertificateRequest
  rw [post_bind]
  have sent : Along (Within False)
      (withEngine (createHandshake .certificateRequest (pure createCertificateRequest))) :=
    createHandshake_within along_pure
  refine (sent s).mono (fun _ s' within => ?_) fun _ s' within =>
    ⟨within.state, has.of_endures (within.endures.weaken False.elim id)⟩
  exact ⟨within.state, (has.of_endures (within.endures.weaken False.elim id)).request⟩

/-- Every handler leads to a state in which what has to hold does. -/
theorem makeProgress_progresses {state : State} (has : Has due s.endpoint state) :
    Progresses due state state.makeProgress s := by
  cases state with
  | awaitClientHello =>
      refine progresses_of_leads awaitClientHello_leads has (fun _ => rfl) fun next s' leads has => ?_
      rcases leads with rfl | ⟨rfl, known⟩
      · exact has
      · exact has.before_offer rfl rfl known (fun asked => by cases asked) State.noConfusion
  | sendServerHello =>
      refine progresses_of_leads sendServerHello_leads has (fun _ => rfl) ?_
      rintro next s' rfl has
      exact has.before_offer rfl rfl (has.suite (by decide) (by decide))
        (fun asked => by cases asked) State.noConfusion
  | sendEncryptedExtensions =>
      refine progresses_of_leads sendEncryptedExtensions_leads has False.elim ?_
      rintro next s' rfl has
      have known := has.suite (by decide) (by decide)
      split
      · exact has.before_offer rfl rfl known (fun asked => by cases asked) State.noConfusion
      · rename_i optional
        exact has.before_offer rfl rfl known (fun _ required => absurd required optional)
          State.noConfusion
  | sendCertificateRequest => exact sendCertificateRequest_progresses has
  | sendCertificate =>
      refine progresses_of_leads sendCertificate_leads has False.elim ?_
      rintro next s' rfl has
      exact has.before_offer rfl rfl (has.suite (by decide) (by decide)) (fun _ => has.asked rfl)
        State.noConfusion
  | sendCertificateVerify =>
      refine progresses_of_leads sendCertificateVerify_leads has False.elim ?_
      rintro next s' rfl has
      exact has.before_offer rfl rfl (has.suite (by decide) (by decide)) (fun _ => has.asked rfl)
        State.noConfusion
  | sendFinished =>
      refine progresses_of_leads sendFinished_leads has False.elim ?_
      rintro next s' rfl has
      split
      · rename_i requested
        exact has.before_offer rfl rfl (has.suite (by decide) (by decide)) (fun _ => has.asked rfl)
          fun _ => requested
      · rename_i unasked
        exact has.unasked (by simpa using unasked)
  | awaitCertificate => exact progresses_of_post (awaitCertificate_post has) has
  | awaitCertificateVerify => exact progresses_of_post (awaitCertificateVerify_post has) has
  | awaitFinished => exact progresses_of_post (awaitFinished_post has) has
  | awaitApplicationData =>
      refine progresses_of_leads awaitApplicationData_leads has False.elim ?_
      rintro next s' rfl has
      exact has
  | halfClosedLocal =>
      refine progresses_of_leads halfClosedLocal_leads has False.elim ?_
      rintro next s' (rfl | rfl) has
      · exact has.closed (has.calm rfl)
      · exact has
  | closed => exact ⟨rfl, has⟩

theorem progressLoop_inv {fuel : Nat} (inv : Inv due s) :
    Post (progressLoop fuel) s (fun _ s' => Inv due s') (fun _ s' => Inv due s') := by
  induction fuel generalizing s with
  | zero => exact inv
  | succ fuel inductionHypothesis =>
      unfold progressLoop
      rw [post_bind, post_get]
      dsimp only
      rw [post_bind]
      refine (makeProgress_progresses inv).mono ?_ ?_
      · rintro next s' ⟨sameState, has⟩
        rw [post_ite]
        refine ⟨fun same => ?_, fun _ => ?_⟩
        · rw [same, ← sameState] at has
          exact has
        · rw [post_bind, post_modify]
          exact inductionHypothesis has
      · rintro _ s' ⟨sameState, has⟩
        rw [← sameState] at has
        exact has

end Handlers

section Runs

variable {due due' : Promise} {s : Server}

theorem Start.inv (start : Start s) (promised : due s.engine.config.handshakeTimeout .unarmed) :
    Inv due s := by
  cases start with
  | fresh config certificate rng rng' entropy now autoMode =>
      have silent : ¬Reported (Endpoint.new
          { Engine.new config certificate rng with rng := (rng'.randomBytes 32).2 } entropy now) := by
        rintro (released | event)
        · cases released
        · cases event
      exact
        { deadline := fun _ => promised
          calm := fun isOver => by cases isOver
          suite := fun known => absurd rfl known
          asked := fun asked => by cases asked
          requested := fun isState => by rcases isState with isState | isState <;> cases isState
          unoffered := fun _ => rfl
          offered := fun isState => by cases isState
          signed := fun isSigned => by cases isSigned
          finished := fun isConnected => by cases isConnected
          unreported := fun _ => silent
          verified := fun reported => absurd reported silent }

/-- A program that keeps the endpoint keeps the invariant. -/
theorem Inv.of_within {s' : Server} (inv : Inv due s) (within : Within False s s') : Inv due s' := by
  have has : Has due s'.endpoint s.state := Has.of_endures inv (within.endures.weaken False.elim id)
  rw [← within.state] at has
  exact has

theorem inv_of_along {α : Type} {program : ServerM α} (inv : Inv due s)
    (along : Along (Within False) program) :
    Post program s (fun _ s' => Inv due s') (fun _ s' => Inv due s') :=
  (along s).mono (fun _ _ => inv.of_within) fun _ _ => inv.of_within

theorem handlePacket_inv {packet : Bytes} (inv : Inv due s) :
    Post (handlePacket packet) s (fun _ s' => Inv due s') (fun _ s' => Inv due s') := by
  unfold handlePacket
  rw [post_bind]
  refine (inv_of_along inv retainHello_within).mono (fun _ s₁ inv₁ => ?_) fun _ _ kept => kept
  rw [post_publicResult, post_bind]
  have received : Along (Within False) (withEngine (receivePacket packet)) :=
    withEngine_framed receivePacket_frame
  refine (inv_of_along inv₁ received).mono (fun _ s₂ inv₂ => ?_) fun fault _ kept => by
    cases fault <;> exact kept
  rw [post_bind]
  refine (progressLoop_inv inv₂).mono (fun _ s₃ inv₃ => ?_) fun fault _ kept => by
    cases fault <;> exact kept
  rw [post_modify]
  unfold commitVersion
  split
  · exact inv₃
  · exact inv₃

/-- A promise may be another one. -/
theorem Has.promise {p : Endpoint} {state : State} (has : Has due p state)
    (weaker : ∀ period timer, due period timer → due' period timer) : Has due' p state :=
  { has with deadline := fun waits => weaker _ _ (has.deadline waits) }

/-- Arming the timers keeps what holds. -/
theorem Has.armed {p : Endpoint} {state : State} {now : Instant} (has : Has due p state)
    (arms : Promise.Arms (some now) due due') :
    Has due' { p with engine := p.engine.armTimers now } state where
  deadline := fun waits => by
    rw [Engine.armTimers_connect]
    exact arms _ _ (has.deadline waits)
  calm := fun isOver => by
    rw [Engine.armTimers_connect, has.calm isOver]
    rfl
  suite := has.suite
  asked := has.asked
  requested := has.requested
  unoffered := has.unoffered
  offered := has.offered
  signed := has.signed
  finished := has.finished
  unreported := has.unreported
  verified := fun reported =>
    have before := has.verified reported
    ⟨before.asked, before.signed, before.finished⟩

theorem handleTimeout_inv {now : Instant} (inv : Inv due s)
    (arms : Promise.Arms (some now) due due') :
    Post (Server.handleTimeout now) s (fun _ s' => Inv due' s') (fun _ s' => Inv due' s') := by
  unfold Server.handleTimeout withEndpoint
  rw [post_bind, post_zoom]
  have armed : Has due' { s.endpoint with engine := s.endpoint.engine.armTimers now } s.state :=
    Has.armed inv arms
  refine Endpoint.handleTimeout_endures.mono (fun _ p endures => ?_) fun _ p endures =>
    armed.of_endures endures
  have inv' : Inv due' { s with endpoint := p } := armed.of_endures endures
  rw [post_publicResult]
  exact (progressLoop_inv inv').mono (fun _ _ kept => kept) fun fault _ kept => by
    cases fault <;> exact kept

theorem pollOutput_inv {bufLen : Nat} (inv : Inv due s) :
    Post (Server.pollOutput bufLen) s (fun _ s' => Inv due s') (fun _ s' => Inv due s') :=
  inv_of_along inv (withEndpoint_within Endpoint.pollOutput_endures)

theorem sendApplicationData_inv {data : Bytes} (inv : Inv due s) :
    Post (sendApplicationData data) s (fun _ s' => Inv due s') (fun _ s' => Inv due s') := by
  refine inv_of_along inv (along_bind along_get fun s => ?_)
  refine along_ite (fun _ => along_throw) fun _ => along_ite (fun _ => ?_) fun _ => ?_
  · exact withEndpoint_within Endpoint.queueData_endures
  · exact withEndpoint_within Endpoint.sendData_endures

theorem close_inv (inv : Inv due s) : Post close s (fun _ s' => Inv due s') (fun _ s' => Inv due s') := by
  unfold close
  rw [post_bind, post_get, post_ite]
  refine ⟨fun _ => inv, fun _ => ?_⟩
  rw [post_ite]
  refine ⟨fun _ => ?_, fun isOpen => ?_⟩
  · rw [post_bind, withEngine_post, post_modify, post_modify]
    have aborted : Has due { s.endpoint with engine := s.engine.abort } .closed :=
      { deadline := fun waits => by cases waits
        calm := fun _ => rfl
        suite := fun _ isOpen => absurd rfl isOpen
        asked := fun asked => by cases asked
        requested := fun isState => by simp at isState
        unoffered := fun waits => by cases waits
        offered := fun isState => by cases isState
        signed := fun isSigned => by cases isSigned
        finished := fun isConnected => by cases isConnected
        unreported := fun isHandshake => by cases isHandshake
        verified := fun reported =>
          have before := Has.verified inv reported
          ⟨before.asked, before.signed, before.finished⟩ }
    exact aborted
  · have isState : s.state = .awaitApplicationData := not_not.mp isOpen
    unfold withEndpoint Endpoint.closeWrite
    rw [post_bind, post_zoom, post_bind, post_get, post_bind]
    have sent : Along (Endures False True) (Endpoint.withEngine
        (createCiphertextRecord .alert s.endpoint.engine.appSendEpoch false closeNotifyAlert)) :=
      Endpoint.withEngine_framed createCiphertextRecord_frame
    have has : Has due s.endpoint .awaitApplicationData := isState ▸ inv
    refine (sent s.endpoint).mono (fun _ p endures => ?_) fun _ p endures => ?_
    · have kept := (has.of_endures (endures.weaken False.elim id)).half_closed
      exact { kept with
        calm := fun _ => rfl
        deadline := fun waits => by cases waits
        verified := fun reported =>
          have before := kept.verified reported
          ⟨before.asked, before.signed, before.finished⟩ }
    · exact Has.of_endures inv (endures.weaken False.elim id)

/-- Every call keeps the invariant, whether it succeeds or not. -/
theorem exec_inv (inv : Inv due s) {call : Call} (arms : Promise.Arms call.tick due due') :
    Inv due' (s.exec call) := by
  have later : call.tick = none → Inv due' s := fun unticked =>
    Has.promise inv fun period timer promised => by
      have armed := arms period timer promised
      rwa [unticked, Timeout.arm_none] at armed
  apply post_state.mp
  cases call with
  | handlePacket packet => exact handlePacket_inv (later rfl)
  | handleTimeout now => exact handleTimeout_inv inv arms
  | pollOutput bufLen =>
      exact post_bind.mpr ((pollOutput_inv (later rfl)).mono (fun _ _ kept => kept)
        fun _ _ kept => kept)
  | sendApplicationData data => exact sendApplicationData_inv (later rfl)
  | close => exact close_inv (later rfl)

theorem Reached.inv (reached : Reached s) : Inv Promise.isSet s := by
  obtain ⟨start, calls, isStart, rfl⟩ := reached
  have preserved : ∀ (s : Server) (call : Call), Inv Promise.isSet s → True →
      Inv Promise.isSet (s.exec call) := fun _ _ inv _ => exec_inv inv Promise.isSet_arms
  exact run_invariant preserved (isStart.inv Timeout.noConfusion) (Meets.of_all fun _ _ => trivial)

end Runs

end Server

end Dimpl.Dtls13
