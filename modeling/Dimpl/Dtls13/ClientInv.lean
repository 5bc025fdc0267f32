import Dimpl.Dtls13.Authentication
import Dimpl.Dtls13.ClientRun

/-!
# What a client knows

What a client has checked in each of its states, and that its handshake deadline is
set as long as the handshake lasts, in every run. The transcript a check is over
ends with the message in front of it, unless a message of the same kind was put
together before and not accepted: such a message stays in the transcript.
-/

namespace Dimpl.Dtls13

open Nom Program

/-- How often a message of a type was put together. -/
def Engine.timesRead (e : Engine) (type : MessageType) : Nat := e.readTypes.count type

/-- The transcript ends with a CertificateVerify of the peer that verifies, under the first
certificate of the Certificate right in front of it, over the transcript through
that Certificate. -/
def SignedThrough (label : String) (provider : CryptoProvider) (suite : Dtls13CipherSuite)
    (log : List Event) (transcript : Bytes) : Prop :=
  ∃ through certificate others body, Presented log through (certificate :: others) ∧
    Heard log .certificateVerify body ∧ transcript = through ++ transcriptMessage .certificateVerify body ∧
      Verifies label provider suite certificate through body

/-- The server has signed, and its Finished is the verify data over the transcript
through its CertificateVerify. -/
def ServerVerified (p : Endpoint) : Prop :=
  ∃ suite key before body range rest, p.engine.cipherSuite = some suite ∧
    p.serverHsTrafficSecret = some key ∧
      SignedThrough serverLabel p.engine.config.cryptoProvider suite p.engine.log before ∧
      Heard p.engine.log .finished body ∧ before ++ transcriptMessage .finished body <+: p.engine.transcript ∧
      Nom.parse (Body.parseWithOptions 0 .finished (some suite) false) body =
        .ok (.finished range, rest) ∧
      verifyDataOver p.engine.config.cryptoProvider suite key before = .ok (slice body range)

theorem SignedThrough.mono {label : String} {provider : CryptoProvider} {suite : Dtls13CipherSuite}
    {log log' : List Event} {transcript : Bytes}
    (signed : SignedThrough label provider suite log transcript) (grown : log <+: log') :
    SignedThrough label provider suite log' transcript := by
  obtain ⟨through, certificate, others, body, presented, heard, isMessage⟩ := signed
  exact ⟨through, certificate, others, body, presented.mono grown, heard.mono grown, isMessage⟩

namespace Client

/-- Whether the handshake is under way: neither over nor given up. -/
def State.inHandshake (state : State) : Bool :=
  state ≠ .awaitApplicationData && state ≠ .halfClosedLocal && state ≠ .closed

/-- Whether suite, secrets and transcript are still open. -/
def State.early (state : State) : Bool := state = .sendClientHello || state = .awaitServerHello

/-- Whether the server's certificate is still to come. -/
def State.unoffered (state : State) : Bool :=
  state.early || state = .awaitEncryptedExtensions || state = .awaitCertificateRequest ||
    state = .awaitCertificate

/-- Whether a check over the transcript is next. -/
def State.checks (state : State) : Bool :=
  state = .awaitCertificateVerify || state = .awaitFinished

/-- Whether the server's Finished is behind a state. -/
def State.finished (state : State) : Bool :=
  !state.unoffered && !state.checks && state ≠ .closed

/-- The server is verified, unless a CertificateVerify or a Finished was put together
twice. -/
def Checked (p : Endpoint) : Prop :=
  p.engine.timesRead .certificateVerify ≤ 1 → p.engine.timesRead .finished ≤ 1 → ServerVerified p

/-- What holds in a state. What is promised of the deadline is open. -/
structure Has (due : Promise) (p : Endpoint) (state : State) : Prop where
  deadline : state.inHandshake = true →
    due p.engine.config.handshakeTimeout p.engine.connectTimeout
  suite : state.early = false → state ≠ .closed → p.engine.cipherSuite.isSome = true
  unoffered : state.unoffered = true → p.peerCertificates = []
  offered : state = .awaitCertificateVerify → p.engine.timesRead .certificateVerify = 0 →
    Presented p.engine.log p.engine.transcript p.peerCertificates
  signed : state = .awaitFinished → p.engine.timesRead .certificateVerify ≤ 1 →
    p.engine.timesRead .finished = 0 →
      ∃ suite, p.engine.cipherSuite = some suite ∧
        SignedThrough serverLabel p.engine.config.cryptoProvider suite p.engine.log
          p.engine.transcript
  finished : state.finished = true → Checked p
  unreported : state.inHandshake = true → ¬Reported p
  verified : Reported p → Checked p

/-- The invariant of a client. -/
def Inv (due : Promise) (c : Client) : Prop := Has due c.endpoint c.state

section Lasting

variable {due : Promise} {early busy : Prop} {p p' : Endpoint} {state : State}

theorem timesRead_mono (log : p.engine.log <+: p'.engine.log) (type : MessageType) :
    p.engine.timesRead type ≤ p'.engine.timesRead type :=
  (log.filterMap _).sublist.count_le _

theorem Checked.mono (checked : Checked p) (endures : Endures early busy p p') (late : ¬early) :
    Checked p' := by
  intro once onceFinished
  have times := timesRead_mono endures.engine.log
  obtain ⟨suite, key, before, body, range, rest, isSuite, isKey, signed, heard, sent, parsed, equal⟩ :=
    checked ((times _).trans once) ((times _).trans onceFinished)
  refine ⟨suite, key, before, body, range, rest, (endures.engine.suite late).trans isSuite,
    (endures.secrets late).2.trans isKey, ?_, heard.mono endures.engine.log,
    sent.trans (endures.engine.transcript late), parsed, ?_⟩
  · rw [endures.engine.config]
    exact signed.mono endures.engine.log
  · rw [endures.engine.config]
    exact equal

/-- What holds in a state keeps holding, when what the next check rests on does. -/
theorem Has.keep (has : Has due p state) (endures : Endures (state.early = true) True p p')
    (offered : state = .awaitCertificateVerify → p'.engine.timesRead .certificateVerify = 0 →
      p'.engine.transcript = p.engine.transcript ∧ p'.engine.readTypes = p.engine.readTypes)
    (signed : state = .awaitFinished → p'.engine.timesRead .finished = 0 →
      p'.engine.transcript = p.engine.transcript ∧ p'.engine.readTypes = p.engine.readTypes) :
    Has due p' state where
  deadline := fun isHandshake => endures.engine.due (has.deadline isHandshake)
  suite := fun late isOpen => endures.engine.known (has.suite late isOpen)
  unoffered := fun waits => endures.certificates.trans (has.unoffered waits)
  offered := fun isState unread => by
    obtain ⟨transcript, readTypes⟩ := offered isState unread
    rw [Engine.timesRead, readTypes] at unread
    rw [transcript, endures.certificates]
    exact (has.offered isState unread).mono endures.engine.log
  signed := fun isState once unread => by
    obtain ⟨transcript, readTypes⟩ := signed isState unread
    rw [Engine.timesRead, readTypes] at once unread
    rw [transcript, endures.engine.config, endures.engine.suite (by rw [isState]; decide)]
    obtain ⟨suite, isSuite, signedThrough⟩ := has.signed isState once unread
    exact ⟨suite, isSuite, signedThrough.mono endures.engine.log⟩
  finished := fun isFinished => by
    refine (has.finished isFinished).mono endures fun isEarly => ?_
    cases state <;> simp_all [State.early, State.finished, State.unoffered]
  unreported := fun under reported => has.unreported under (reported.before endures)
  verified := fun reported => by
    have before := reported.before endures
    refine (has.verified before).mono endures fun isEarly => has.unreported ?_ before
    cases state <;> simp_all [State.early, State.inHandshake]

/-- What holds in a state keeps holding; where a check is next, as long as nothing is
read. -/
theorem Has.of_endures (has : Has due p state)
    (endures : Endures (state.early = true) (state.checks = false) p p') : Has due p' state := by
  refine has.keep (endures.weaken id fun _ => trivial) (fun isState _ => ?_) fun isState _ => ?_
  · exact endures.engine.still (by rw [isState]; decide) (by rw [isState]; decide)
  · exact endures.engine.still (by rw [isState]; decide) (by rw [isState]; decide)

/-- A move among the states before the server's certificate. -/
theorem Has.before_offer {next : State} (has : Has due p state) (waits : state.unoffered = true)
    (nextWaits : next.unoffered = true)
    (suite : next.early = false → p.engine.cipherSuite.isSome = true) : Has due p next where
  deadline := fun _ => has.deadline (by cases state <;> simp_all [State.unoffered, State.early, State.inHandshake])
  suite := fun late _ => suite late
  unoffered := fun _ => has.unoffered waits
  offered := fun isNext => by
    subst isNext
    cases nextWaits
  signed := fun isNext => by
    subst isNext
    cases nextWaits
  finished := fun isFinished => by simp [State.finished, nextWaits] at isFinished
  unreported := fun _ =>
    has.unreported (by cases state <;> simp_all [State.unoffered, State.early, State.inHandshake])
  verified := has.verified

/-- A move among the states behind the server's Finished and before the own one. -/
theorem Has.after_finished {next : State} (has : Has due p state) (isFinished : state.finished = true)
    (under : state.inHandshake = true) (nextFinished : next.finished = true) : Has due p next where
  deadline := fun _ => has.deadline under
  suite := fun _ _ => has.suite (by cases state <;> simp_all [State.finished, State.unoffered, State.early])
    (by rintro rfl; cases isFinished)
  unoffered := fun waits => by simp [State.finished, waits] at nextFinished
  offered := fun isNext => by
    subst isNext
    cases nextFinished
  signed := fun isNext => by
    subst isNext
    cases nextFinished
  finished := fun _ => has.finished isFinished
  unreported := fun _ => has.unreported under
  verified := has.verified

/-- The client does not say that it was asked for a certificate. -/
theorem Has.requested (has : Has due p state) :
    Has due { p with clientAuthRequested := true } state where
  deadline := has.deadline
  suite := has.suite
  unoffered := has.unoffered
  offered := has.offered
  signed := has.signed
  finished := has.finished
  unreported := has.unreported
  verified := has.verified

/-- A message that was not accepted: a check that is next has lost its transcript. -/
theorem Has.missed {wanted : MessageType} {engine : Engine} (has : Has due p state)
    (missed : Missed wanted p.engine engine)
    (next : state = .awaitCertificateVerify → wanted = .certificateVerify)
    (last : state = .awaitFinished → wanted = .finished) :
    Has due { p with engine } state := by
  have endures : Endures (state.early = true) True p { p with engine } :=
    Endpoint.endures_engine missed.frame.steady
  rcases missed.trace with same | ⟨buffer, -, readTypes⟩
  · exact has.keep endures (fun _ _ => same) fun _ _ => same
  · refine has.keep endures (fun isState unread => ?_) fun isState unread => ?_
    · simp [Engine.timesRead, readTypes, next isState] at unread
    · simp [Engine.timesRead, readTypes, last isState] at unread

end Lasting

section Handlers

variable {due : Promise} {early : Prop} {c : Client}
  {T : State → Client → Prop}

/-- What a handler makes of what holds in a state. -/
abbrev Progresses (due : Promise) (state : State) (program : ClientM State)
    (c : Client) : Prop :=
  Post program c (fun next c' => c'.state = c.state ∧ Has due c'.endpoint next)
    (fun _ c' => c'.state = c.state ∧ Has due c'.endpoint state)

/-- A handler that stays within the endpoint and goes where what holds may go. -/
theorem progresses_of_leads {state : State} {program : ClientM State}
    (leads : Leads (Within early True) program T) (has : Has due c.endpoint state)
    (isEarly : early → state.early = true) (unchecked : state.checks = false)
    (goes : ∀ next c', T next c' → Has due c'.endpoint state → Has due c'.endpoint next) :
    Progresses due state program c := by
  have kept : ∀ c', Within early True c c' → Has due c'.endpoint state := fun c' within =>
    has.of_endures (within.endures.weaken isEarly fun _ => unchecked)
  refine (leads c).mono ?_ fun _ c' within => ⟨within.state, kept c' within⟩
  rintro next c' ⟨within, leadsTo⟩
  exact ⟨within.state, goes next c' leadsTo (kept c' within)⟩

theorem awaitCertificateRequest_progresses (has : Has due c.endpoint .awaitCertificateRequest) :
    Progresses due .awaitCertificateRequest awaitCertificateRequest c := by
  have known := has.suite rfl (by decide)
  unfold Progresses awaitCertificateRequest
  rw [post_bind, post_get, post_ite]
  refine ⟨fun _ => ⟨rfl, has.before_offer rfl rfl fun _ => known⟩, fun _ => ?_⟩
  refine onHandshake_post ⟨rfl, has⟩ (fun engine missed => ?_) fun body buffer engine read => ?_
  · exact ⟨rfl, has.missed missed (fun isState => by cases isState) fun isState => by cases isState⟩
  · have endures : Endures False True c.endpoint { c.endpoint with engine } :=
      Endpoint.endures_engine read.frame.steady
    have kept : Has due { c.endpoint with engine } .awaitCertificateRequest :=
      has.of_endures (endures.weaken False.elim fun _ => rfl)
    split
    · split
      · exact ⟨rfl, kept⟩
      · rw [post_bind, post_modify]
        have advanced : Has due { c.endpoint with engine := engine.advancePeerHandshakeSeq }
            .awaitCertificateRequest :=
          kept.of_endures (Endpoint.endures_engine advancePeerHandshakeSeq_steady)
        exact ⟨rfl, advanced.requested.before_offer rfl rfl fun _ => advanced.suite rfl (by decide)⟩
    · exact ⟨rfl, kept⟩

/-- The server's certificates end the transcript. -/
theorem Has.offer {p p' : Endpoint} (has : Has due p .awaitCertificate) {list : List Bytes}
    (presented : Presented p.engine.log p.engine.transcript list)
    (taken : p'.peerCertificates = p.peerCertificates ++ list)
    (endures : Endures False False p { p' with peerCertificates := p.peerCertificates }) :
    Has due p' .awaitCertificateVerify := by
  have isList : p'.peerCertificates = list := by simpa [has.unoffered rfl] using taken
  have silent : ¬Reported p' := fun reported => by
    have same : Reported { p' with peerCertificates := p.peerCertificates } := reported
    exact has.unreported rfl (same.before endures)
  have transcript : p'.engine.transcript = p.engine.transcript := (endures.engine.still id id).1
  exact
    { deadline := fun _ => endures.engine.due (has.deadline rfl)
      suite := fun _ _ => endures.engine.known (has.suite rfl (by decide))
      unoffered := fun waits => by cases waits
      offered := fun _ _ => by
        rw [transcript, isList]
        exact presented.mono endures.engine.log
      signed := fun isState => by cases isState
      finished := fun isFinished => by cases isFinished
      unreported := fun _ => silent
      verified := fun reported => absurd reported silent }

theorem awaitCertificate_progresses (has : Has due c.endpoint .awaitCertificate) :
    Progresses due .awaitCertificate awaitCertificate c := by
  refine onHandshake_post ⟨rfl, has⟩ (fun engine missed => ?_) fun body buffer engine read => ?_
  · exact ⟨rfl, has.missed missed (fun isState => by cases isState) fun isState => by cases isState⟩
  · have endures : Endures False True c.endpoint { c.endpoint with engine } :=
      Endpoint.endures_engine read.frame.steady
    have kept : Has due { c.endpoint with engine } .awaitCertificate :=
      has.of_endures (endures.weaken False.elim fun _ => rfl)
    split
    · rename_i certificate
      obtain ⟨rest, parsed⟩ := read.parsed
      rw [post_ite, post_ite]
      refine ⟨fun _ => ⟨rfl, kept⟩, fun _ => ⟨fun _ => ⟨rfl, kept⟩, fun _ => ?_⟩⟩
      unfold withEndpoint
      rw [post_bind, post_zoom]
      refine Endpoint.takeCertificates_post.mono (fun _ p' taken => ?_) fun _ _ never => never.elim
      have presented : Presented engine.log engine.transcript
          (certificate.certificateList.map fun entry => slice buffer entry.cert) :=
        ⟨c.engine.transcript, buffer, c.engine.cipherSuite, certificate, rest, read.heard,
          read.transcript, parsed, rfl⟩
      have offered := kept.offer presented taken.1 taken.2
      exact ⟨rfl, offered.of_endures (Endpoint.endures_engine advancePeerHandshakeSeq_steady)⟩
    · exact ⟨rfl, kept⟩

/-- The server has signed; nothing was read in between. -/
theorem Has.sign {p p' : Endpoint} (has : Has due p .awaitCertificateVerify)
    (endures : Endures False True p p')
    (signed : p'.engine.timesRead .certificateVerify ≤ 1 →
      ∃ suite, p'.engine.cipherSuite = some suite ∧
        SignedThrough serverLabel p'.engine.config.cryptoProvider suite p'.engine.log
          p'.engine.transcript) :
    Has due p' .awaitFinished := by
  have silent : ¬Reported p' := fun reported => has.unreported rfl (reported.before endures)
  exact
    { deadline := fun _ => endures.engine.due (has.deadline rfl)
      suite := fun _ _ => endures.engine.known (has.suite rfl (by decide))
      unoffered := fun waits => by cases waits
      offered := fun isState => by cases isState
      signed := fun _ once _ => signed once
      finished := fun isFinished => by cases isFinished
      unreported := fun _ => silent
      verified := fun reported => absurd reported silent }

/-- A CertificateVerify that was accepted leaves the transcript of the next check. -/
theorem Has.signed_through {p p' : Endpoint} {engine : Engine} {suite : Dtls13CipherSuite}
    {buffer certificate : Bytes} {signed : DigitallySigned} {hash : HashAlgorithm}
    {algorithm : SignatureAlgorithm} (has : Has due p .awaitCertificateVerify)
    (isSuite : p.engine.cipherSuite = some suite)
    (read : Read .certificateVerify false p.engine engine (.certificateVerify signed) buffer)
    (endures : Endures False False { p with engine } p')
    (first : p.peerCertificates.head? = some certificate)
    (scheme : signatureSchemeToComponents signed.scheme = .ok (hash, algorithm))
    (verified : p.engine.config.cryptoProvider.verifySignature certificate
      (signedContent serverLabel
        (p.engine.config.cryptoProvider.hash suite.hashAlgorithm p.engine.transcript))
      (signed.signature buffer) hash algorithm = .ok ())
    (once : p'.engine.timesRead .certificateVerify ≤ 1) :
    ∃ suite, p'.engine.cipherSuite = some suite ∧
      SignedThrough serverLabel p'.engine.config.cryptoProvider suite p'.engine.log
        p'.engine.transcript := by
  obtain ⟨transcript, readTypes⟩ := endures.engine.still id id
  have unread : p.engine.timesRead .certificateVerify = 0 := by
    rw [Engine.timesRead, readTypes, read.readTypes, List.count_append] at once
    simpa [Engine.timesRead] using once
  obtain ⟨others, isList⟩ := List.head?_eq_some_iff.mp first
  obtain ⟨rest, parsed⟩ := read.parsed
  refine ⟨suite, ?_, p.engine.transcript, certificate, others, buffer, ?_,
    read.heard.mono endures.engine.log, ?_, signed, rest, hash, algorithm, isSuite ▸ parsed, scheme,
    ?_⟩
  · exact ((endures.engine.suite id).trans read.frame.cipherSuite).trans isSuite
  · rw [← isList]
    exact (has.offered rfl unread).mono (read.frame.log.trans endures.engine.log)
  · exact transcript.trans read.transcript
  · rw [endures.engine.config, read.frame.config]
    exact verified

theorem awaitCertificateVerify_progresses (has : Has due c.endpoint .awaitCertificateVerify) :
    Progresses due .awaitCertificateVerify awaitCertificateVerify c := by
  unfold Progresses awaitCertificateVerify
  rw [post_bind, post_get, post_bind, withEngine_post]
  refine transcriptHash_post.mono ?_ ?_
  · rintro _ _ ⟨rfl, suite, isSuite, rfl⟩
    refine onHandshake_post (c := c) ⟨rfl, has⟩ (fun engine missed => ?_)
      fun body buffer engine read => ?_
    · exact ⟨rfl, has.missed missed (fun _ => rfl) fun isState => by cases isState⟩
    · have endures : Endures False True c.endpoint { c.endpoint with engine } :=
        Endpoint.endures_engine read.frame.steady
      -- The message is read: the transcript of this check is gone.
      have refused : ∀ p', Endures False False { c.endpoint with engine } p' →
          Has due p' .awaitCertificateVerify := by
        intro p' kept
        have total := IsTrans.trans _ _ _ endures (kept.weaken id fun _ => trivial)
        refine has.keep (total.weaken False.elim id) (fun _ unread => ?_) fun isState => by cases isState
        rw [Engine.timesRead, (kept.engine.still id id).2, read.readTypes] at unread
        simp at unread
      split
      · unfold withEndpoint
        rw [post_bind, post_zoom]
        refine Endpoint.checkCertificateVerify_post.mono ?_ fun _ p' kept => ⟨rfl, refused p' kept⟩
        rintro _ p' ⟨kept, certificate, hash, algorithm, first, scheme, verified⟩
        refine ⟨rfl, has.sign (IsTrans.trans _ _ _ endures (kept.weaken id fun _ => trivial)) ?_⟩
        rw [endures.engine.config] at verified
        exact has.signed_through isSuite read kept first scheme verified
      · exact ⟨rfl, refused _ (.refl _)⟩
  · rintro _ _ rfl
    exact ⟨rfl, has⟩

/-- The server's Finished matched; nothing was read in between. -/
theorem Has.finish {p p' : Endpoint} {next : State} (has : Has due p .awaitFinished)
    (endures : Endures False True p p') (checked : Checked p')
    (isNext : next = .sendCertificate ∨ next = .sendFinished) : Has due p' next := by
  have silent : ¬Reported p' := fun reported => has.unreported rfl (reported.before endures)
  have known := endures.engine.known (has.suite rfl (by decide))
  exact
    { deadline := fun _ => endures.engine.due (has.deadline rfl)
      suite := fun _ _ => known
      unoffered := fun waits => by rcases isNext with rfl | rfl <;> cases waits
      offered := fun isState => by rcases isNext with rfl | rfl <;> cases isState
      signed := fun isState => by rcases isNext with rfl | rfl <;> cases isState
      finished := fun _ => checked
      unreported := fun _ => silent
      verified := fun reported => absurd reported silent }

/-- A Finished that was accepted is over the transcript through the
CertificateVerify. -/
theorem Has.checked {p p' : Endpoint} {engine : Engine} {suite : Dtls13CipherSuite}
    {secret buffer : Bytes} {range : Range} (has : Has due p .awaitFinished)
    (isSuite : p.engine.cipherSuite = some suite) (isSecret : p.serverHsTrafficSecret = some secret)
    (read : Read .finished false p.engine engine (.finished range) buffer)
    (endures : Endures False False { p with engine } p')
    (equal : verifyDataOver p.engine.config.cryptoProvider suite secret p.engine.transcript =
      .ok (slice buffer range)) : Checked p' := by
  intro once onceFinished
  obtain ⟨transcript, readTypes⟩ := endures.engine.still id id
  have times : ∀ type, p'.engine.timesRead type =
      p.engine.timesRead type + [MessageType.finished].count type := by
    intro type
    rw [Engine.timesRead, readTypes, read.readTypes, List.count_append]
    rfl
  have unread : p.engine.timesRead .finished = 0 := by
    rw [times] at onceFinished
    simpa using onceFinished
  have signed : p.engine.timesRead .certificateVerify ≤ 1 := by
    rw [times] at once
    exact once
  obtain ⟨rest, parsed⟩ := read.parsed
  obtain ⟨suite', isSuite', signedThrough⟩ := has.signed rfl signed unread
  cases isSuite.symm.trans isSuite'
  refine ⟨suite, secret, p.engine.transcript, buffer, range, rest, ?_, ?_, ?_,
    read.heard.mono endures.engine.log, ?_, isSuite ▸ parsed, ?_⟩
  · exact ((endures.engine.suite id).trans read.frame.cipherSuite).trans isSuite
  · exact (endures.secrets id).2.trans isSecret
  · rw [endures.engine.config, read.frame.config]
    exact signedThrough.mono (read.frame.log.trans endures.engine.log)
  · rw [transcript, read.transcript]
  · rw [endures.engine.config, read.frame.config]
    exact equal

theorem awaitFinished_progresses (has : Has due c.endpoint .awaitFinished) :
    Progresses due .awaitFinished awaitFinished c := by
  unfold Progresses awaitFinished
  rw [post_bind, post_get, post_bind, post_get, post_bind, post_orThrow]
  refine ⟨fun secret isSecret => ?_, fun _ => ⟨rfl, has⟩⟩
  rw [post_bind, withEngine_post]
  refine computeVerifyData_post.mono ?_ ?_
  · rintro expected _ ⟨rfl, suite, isSuite, isExpected⟩
    refine onHandshake_post (c := c) ⟨rfl, has⟩ (fun engine missed => ?_)
      fun body buffer engine read => ?_
    · exact ⟨rfl, has.missed missed (fun isState => by cases isState) fun _ => rfl⟩
    · have endures : Endures False True c.endpoint { c.endpoint with engine } :=
        Endpoint.endures_engine read.frame.steady
      have refused : ∀ p', Endures False False { c.endpoint with engine } p' →
          Has due p' .awaitFinished := by
        intro p' kept
        have total := IsTrans.trans _ _ _ endures (kept.weaken id fun _ => trivial)
        refine has.keep (total.weaken False.elim id) (fun isState => by cases isState) fun _ unread => ?_
        rw [Engine.timesRead, (kept.engine.still id id).2, read.readTypes] at unread
        simp at unread
      split
      · unfold withEndpoint
        rw [post_bind, post_zoom]
        refine Endpoint.checkFinished_post.mono ?_ fun _ p' kept => ⟨rfl, refused p' kept⟩
        rintro _ p₁ ⟨kept, rfl⟩
        rw [post_bind, post_zoom]
        have installed : Along (Endures False False) Endpoint.installApplicationSecrets :=
          Endpoint.installApplicationSecrets_endures
        refine (installed p₁).mono (fun _ p₂ more => ?_) fun _ p₂ more =>
          ⟨rfl, refused p₂ (IsTrans.trans _ _ _ kept more)⟩
        have both := IsTrans.trans _ _ _ kept more
        have checked := has.checked isSuite isSecret read both isExpected
        have total := IsTrans.trans _ _ _ endures (both.weaken id fun _ => trivial)
        rw [post_bind, post_get, post_pure]
        refine ⟨rfl, has.finish total checked ?_⟩
        split
        · exact .inl rfl
        · exact .inr rfl
      · exact ⟨rfl, refused _ (.refl _)⟩
  · rintro _ _ rfl
    exact ⟨rfl, has⟩

/-- The own Finished is sent: the connection is reported. -/
theorem Has.complete {p : Endpoint} (has : Has due p .sendFinished) {localEvents : List LocalEvent} :
    Has due { p with engine := p.engine.releaseApplicationData, localEvents } .awaitApplicationData where
  deadline := fun isHandshake => by cases isHandshake
  suite := fun _ _ => has.suite rfl (by decide)
  unoffered := fun waits => by cases waits
  offered := fun isState => by cases isState
  signed := fun isState => by cases isState
  finished := fun _ => has.finished rfl
  unreported := fun isHandshake => by cases isHandshake
  verified := fun _ => has.finished rfl

theorem sendFinished_progresses (has : Has due c.endpoint .sendFinished) :
    Progresses due .sendFinished sendFinished c := by
  have kept : ∀ c', Within False True c c' → Has due c'.endpoint .sendFinished := fun c' within =>
    has.of_endures (within.endures.weaken False.elim fun _ => rfl)
  unfold Progresses sendFinished
  rw [post_bind, post_get, post_bind]
  have begun : Along (Within False True)
      (withEngine (runIf (!c.endpoint.clientAuthRequested) (modify Engine.flightBegin))) :=
    withEngine_within (along_runIf fun _ => along_modify fun _ => flightBegin_steady)
  refine (begun c).mono (fun _ c₁ within₁ => ?_) fun _ c' within => ⟨within.state, kept c' within⟩
  rw [post_bind, post_get, post_bind, post_orThrow]
  refine ⟨fun secret _ => ?_, fun _ => ⟨within₁.state, kept c₁ within₁⟩⟩
  rw [post_bind]
  have sent : Along (Within False True)
      (withEngine (createHandshake .finished (computeVerifyData secret))) :=
    withEngine_framed (createHandshake_frame computeVerifyData_readOnly.along)
  refine (sent.after within₁).mono (fun _ c₂ within₂ => ?_) fun _ c' within =>
    ⟨within.state, kept c' within⟩
  have has₂ := kept c₂ within₂
  unfold withEndpoint
  rw [post_bind, post_zoom]
  refine (Endpoint.completeHandshake_post (has₂.suite rfl (by decide))).mono ?_
    fun _ _ never => never.elim
  rintro _ _ ⟨localEvents, rfl⟩
  exact ⟨within₂.state, has₂.complete⟩

/-- Closing keeps what was verified. -/
theorem Has.closed {p : Endpoint} {state : State} (has : Has due p state) : Has due p .closed where
  deadline := fun isHandshake => by cases isHandshake
  suite := fun _ isOpen => absurd rfl isOpen
  unoffered := fun waits => by cases waits
  offered := fun isState => by cases isState
  signed := fun isState => by cases isState
  finished := fun isFinished => by cases isFinished
  unreported := fun isHandshake => by cases isHandshake
  verified := has.verified

/-- Every handler leads to a state in which what has to hold does. -/
theorem makeProgress_progresses {state : State} (has : Has due c.endpoint state) :
    Progresses due state state.makeProgress c := by
  cases state with
  | sendClientHello =>
      refine progresses_of_leads sendClientHello_leads has (fun _ => rfl) rfl ?_
      rintro next c' rfl has
      exact has.before_offer rfl rfl fun late => by cases late
  | awaitServerHello =>
      refine progresses_of_leads awaitServerHello_leads has (fun _ => rfl) rfl ?_
      rintro next c' (rfl | rfl | ⟨rfl, known⟩) has
      · exact has
      · exact has.before_offer rfl rfl fun late => by cases late
      · exact has.before_offer rfl rfl fun _ => known
  | awaitEncryptedExtensions =>
      refine progresses_of_leads awaitEncryptedExtensions_leads has False.elim rfl ?_
      rintro next c' (rfl | rfl) has
      · exact has
      · exact has.before_offer rfl rfl fun _ => has.suite rfl (by decide)
  | awaitCertificateRequest => exact awaitCertificateRequest_progresses has
  | awaitCertificate => exact awaitCertificate_progresses has
  | awaitCertificateVerify => exact awaitCertificateVerify_progresses has
  | awaitFinished => exact awaitFinished_progresses has
  | sendCertificate =>
      refine progresses_of_leads sendCertificate_leads has False.elim rfl ?_
      rintro next c' (rfl | rfl) has
      · exact has.after_finished rfl rfl rfl
      · exact has.after_finished rfl rfl rfl
  | sendCertificateVerify =>
      refine progresses_of_leads sendCertificateVerify_leads has False.elim rfl ?_
      rintro next c' rfl has
      exact has.after_finished rfl rfl rfl
  | sendFinished => exact sendFinished_progresses has
  | awaitApplicationData =>
      refine progresses_of_leads awaitApplicationData_leads has False.elim rfl ?_
      rintro next c' rfl has
      exact has
  | halfClosedLocal =>
      refine progresses_of_leads halfClosedLocal_leads has False.elim rfl ?_
      rintro next c' (rfl | rfl) has
      · exact has.closed
      · exact has
  | closed => exact ⟨rfl, has⟩

theorem progressLoop_inv {fuel : Nat} (inv : Inv due c) :
    Post (progressLoop fuel) c (fun _ c' => Inv due c') (fun _ c' => Inv due c') := by
  induction fuel generalizing c with
  | zero => exact inv
  | succ fuel inductionHypothesis =>
      unfold progressLoop
      rw [post_bind, post_get]
      dsimp only
      rw [post_bind]
      refine (makeProgress_progresses inv).mono ?_ ?_
      · rintro next c' ⟨sameState, has⟩
        rw [post_ite]
        refine ⟨fun same => ?_, fun _ => ?_⟩
        · rw [same, ← sameState] at has
          exact has
        · rw [post_bind, post_modify]
          exact inductionHypothesis has
      · rintro _ c' ⟨sameState, has⟩
        rw [← sameState] at has
        exact has

end Handlers

section Runs

variable {due due' : Promise} {c : Client}

/-- A client that has reported nothing and read nothing. -/
theorem Has.initial {p : Endpoint} {state : State} (isEarly : state.early = true)
    (promised : due p.engine.config.handshakeTimeout p.engine.connectTimeout)
    (unoffered : p.peerCertificates = [])
    (released : p.engine.releaseAppData = false) (events : p.localEvents = []) : Has due p state := by
  have silent : ¬Reported p := by
    rintro (isReleased | event)
    · simp [released] at isReleased
    · simp [events] at event
  exact
    { deadline := fun _ => promised
      suite := fun late => by simp [isEarly] at late
      unoffered := fun _ => unoffered
      offered := fun isState => by
        subst isState
        cases isEarly
      signed := fun isState => by
        subst isState
        cases isEarly
      finished := fun isFinished => by simp [State.finished, State.unoffered, isEarly] at isFinished
      unreported := fun _ => silent
      verified := fun reported => absurd reported silent }

theorem Start.inv (start : Start c) (promised : due c.engine.config.handshakeTimeout .unarmed) :
    Inv due c := by
  cases start with
  | fresh => exact Has.initial rfl promised rfl rfl rfl
  | hybrid => exact Has.initial rfl promised rfl rfl rfl

/-- A program that keeps the endpoint and reads nothing keeps the invariant. -/
theorem Inv.of_within {c' : Client} (inv : Inv due c) (within : Within False False c c') : Inv due c' := by
  have has : Has due c'.endpoint c.state :=
    Has.of_endures inv (within.endures.weaken False.elim False.elim)
  rw [← within.state] at has
  exact has

theorem inv_of_along {α : Type} {program : ClientM α} (inv : Inv due c)
    (along : Along (Within False False) program) :
    Post program c (fun _ c' => Inv due c') (fun _ c' => Inv due c') :=
  (along c).mono (fun _ _ => inv.of_within) fun _ _ => inv.of_within

theorem handlePacket_inv {packet : Bytes} (inv : Inv due c) :
    Post (handlePacket packet) c (fun _ c' => Inv due c') (fun _ c' => Inv due c') := by
  unfold handlePacket
  rw [post_publicResult, post_bind]
  have received : Along (Within False False) (withEngine (receivePacket packet)) :=
    withEngine_framed receivePacket_frame
  refine (inv_of_along inv received).mono (fun _ c₁ inv₁ => ?_) fun fault _ kept => by
    cases fault <;> exact kept
  exact (progressLoop_inv inv₁).mono (fun _ _ kept => kept) fun fault _ kept => by
    cases fault <;> exact kept

/-- A promise that outlasts being armed may be another one. -/
theorem Has.promise {p : Endpoint} {state : State} (has : Has due p state)
    (weaker : ∀ period timer, due period timer → due' period timer) : Has due' p state :=
  { has with deadline := fun isHandshake => weaker _ _ (has.deadline isHandshake) }

/-- Arming the timers keeps what holds. -/
theorem Has.armed {p : Endpoint} {state : State} {now : Instant} (has : Has due p state)
    (arms : Promise.Arms (some now) due due') :
    Has due' { p with engine := p.engine.armTimers now } state where
  deadline := fun isHandshake => by
    rw [Engine.armTimers_connect]
    exact arms _ _ (has.deadline isHandshake)
  suite := has.suite
  unoffered := has.unoffered
  offered := has.offered
  signed := has.signed
  finished := has.finished
  unreported := has.unreported
  verified := has.verified

theorem handleTimeout_inv {now : Instant} (inv : Inv due c)
    (arms : Promise.Arms (some now) due due') :
    Post (Client.handleTimeout now) c (fun _ c' => Inv due' c') (fun _ c' => Inv due' c') := by
  unfold Client.handleTimeout withEndpoint
  rw [post_bind, post_zoom]
  have armed : Has due' { c.endpoint with engine := c.endpoint.engine.armTimers now } c.state :=
    Has.armed inv arms
  refine Endpoint.handleTimeout_endures.mono (fun _ p endures => ?_) fun _ p endures =>
    armed.of_endures endures
  have inv' : Inv due' { c with endpoint := p } := armed.of_endures endures
  rw [post_publicResult]
  exact (progressLoop_inv inv').mono (fun _ _ kept => kept) fun fault _ kept => by
    cases fault <;> exact kept

theorem pollOutput_inv {bufLen : Nat} (inv : Inv due c) :
    Post (Client.pollOutput bufLen) c (fun _ c' => Inv due c') (fun _ c' => Inv due c') :=
  inv_of_along inv (withEndpoint_within Endpoint.pollOutput_endures)

theorem sendApplicationData_inv {data : Bytes} (inv : Inv due c) :
    Post (sendApplicationData data) c (fun _ c' => Inv due c') (fun _ c' => Inv due c') := by
  refine inv_of_along inv (along_bind along_get fun c => ?_)
  refine along_ite (fun _ => along_throw) fun _ => along_ite (fun _ => ?_) fun _ => ?_
  · exact withEndpoint_within Endpoint.queueData_endures
  · exact withEndpoint_within Endpoint.sendData_endures

theorem close_inv (inv : Inv due c) : Post close c (fun _ c' => Inv due c') (fun _ c' => Inv due c') := by
  unfold close
  rw [post_bind, post_get, post_ite]
  refine ⟨fun _ => inv, fun _ => ?_⟩
  rw [post_ite]
  refine ⟨fun _ => ?_, fun isOpen => ?_⟩
  · rw [post_bind, withEngine_post, post_modify, post_modify]
    have closed : Has due c.endpoint .closed := Has.closed inv
    exact { closed with deadline := fun isHandshake => by cases isHandshake }
  · have isState : c.state = .awaitApplicationData := not_not.mp isOpen
    unfold withEndpoint Endpoint.closeWrite
    rw [post_bind, post_zoom, post_bind, post_get, post_bind]
    have sent : Along (Endures False False) (Endpoint.withEngine
        (createCiphertextRecord .alert c.endpoint.engine.appSendEpoch false closeNotifyAlert)) :=
      Endpoint.withEngine_framed createCiphertextRecord_frame
    have has : Has due c.endpoint .awaitApplicationData := isState ▸ inv
    refine (sent c.endpoint).mono (fun _ p endures => ?_) fun _ p endures => ?_
    · have kept := has.of_endures (endures.weaken False.elim False.elim)
      exact
        { deadline := fun isHandshake => by cases isHandshake
          suite := fun _ _ => kept.suite rfl (by decide)
          unoffered := fun waits => by cases waits
          offered := fun isState => by cases isState
          signed := fun isState => by cases isState
          finished := fun _ => kept.finished rfl
          unreported := fun isHandshake => by cases isHandshake
          verified := kept.verified }
    · exact Has.of_endures inv (endures.weaken False.elim False.elim)

/-- Every call keeps the invariant, whether it succeeds or not. -/
theorem exec_inv (inv : Inv due c) {call : Call} (arms : Promise.Arms call.tick due due') :
    Inv due' (c.exec call) := by
  have later : call.tick = none → Inv due' c := fun unticked =>
    Has.promise inv fun period timer promised => by
      have armed := arms period timer promised
      rwa [unticked, Timeout.arm_none] at armed
  apply post_state.mp
  cases call with
  | handlePacket packet => exact handlePacket_inv (later rfl)
  | handleTimeout now => exact handleTimeout_inv inv arms
  | pollOutput bufLen =>
      exact post_bind.mpr ((pollOutput_inv (later rfl)).mono (fun _ _ kept => kept)
        fun _ _ kept => kept)
  | sendApplicationData data => exact sendApplicationData_inv (later rfl)
  | close => exact close_inv (later rfl)

theorem Reached.inv (reached : Reached c) : Inv Promise.isSet c := by
  obtain ⟨start, calls, isStart, rfl⟩ := reached
  have preserved : ∀ (c : Client) (call : Call), Inv Promise.isSet c → True →
      Inv Promise.isSet (c.exec call) := fun _ _ inv _ => exec_inv inv Promise.isSet_arms
  exact run_invariant preserved (isStart.inv Timeout.noConfusion) (Meets.of_all fun _ _ => trivial)

end Runs

end Client

end Dimpl.Dtls13
