import Dimpl.Dtls12.ClientInv
import Dimpl.Dtls12.ServerRun

/-!
# What a server knows

The checks a server has made in each of its states, and that they are made in
every run: a client that has to authenticate signed the handshake, its Finished
matched, and only then the connection is reported.
-/

namespace Dimpl.Dtls12

open Nom Program

/-- Whether a Certificate message with an empty list is put together. -/
def Event.isEmptyCertificate : Event → Bool
  | .assembled type fragments =>
    type = .certificate &&
      match Nom.parse (Body.parse 0 .certificate none) (assembledBytes fragments) with
      | .ok (.certificate certificateList, _) => certificateList.isEmpty
      | _ => false
  | _ => false

/-- A Certificate message with an empty list was put together. -/
def EmptyCertificateSent (log : List Event) : Prop :=
  ∃ event ∈ log, event.isEmptyCertificate = true

instance (log : List Event) : Decidable (EmptyCertificateSent log) :=
  inferInstanceAs (Decidable (∃ event ∈ log, event.isEmptyCertificate = true))

theorem EmptyCertificateSent.mono {log log' : List Event} (sent : EmptyCertificateSent log)
    (more : ∀ event ∈ log, event ∈ log') : EmptyCertificateSent log' := by
  obtain ⟨event, member, isEmpty⟩ := sent
  exact ⟨event, more _ member, isEmpty⟩

/-- An empty list that was read was sent. -/
theorem EmptyCertificateSent.of_read {e e' : Engine} {buffer : Bytes}
    (read : Read .certificate e e' (.certificate []) buffer) : EmptyCertificateSent e'.log := by
  obtain ⟨fragments, assembled, rfl⟩ := read.heard
  obtain ⟨rest, parsed⟩ := read.parsed
  refine ⟨_, assembled, ?_⟩
  -- The suite plays no part in a Certificate.
  have unsuited : Nom.parse (Body.parse 0 .certificate none) (assembledBytes fragments) =
      .ok (.certificate [], rest) := parsed
  simp [Event.isEmptyCertificate, unsuited]

/-- A Certificate message of the peer with this list of certificates ends the
transcript `through`. -/
def Presented (log : List Event) (through : Bytes) (list : List Bytes) : Prop :=
  ∃ before messageSeq body suite ranges rest, Heard log .certificate body ∧
    through = before ++ transcriptMessage .certificate messageSeq body ∧
      Nom.parse (Body.parse 0 .certificate suite) body = .ok (.certificate ranges, rest) ∧
      list = ranges.map (slice body)

theorem Presented.mono {log log' : List Event} {through : Bytes} {list : List Bytes}
    (presented : Presented log through list) (more : ∀ event ∈ log, event ∈ log') :
    Presented log' through list := by
  obtain ⟨before, messageSeq, body, suite, ranges, rest, heard, isMessage⟩ := presented
  exact ⟨before, messageSeq, body, suite, ranges, rest, heard.mono more, isMessage⟩

/-- A CertificateVerify with this body verifies under the certificate over the
transcript `before`. -/
def Verifies (provider : CryptoProvider) (certificate before body : Bytes) : Prop :=
  ∃ suite signed rest,
    Nom.parse (Body.parse 0 .certificateVerify suite) body = .ok (.certificateVerify signed, rest) ∧
      CryptoContext.verifySignature provider before signed.algorithm (signed.signature body)
        certificate = .ok ()

namespace Server

/-- What is asked for in a state of a server. -/
structure Asks where
  milestones : Milestones
  /-- A suite is selected. -/
  suite : Bool
  /-- The client has sent its certificates. -/
  offered : Bool
  /-- The client has signed. -/
  signed : Bool
  /-- The client's Finished matched. -/
  finished : Bool
  deriving DecidableEq

/-- What a server has reached in a state. -/
def State.asks : State → Asks
  | .awaitClientHello | .closed => ⟨⟨false, false, false, false⟩, false, false, false, false⟩
  | .sendServerHello | .sendCertificate | .sendServerKeyExchange | .sendCertificateRequest
  | .sendServerHelloDone | .awaitCertificate =>
    ⟨⟨false, false, false, false⟩, true, false, false, false⟩
  | .awaitClientKeyExchange => ⟨⟨false, false, false, false⟩, true, true, false, false⟩
  | .awaitCertificateVerify => ⟨⟨true, false, false, false⟩, true, true, false, false⟩
  | .awaitChangeCipherSpec => ⟨⟨true, false, false, false⟩, true, true, true, false⟩
  | .awaitFinished => ⟨⟨true, false, true, false⟩, true, true, true, false⟩
  | .sendChangeCipherSpec | .sendFinished => ⟨⟨true, false, true, false⟩, true, true, true, true⟩
  | .awaitApplicationData => ⟨⟨true, true, true, true⟩, true, true, true, true⟩

/-- Whether the handshake is under way: neither over nor given up. -/
def State.inHandshake (state : State) : Bool := state ≠ .awaitApplicationData && state ≠ .closed

/-- Whether a client certificate is asked for. -/
def asksForCertificate (s : Server) : Bool :=
  s.engine.config.requireClientCertificate && s.engine.cipherSuite.any fun suite => !suite.isPsk

/-- The client has to authenticate and sent no empty list of certificates. -/
def Authenticates (s : Server) : Prop :=
  s.asksForCertificate = true ∧ ¬EmptyCertificateSent s.engine.log

/-- The client has sent a list of certificates that is not empty, and after it a
CertificateVerify that verifies under the first of them over the transcript in front
of it. -/
def ClientSigned (e : Engine) : Prop :=
  ∃ through certificate others before messageSeq body,
    Presented e.log through (certificate :: others) ∧ through <+: before ∧
      Heard e.log .certificateVerify body ∧
      before ++ transcriptMessage .certificateVerify messageSeq body <+: e.transcript ∧
      Verifies e.config.cryptoProvider certificate before body

/-- The certificates of the client are those of its Certificate message. -/
def Offered (s : Server) : Prop :=
  ∃ through, Presented s.engine.log through s.clientCertificates ∧
    through <+: s.engine.transcript

/-- Whether the certificate of the client is still to come. -/
def State.unoffered : State → Bool
  | .awaitClientHello | .sendServerHello | .sendCertificate | .sendServerKeyExchange
  | .sendCertificateRequest | .sendServerHelloDone | .awaitCertificate => true
  | _ => false

/-- A server has what is asked for. -/
structure Has (s : Server) (asks : Asks) : Prop where
  reached : s.engine.Reached asks.milestones
  suite : asks.suite = true → s.engine.cipherSuite.isSome = true
  offered : asks.offered = true → s.Authenticates → s.clientCertificates ≠ []
  presented : asks.offered = true → s.clientCertificates ≠ [] → Offered s
  signed : asks.signed = true → s.Authenticates → ClientSigned s.engine
  finished : asks.finished = true → FinishedMatched true s.log s.engine

/-- Nothing is asked for in the first state and when closed. -/
theorem Has.none {s : Server} : Has s ⟨⟨false, false, false, false⟩, false, false, false, false⟩ where
  reached := .none
  suite := fun asked => by cases asked
  offered := fun asked => by cases asked
  presented := fun asked => by cases asked
  signed := fun asked => by cases asked
  finished := fun asked => by cases asked

/-- All checks of a handshake were made. -/
def Verified (s : Server) : Prop :=
  (s.Authenticates → ClientSigned s.engine) ∧ FinishedMatched true s.log s.engine

/-- What holds of a server in every state. What is promised of the deadline, while it
is there, is open. -/
structure Inv (due : Promise) (s : Server) : Prop where
  phase : s.engine.PhaseInv s.state.phase
  lengths : s.engine.explicitNonceLen ≤ s.engine.minProtectedFragmentLen
  has : Has s s.state.asks
  verified : s.engine.releaseAppData = true ∨ LocalEvent.connected ∈ s.localEvents →
    s.state.phase = .sealing ∧ Verified s
  unoffered : s.state.unoffered = true → s.clientCertificates = []
  deadline : s.state.inHandshake = true →
    due s.engine.config.handshakeTimeout s.engine.connectTimeout

section Facts

variable {due : Promise} {phase : Phase} {calm kept : Prop} {s s' : Server}

/-- A client that authenticates later did so before. -/
theorem Authenticates.before (later : s'.Authenticates)
    (config : s'.engine.config = s.engine.config)
    (suite : s'.engine.cipherSuite = s.engine.cipherSuite)
    (log : ∀ event ∈ s.engine.log, event ∈ s'.engine.log) : s.Authenticates := by
  obtain ⟨asked, notEmpty⟩ := later
  refine ⟨?_, fun sent => notEmpty (sent.mono log)⟩
  simpa [asksForCertificate, config, suite] using asked

theorem ClientSigned.mono {e e' : Engine} (signed : ClientSigned e)
    (endures : Endures phase calm e e') (late : phase ≠ .hello) : ClientSigned e' := by
  obtain ⟨through, certificate, others, before, messageSeq, body, presented, inOrder, heard, sent,
    verifies⟩ := signed
  refine ⟨through, certificate, others, before, messageSeq, body, presented.mono endures.log,
    inOrder, heard.mono endures.log, sent.trans (endures.transcript late), ?_⟩
  rw [endures.config]
  exact verifies

theorem Verified.of_within (verified : Verified s) (within : Within .sealing calm kept s s')
    (endures : Endures .sealing calm s.engine s'.engine) : Verified s' := by
  refine ⟨fun authenticates => ?_, verified.2.mono within.log (endures.session rfl)⟩
  have before := authenticates.before endures.config (endures.suite (by decide)) endures.log
  exact (verified.1 before).mono endures (by decide)

/-- What a state asks for fits its phase. -/
theorem State.asks_phase {state : State} :
    (state.asks.milestones.keyed = true → state.phase = .sealing) ∧
      (state.asks.suite = true ∨ state.asks.offered = true ∨ state.asks.signed = true →
        state.phase ≠ .hello) ∧
      (state.asks.finished = true → state.phase = .sealing) ∧
      (state.asks.offered = true → state ≠ .awaitCertificate) := by
  cases state <;> decide

/-- What a server has it keeps. -/
theorem Has.of_within {state : State} (has : Has s state.asks)
    (within : Within state.phase calm (state ≠ .awaitCertificate) s s')
    (endures : Endures state.phase calm s.engine s'.engine) : Has s' state.asks := by
  obtain ⟨keyed, late, sealing, offering⟩ := @State.asks_phase state
  have before : state.phase ≠ .hello → s'.Authenticates → s.Authenticates :=
    fun notHello later => later.before endures.config (endures.suite notHello) endures.log
  constructor
  · exact has.reached.of_endures endures keyed
  · intro asked
    rw [endures.suite (late (.inl asked))]
    exact has.suite asked
  · intro asked authenticates
    rw [within.same (offering asked)]
    exact has.offered asked (before (late (.inr (.inl asked))) authenticates)
  · intro asked some_
    have same := within.same (offering asked)
    rw [same] at some_
    obtain ⟨through, presented, sent⟩ := has.presented asked some_
    exact ⟨through, same ▸ presented.mono endures.log,
      sent.trans (endures.transcript (late (.inr (.inl asked))))⟩
  · intro asked authenticates
    have notHello := late (.inr (.inr asked))
    exact (has.signed asked (before notHello authenticates)).mono endures notHello
  · intro asked
    exact (has.finished asked).mono within.log (endures.session (sealing asked))

/-- A state and what may follow it. -/
theorem State.follows_phase {state next : State} (isNext : next ∈ state :: state.follows) :
    (next.phase = .sealing ∨ state.phase ≠ .sealing) ∧
      (state.phase = .sealing → next.phase = .sealing) ∧
      (next.inHandshake = true → state.inHandshake = true) := by
  revert next
  cases state <;> decide

/-- The certificate is still to come only where it was before. -/
theorem State.unoffered_before {state next : State} (isNext : next ∈ state :: state.follows) :
    next.unoffered = true → state.unoffered = true := by
  revert next
  cases state <;> decide

/-- What is calm keeps the invariant, once what the next state asks for is there. -/
theorem Inv.of_within (inv : Inv due s) (isCalm : calm)
    (within : Within s.state.phase calm kept s s') {next : State}
    (isNext : next ∈ s.state :: s.state.follows) (has : Has s' next.asks)
    (unoffered : next.unoffered = true → s'.clientCertificates = []) :
    Inv due { s' with state := next } := by
  obtain ⟨later, sealing, handshake⟩ := State.follows_phase isNext
  have endures := within.engine.endures inv.phase
  refine ⟨(within.engine.phaseInv inv.phase).advance later, endures.lengths inv.lengths,
    ⟨has.reached, has.suite, has.offered, has.presented, has.signed, has.finished⟩,
    fun reported => ?_, unoffered, fun isHandshake => ?_⟩
  · have before : s.engine.releaseAppData = true ∨ LocalEvent.connected ∈ s.localEvents :=
      reported.imp (fun on => (endures.unreleased isCalm) ▸ on) (within.silent isCalm)
    have ⟨isSealing, verified⟩ := inv.verified before
    rw [isSealing] at within endures
    have after : Verified s' := verified.of_within within endures
    exact ⟨sealing isSealing, after⟩
  · have same : s'.engine.connectTimeout = s.engine.connectTimeout := endures.connect isCalm
    have config : s'.engine.config = s.engine.config := endures.config
    rw [same, config]
    exact inv.deadline (handshake isHandshake)

/-- What is calm and leaves the state and the certificates alone keeps the invariant. -/
theorem Inv.of_calm (inv : Inv due s) (isCalm : calm) (within : Within s.state.phase calm kept s s')
    (same : s'.clientCertificates = s.clientCertificates) : Inv due s' := by
  have has := inv.has.of_within (within.keeping same) (within.engine.endures inv.phase)
  have kept := inv.of_within isCalm within List.mem_cons_self has
    fun isUnoffered => same.trans (inv.unoffered isUnoffered)
  rw [← within.state] at kept
  exact kept

end Facts

/-- Consuming records changes only the engine, by steps. -/
def Takes (s s' : Server) : Prop :=
  ∃ engine, s' = { s with engine } ∧ Steps (fun _ => True) False s.engine engine

section Handlers

variable {due : Promise} {s : Server}

theorem Takes.facts {s' : Server} (takes : Takes s s') :
    s'.engine.cipherSuite = s.engine.cipherSuite ∧ s'.engine.config = s.engine.config := by
  obtain ⟨engine, rfl, steps⟩ := takes
  have session := steps.grows.session
  simp only [Engine.session, Prod.mk.injEq] at session
  exact ⟨session.2.2.2.2.1, session.2.2.2.2.2⟩

/-- The handler of a message finds it in the history. -/
theorem onHandshake_post {wanted : MessageType} {stay : State} {handle : Body → Bytes → ServerM State}
    {Q : State → Server → Prop} {E : Fault → Server → Prop}
    (stays : ∀ s', Takes s s' → Q stay s') (fails : ∀ fault s', Takes s s' → E fault s')
    (handled : ∀ s' body buffer, Takes s s' → Read wanted s.engine s'.engine body buffer →
      Post (handle body buffer) s' Q E) :
    Post (onHandshake wanted stay handle) s Q E := by
  have quiet : Along (Quiet (fun _ => True) False) (nextHandshake wanted) := nextHandshake_quiet
  unfold onHandshake withEngine
  rw [post_bind, post_zoom]
  refine ((quiet s.engine).and nextHandshake_read).mono ?_ ?_
  · rintro result engine ⟨moved, ⟨rfl, _⟩ | ⟨message, buffer, rfl, read⟩⟩
    · exact stays _ ⟨engine, rfl, (moved False.elim).1⟩
    · exact handled { s with engine } _ _ ⟨engine, rfl, (moved False.elim).1⟩ read
  · rintro fault engine ⟨moved, _⟩
    exact fails _ _ ⟨engine, rfl, (moved False.elim).1⟩

theorem setCipherSuite_post {e : Engine} {suite : Dtls12CipherSuite} :
    Post (setCipherSuite suite) e (fun _ e' => e'.cipherSuite = some suite) (fun _ _ => True) := by
  unfold setCipherSuite
  rw [post_bind, post_get, post_bind, post_orThrow]
  exact ⟨fun _ _ => rfl, fun _ => trivial⟩

/-- A hello that is accepted selects a suite. -/
theorem awaitClientHello_suite :
    Post awaitClientHello s (fun next s' => next ≠ .awaitClientHello →
      s'.engine.cipherSuite.isSome = true) (fun _ _ => True) := by
  refine onHandshake_post (fun _ _ stays => absurd rfl stays) (fun _ _ _ => trivial) ?_
  intro s' body buffer _ _
  split
  · unfold handleClientHello
    rw [post_bind, post_get]
    simp only [post_ite]
    refine ⟨fun _ => trivial, fun _ => ⟨fun _ => trivial, fun _ => ⟨fun _ => ?_, fun _ => ?_⟩⟩⟩
    · unfold sendHelloVerifyRequest withEngine
      rw [post_bind, post_get, post_bind, post_liftCrypto]
      refine ⟨fun cookie _ => ?_, fun _ _ => trivial⟩
      rw [post_bind, post_zoom, post_modify, post_bind, post_zoom]
      refine post_self.mono (fun _ _ _ => ?_) fun _ _ _ => trivial
      rw [post_bind, post_zoom, post_modify, post_pure]
      exact fun stays => absurd rfl stays
    · unfold acceptClientHello withEngine
      rw [post_bind, post_get]
      dsimp only
      rw [post_bind, post_orThrow]
      refine ⟨fun suite _ => ?_, fun _ => trivial⟩
      rw [post_bind, post_zoom]
      refine setCipherSuite_post.mono (fun _ e isSuite => ?_) fun _ _ _ => trivial
      rw [post_bind, post_modify]
      split
      · trivial
      · rw [post_ite]
        refine ⟨fun _ => trivial, fun _ => ?_⟩
        rw [post_bind, post_modify, post_pure]
        exact fun _ => by simp [isSuite]
  · trivial

/-- The server goes on without a certificate only if it asks for none. -/
theorem sendServerHelloDone_unasked :
    Post sendServerHelloDone s (fun next s' => next = .awaitClientKeyExchange →
      s'.asksForCertificate = false) (fun _ _ => True) := by
  unfold sendServerHelloDone withEngine
  rw [post_bind, post_zoom]
  refine post_self.mono (fun _ e₁ _ => ?_) fun _ _ _ => trivial
  rw [post_bind, post_zoom]
  refine selectedCipherSuite_post.mono ?_ fun _ _ _ => trivial
  rintro suite e₂ ⟨same, isSuite⟩
  rw [post_bind, post_get, post_pure]
  split
  · intro impossible
    cases impossible
  · rename_i unasked
    intro _
    have isSuite : e₂.cipherSuite = some suite := same ▸ isSuite
    simp only [asksForCertificate, isSuite, Option.any_some]
    simpa [Bool.and_comm] using unasked

/-- Where the client has not presented a list, its certificates stay as they are. -/
theorem awaitCertificate_kept :
    Post awaitCertificate s
      (fun next s' => next.unoffered = true → s'.clientCertificates = s.clientCertificates)
      (fun _ s' => s'.clientCertificates = s.clientCertificates) := by
  refine onHandshake_post ?_ ?_ ?_
  · rintro _ ⟨engine, rfl, _⟩ _
    rfl
  · rintro _ _ ⟨engine, rfl, _⟩
    rfl
  · rintro _ body buffer ⟨engine, rfl, _⟩ _
    split
    · rw [post_bind, post_modify, post_pure]
      intro isUnoffered
      cases isUnoffered
    · rfl

/-- A list of certificates is kept as it was presented, or it was empty. -/
theorem awaitCertificate_offered (none : s.clientCertificates = []) :
    Post awaitCertificate s (fun next s' => next ≠ .awaitCertificate →
      Offered s' ∧ (s'.clientCertificates ≠ [] ∨ EmptyCertificateSent s'.engine.log))
      (fun _ _ => True) := by
  refine onHandshake_post (fun _ _ stays => absurd rfl stays) (fun _ _ _ => trivial) ?_
  rintro _ body buffer ⟨engine, rfl, _⟩ read
  split
  · rename_i certificateList
    obtain ⟨messageSeq, told⟩ := read.transcript
    obtain ⟨rest, parsed⟩ := read.parsed
    have presented : Presented engine.log engine.transcript (certificateList.map (slice _)) :=
      ⟨_, messageSeq, _, _, certificateList, rest, read.heard, told, parsed, rfl⟩
    rw [post_bind, post_modify, post_pure]
    intro _
    cases certificateList with
    | nil =>
        refine ⟨⟨_, ?_, List.prefix_rfl⟩, .inr (.of_read read)⟩
        simpa [none] using presented
    | cons range others =>
        refine ⟨⟨_, ?_, List.prefix_rfl⟩, .inl (by simp)⟩
        simpa [none] using presented
  · trivial

/-- The keys are derived, and a signature is skipped only without certificates. -/
theorem awaitClientKeyExchange_keyed :
    Post awaitClientKeyExchange s (fun next s' => next ≠ .awaitClientKeyExchange →
      s'.engine.cryptoContext.Keyed ∧
        (next = .awaitChangeCipherSpec → s'.clientCertificates = [])) (fun _ _ => True) := by
  refine onHandshake_post (fun _ _ stays => absurd rfl stays) (fun _ _ _ => trivial) ?_
  intro s' body buffer _ _
  split
  · unfold handleClientKeyExchange
    rw [post_bind]
    refine post_self.mono (fun suite _ _ => ?_) fun _ _ _ => trivial
    rw [post_bind]
    refine post_self.mono (fun _ s₁ _ => ?_) fun _ _ _ => trivial
    rw [post_bind, post_modify, post_bind, post_get, post_bind, post_orThrow]
    refine ⟨fun _ _ => ?_, fun _ => trivial⟩
    rw [post_bind, post_orThrow]
    refine ⟨fun _ _ => ?_, fun _ => trivial⟩
    rw [post_bind, post_orThrow]
    refine ⟨fun _ _ => ?_, fun _ => trivial⟩
    unfold withEngine
    rw [post_bind, post_zoom]
    refine deriveSessionKeys_keyed.mono (fun _ e keyed => ?_) fun _ _ _ => trivial
    rw [post_pure]
    refine fun _ => ⟨keyed, fun skipped => ?_⟩
    split at skipped
    · rename_i none
      exact List.isEmpty_iff.mp none
    · cases skipped
  · trivial

/-- Behind a CertificateVerify its signature was verified. -/
theorem awaitCertificateVerify_signed (presented : s.clientCertificates ≠ [] → Offered s) :
    Post awaitCertificateVerify s
      (fun next s' => next ≠ .awaitCertificateVerify → ClientSigned s'.engine) (fun _ _ => True) := by
  unfold awaitCertificateVerify
  rw [post_bind, post_get]
  dsimp only
  refine onHandshake_post (fun _ _ stays => absurd rfl stays) (fun _ _ _ => trivial) ?_
  rintro s' body buffer takes read
  obtain ⟨engine, rfl, steps⟩ := takes
  split
  · rename_i signed
    rw [post_bind, post_get, post_bind, post_orThrow]
    refine ⟨fun certificate isFirst => ?_, fun _ => trivial⟩
    rw [post_bind, post_liftCrypto]
    refine ⟨fun _ valid => ?_, fun _ _ => trivial⟩
    unfold logCheck
    rw [post_bind, post_modify, post_pure]
    obtain ⟨others, isList⟩ := List.head?_eq_some_iff.mp isFirst
    have some_ : s.clientCertificates ≠ [] := fun none => by cases none.symm.trans isList
    obtain ⟨through, isPresented, sent⟩ := presented some_
    obtain ⟨messageSeq, told⟩ := read.transcript
    obtain ⟨rest, parsed⟩ := read.parsed
    intro _
    refine ⟨through, certificate, others, s.engine.transcript, messageSeq, buffer, ?_, sent,
      read.heard, ?_, _, signed, rest, parsed, valid⟩
    · exact (isList ▸ isPresented).mono steps.grows.log
    · exact told ▸ List.prefix_rfl
  · trivial

theorem awaitChangeCipherSpec_enabled :
    Post awaitChangeCipherSpec s (fun next s' => next ≠ .awaitChangeCipherSpec →
      s'.engine.peerEncryptionEnabled = true) (fun _ _ => True) := by
  unfold awaitChangeCipherSpec withEngine
  rw [post_bind, post_zoom]
  refine post_self.mono (fun result e₁ _ => ?_) fun _ _ _ => trivial
  cases result with
  | none => exact fun stays => absurd rfl stays
  | some r =>
      dsimp only
      rw [post_bind, post_zoom]
      refine post_self.mono (fun _ e₂ _ => ?_) fun _ _ _ => trivial
      rw [post_bind, post_zoom]
      exact enablePeerEncryption_enabled.mono (fun _ _ on _ => on) fun _ _ _ => trivial

/-- Behind a Finished it was equal. -/
theorem awaitFinished_matched :
    Post awaitFinished s (fun next s' => next ≠ .awaitFinished →
      FinishedMatched true s'.log s'.engine) (fun _ _ => True) := by
  unfold awaitFinished
  rw [post_bind, post_get]
  dsimp only
  unfold withEngine
  rw [post_bind, post_zoom]
  refine generateVerifyData_post.mono ?_ fun _ _ _ => trivial
  rintro expected _ ⟨rfl, isExpected⟩
  refine onHandshake_post (fun _ _ stays => absurd rfl stays) (fun _ _ _ => trivial) ?_
  rintro s' body buffer ⟨engine, rfl, steps⟩ _
  split
  · rw [post_ite]
    refine ⟨fun _ => trivial, fun equal => ?_⟩
    have isSame : engine.verifyDataOver true s.engine.transcript = some expected := by
      rw [Engine.verifyDataOver_of_session steps.grows.session]
      exact isExpected
    have received := not_not.mp equal
    unfold logCheck acceptFinished
    rw [post_bind, post_modify, post_bind, post_get]
    simp only [post_ite]
    refine ⟨fun _ => trivial, fun _ => ⟨fun _ => trivial, fun _ _ => ?_⟩⟩
    exact ⟨_, _, List.mem_append_right _ List.mem_cons_self, received ▸ isSame⟩
  · trivial

/-- The last handler of the handshake: nothing is reported or stopped before the
Finished was sent. -/
theorem sendFinished_post (suite : s.engine.cipherSuite.isSome = true) :
    Post sendFinished s
      (fun next s' => next = .awaitApplicationData ∧ s'.engine.releaseAppData = true ∧
        sealings s'.engine.log ≠ [])
      (fun _ s' => s'.engine.releaseAppData = s.engine.releaseAppData ∧
        s'.engine.connectTimeout = s.engine.connectTimeout ∧ s'.localEvents = s.localEvents) := by
  have quiet : Along (Quiet (fun _ => True) False)
      (createHandshake .finished (createFinished false)) :=
    createHandshake_quiet generateVerifyData_readOnly.along False.elim
  unfold sendFinished withEngine
  rw [post_bind, post_zoom]
  refine ((quiet s.engine).and (createHandshake_sealed (by decide))).mono ?_ ?_
  · rintro _ engine ⟨moved, isSealed⟩
    have session := (moved False.elim).1.grows.session
    simp only [Engine.session, Prod.mk.injEq] at session
    obtain ⟨suite', isSuite⟩ := Option.isSome_iff_exists.mp suite
    have engineSuite : engine.cipherSuite = some suite' := session.2.2.2.2.1.trans isSuite
    unfold emitKeyingMaterial
    simp only [post_bind, post_modify, post_zoom, post_get]
    split
    · exact ⟨rfl, rfl, isSealed⟩
    · rw [post_bind, post_orThrow]
      refine ⟨fun _ _ => ⟨rfl, rfl, isSealed⟩, fun noSuite => ?_⟩
      exact absurd (engineSuite.symm.trans noSuite) (by simp)
  · rintro _ engine ⟨moved, _⟩
    obtain ⟨released, connect⟩ := (moved False.elim).1.still
    exact ⟨released, connect, rfl⟩

/-- The transitions that ask for more. -/
theorem State.asks_more {state next : State} (isCalm : state.calm)
    (isNext : next ∈ state :: state.follows) (more : next.asks ≠ state.asks) :
    next ≠ state ∧ (state = .awaitClientHello ∨
      (state = .sendServerHelloDone ∧ next = .awaitClientKeyExchange) ∨ state = .awaitCertificate ∨
      state = .awaitClientKeyExchange ∨ state = .awaitCertificateVerify ∨
      state = .awaitChangeCipherSpec ∨ state = .awaitFinished) := by
  revert next
  cases state
  case sendFinished => exact isCalm.elim
  case awaitApplicationData => exact isCalm.elim
  all_goals decide

/-- What a handler provides is there for the state it goes to. -/
theorem makeProgress_provides (inv : Inv due s) :
    Post s.state.makeProgress s
      (fun next s' => next ≠ s.state → next ∈ s.state.follows → Has s' s.state.asks →
        (s.state ≠ .awaitCertificate → s'.clientCertificates = s.clientCertificates) →
        s.state.calm → next.asks ≠ s.state.asks → Has s' next.asks)
      (fun _ _ => True) := by
  have unoffered := inv.unoffered
  have presented := inv.has.presented
  by_cases isMore : s.state = .awaitClientHello ∨ s.state = .sendServerHelloDone ∨
      s.state = .awaitCertificate ∨ s.state = .awaitClientKeyExchange ∨
      s.state = .awaitCertificateVerify ∨ s.state = .awaitChangeCipherSpec ∨
      s.state = .awaitFinished
  · generalize s.state = state at isMore unoffered presented
    rcases isMore with rfl | rfl | rfl | rfl | rfl | rfl | rfl
    · refine awaitClientHello_suite.mono (fun next s' suite moved isNext has _ _ _ => ?_)
        fun _ _ _ => trivial
      cases List.mem_singleton.mp isNext
      exact { has with suite := fun _ => suite moved }
    · refine sendServerHelloDone_unasked.mono (fun next s' unasked moved isNext has same _ more => ?_)
        fun _ _ _ => trivial
      rcases List.mem_cons.mp isNext with rfl | isNext
      · exact absurd rfl more
      · cases List.mem_singleton.mp isNext
        have exempt : ¬s'.Authenticates := fun authenticates =>
          absurd authenticates.1 (by simp [unasked rfl])
        have none : s'.clientCertificates = [] :=
          (same (by decide)).trans (unoffered rfl)
        exact { has with
          offered := fun _ authenticates => absurd authenticates exempt
          presented := fun _ some_ => absurd none some_ }
    · refine (awaitCertificate_offered (unoffered rfl)).mono (fun next s' offered moved isNext has _ _ _ => ?_)
        fun _ _ _ => trivial
      cases List.mem_singleton.mp isNext
      exact { has with
        offered := fun _ authenticates => (offered moved).2.resolve_right authenticates.2
        presented := fun _ _ => (offered moved).1 }
    · refine awaitClientKeyExchange_keyed.mono (fun next s' keyed moved isNext has _ _ _ => ?_)
        fun _ _ _ => trivial
      obtain ⟨isKeyed, skipped⟩ := keyed moved
      have reached : s'.engine.Reached ⟨true, false, false, false⟩ :=
        { Engine.Reached.none with keyed := fun _ => isKeyed }
      rcases List.mem_cons.mp isNext with rfl | isNext
      · exact { has with reached := reached }
      · cases List.mem_singleton.mp isNext
        exact { has with
          reached := reached
          signed := fun _ authenticates => absurd (skipped rfl) (has.offered rfl authenticates) }
    · refine (awaitCertificateVerify_signed (presented rfl)).mono (fun next s' signed moved isNext has _ _ _ => ?_)
        fun _ _ _ => trivial
      cases List.mem_singleton.mp isNext
      exact { has with signed := fun _ _ => signed moved }
    · refine awaitChangeCipherSpec_enabled.mono (fun next s' enabled moved isNext has _ _ _ => ?_)
        fun _ _ _ => trivial
      cases List.mem_singleton.mp isNext
      exact { has with reached := { has.reached with enabled := fun _ => enabled moved } }
    · refine awaitFinished_matched.mono (fun next s' matched moved isNext has _ _ _ => ?_)
        fun _ _ _ => trivial
      cases List.mem_singleton.mp isNext
      exact { has with finished := fun _ => matched moved }
  · refine post_self.mono (fun next s' _ moved isNext _ _ isCalm more => ?_) fun _ _ _ => trivial
    obtain ⟨_, which⟩ := State.asks_more isCalm (List.mem_cons_of_mem _ isNext) more
    exact absurd (which.imp id fun rest => rest.imp And.left id) isMore

/-- Before the client has presented a list, its certificates stay as they are. -/
theorem makeProgress_kept :
    Post s.state.makeProgress s
      (fun next s' => next.unoffered = true → s'.clientCertificates = s.clientCertificates)
      (fun _ s' => s'.clientCertificates = s.clientCertificates) := by
  by_cases isState : s.state = .awaitCertificate
  · rw [isState]
    exact awaitCertificate_kept
  · exact (makeProgress_within s.state s).mono (fun _ _ within _ => within.same isState)
      fun _ _ within => within.same isState

/-- A calm handler keeps the invariant. -/
theorem makeProgress_calm (inv : Inv due s) (isCalm : s.state.calm) :
    Post s.state.makeProgress s (fun next s' => Inv due { s' with state := next })
      (fun _ s' => Inv due s') := by
  have within := makeProgress_within s.state s
  have returns := makeProgress_returns s.state s
  refine (((within.and returns).and makeProgress_kept).and (makeProgress_provides inv)).mono ?_ ?_
  · rintro next s' ⟨⟨⟨within, isNext⟩, kept⟩, provides⟩
    have has := inv.has.of_within within (within.engine.endures inv.phase)
    refine inv.of_within isCalm within isNext ?_ fun isUnoffered => ?_
    · by_cases more : next.asks = s.state.asks
      · exact more ▸ has
      · have moved := (State.asks_more isCalm isNext more).1
        exact provides moved ((List.mem_cons.mp isNext).resolve_left moved) has within.same isCalm
          more
    · exact (kept isUnoffered).trans (inv.unoffered (State.unoffered_before isNext isUnoffered))
  · rintro _ s' ⟨⟨⟨within, _⟩, kept⟩, _⟩
    exact inv.of_calm isCalm within kept

/-- The last handler of the handshake keeps the invariant. -/
theorem makeProgress_sendFinished (inv : Inv due s) (isState : s.state = .sendFinished) :
    Post s.state.makeProgress s (fun next s' => Inv due { s' with state := next }) (fun _ s' => Inv due s') := by
  have phaseInv := inv.phase
  have has := inv.has
  rw [isState] at phaseInv has
  have within := makeProgress_within s.state s
  rw [isState] at within ⊢
  refine (within.and (sendFinished_post (has.suite rfl))).mono ?_ ?_
  · rintro next s' ⟨within, rfl, released, isSealed⟩
    have endures := within.engine.endures phaseInv
    have kept : Has s' State.sendFinished.asks := has.of_within within endures
    have done : Has s' State.awaitApplicationData.asks := { kept with
      reached := { kept.reached with sealed := fun _ => isSealed, released := fun _ => released } }
    exact
      { phase := within.engine.phaseInv phaseInv
        lengths := endures.lengths inv.lengths
        has := ⟨done.reached, done.suite, done.offered, done.presented, done.signed, done.finished⟩
        verified := fun _ => ⟨rfl, done.signed rfl, done.finished rfl⟩
        unoffered := fun isUnoffered => by cases isUnoffered
        deadline := fun isHandshake => by cases isHandshake }
  · rintro _ s' ⟨within, released, connect, events⟩
    have endures := within.engine.endures phaseInv
    have kept : Has s' State.sendFinished.asks := has.of_within within endures
    have isState' : s'.state = .sendFinished := within.state.trans isState
    refine ⟨?_, endures.lengths inv.lengths, isState' ▸ kept, fun reported => ?_, ?_, fun _ => ?_⟩
    · rw [isState']
      exact within.engine.phaseInv phaseInv
    · have before : s.engine.releaseAppData = true ∨ LocalEvent.connected ∈ s.localEvents :=
        reported.imp (fun on => released ▸ on) fun member => events ▸ member
      rw [isState']
      exact ⟨rfl, (inv.verified before).2.of_within within endures⟩
    · rw [isState']
      intro isUnoffered
      cases isUnoffered
    · rw [connect, endures.config]
      exact inv.deadline (by rw [isState]; rfl)

/-- The handler behind the handshake keeps the invariant. -/
theorem makeProgress_awaitApplicationData (inv : Inv due s) (isState : s.state = .awaitApplicationData) :
    Post s.state.makeProgress s (fun next s' => Inv due { s' with state := next }) (fun _ s' => Inv due s') := by
  have phaseInv := inv.phase
  have has := inv.has
  rw [isState] at phaseInv has
  have verified : Verified s := (inv.verified (.inl (has.reached.released rfl))).2
  have within := makeProgress_within s.state s
  have returns := makeProgress_returns s.state s
  rw [isState] at within returns ⊢
  have stays : ∀ s', Within .sealing False (State.awaitApplicationData ≠ .awaitCertificate) s s' → Inv due { s' with state := .awaitApplicationData } := by
    intro s' within
    have endures := within.engine.endures phaseInv
    have after : Verified s' := verified.of_within within endures
    have kept := has.of_within within endures
    exact
      { phase := within.engine.phaseInv phaseInv
        lengths := endures.lengths inv.lengths
        has := ⟨kept.reached, kept.suite, kept.offered, kept.presented, kept.signed, kept.finished⟩
        verified := fun _ => ⟨rfl, after⟩
        unoffered := fun isUnoffered => by cases isUnoffered
        deadline := fun isHandshake => by cases isHandshake }
  refine (within.and returns).mono ?_ ?_
  · rintro next s' ⟨within, isNext⟩
    have kept := stays s' within
    rcases List.mem_cons.mp isNext with rfl | closed
    · exact kept
    · cases List.mem_singleton.mp closed
      exact
        { phase := kept.phase
          lengths := kept.lengths
          has := Has.none
          verified := fun _ => ⟨rfl, (kept.verified (.inl (kept.has.reached.released rfl))).2⟩
          unoffered := fun isUnoffered => by cases isUnoffered
          deadline := fun isHandshake => by cases isHandshake }
  · rintro _ s' ⟨within, _⟩
    have kept := stays s' within
    rw [← isState, ← within.state] at kept
    exact kept

/-- Every handler keeps the invariant. -/
theorem makeProgress_inv (inv : Inv due s) :
    Post s.state.makeProgress s (fun next s' => Inv due { s' with state := next }) (fun _ s' => Inv due s') := by
  by_cases finished : s.state = .sendFinished
  · exact makeProgress_sendFinished inv finished
  · by_cases data : s.state = .awaitApplicationData
    · exact makeProgress_awaitApplicationData inv data
    · refine makeProgress_calm inv ?_
      cases state : s.state <;> simp_all [State.calm]

theorem progressLoop_inv {fuel : Nat} (inv : Inv due s) :
    Post (progressLoop fuel) s (fun _ s' => Inv due s') (fun _ s' => Inv due s') := by
  induction fuel generalizing s with
  | zero => exact inv
  | succ fuel inductionHypothesis =>
      unfold progressLoop
      rw [post_bind, post_get]
      dsimp only
      rw [post_bind]
      refine ((makeProgress_inv inv).and (makeProgress_within s.state s)).mono ?_
        fun _ _ kept => kept.1
      rintro next s' ⟨kept, within⟩
      rw [post_ite]
      constructor
      · intro same
        rw [same, ← within.state] at kept
        exact kept
      · intro _
        rw [post_bind, post_modify]
        exact inductionHypothesis kept

end Handlers

/-- A call on a server. -/
inductive Call where
  | handlePacket (packet : Bytes)
  | handleTimeout (now : Instant)
  | pollOutput (bufLen : Nat)
  | sendApplicationData (data : Bytes)
  | close

/-- The program of a call. -/
def Call.program : Call → ServerM Unit
  | .handlePacket packet => Server.handlePacket packet
  | .handleTimeout now => Server.handleTimeout now
  | .pollOutput bufLen => do
    let _ ← Server.pollOutput bufLen
  | .sendApplicationData data => Server.sendApplicationData data
  | .close => Server.close

/-- The time of a timeout call. -/
def Call.tick : Call → Option Instant
  | .handleTimeout now => some now
  | _ => none

/-- The server after a call, whether it succeeded or not. -/
def exec (s : Server) (call : Call) : Server := finalState call.program s

/-- A server at its start. The generator may have been drawn from before. -/
inductive Start : Server → Prop where
  | fresh (config : Config) (auth : AuthMode) (rng rng' entropy : SeededRng) (now : Instant) :
      Start (newWithEngine { Engine.new config auth rng entropy with rng := rng' } now)

section Runs

variable {due due' : Promise} {s : Server}

theorem Start.inv (start : Start s) (promised : due s.engine.config.handshakeTimeout .unarmed) :
    Inv due s := by
  have unreported : ∀ s : Server, s.engine.releaseAppData = false → s.localEvents = [] →
      ¬(s.engine.releaseAppData = true ∨ LocalEvent.connected ∈ s.localEvents) := by
    intro s unreleased silent
    simp [unreleased, silent]
  cases start with
  | fresh =>
      exact
        { phase := .of_fresh rfl rfl rfl
          lengths := Nat.le_refl 0
          has := Has.none
          verified := fun reported => absurd reported (unreported _ rfl rfl)
          unoffered := fun _ => rfl
          deadline := fun _ => promised }

/-- A calm program on the engine keeps the invariant. -/
theorem withEngine_inv {α : Type} {program : EngineM α} (inv : Inv due s)
    (along : Along (Moves (s.state.phase.rules True)) program) :
    Post (withEngine program) s (fun _ s' => Inv due s') (fun _ s' => Inv due s') :=
  have kept : Along (Within s.state.phase True True) (withEngine program) := along_withEngine along
  (kept s).mono (fun _ _ within => inv.of_calm trivial within (within.same trivial))
    fun _ _ within => inv.of_calm trivial within (within.same trivial)

/-- A change of fields the invariant does not speak about. -/
theorem Inv.of_fields {s' : Server} (inv : Inv due s) (engine : s'.engine = s.engine)
    (state : s'.state = s.state) (log : s'.log = s.log)
    (certificates : s'.clientCertificates = s.clientCertificates)
    (silent : LocalEvent.connected ∈ s'.localEvents → LocalEvent.connected ∈ s.localEvents) :
    Inv due s' := by
  have within : Within s.state.phase True True s s' :=
    Within.of_fields engine state log certificates fun _ => silent
  exact inv.of_calm trivial within certificates

theorem handlePacket_inv {packet : Bytes} (inv : Inv due s) :
    Post (handlePacket packet) s (fun _ s' => Inv due s') (fun _ s' => Inv due s') := by
  unfold handlePacket
  rw [post_publicResult, post_bind]
  have received := withEngine_inv inv (@receivePacket_moves _ packet fun _ _ => trivial)
  refine received.mono (fun _ s' kept => ?_) fun fault _ kept => by cases fault <;> exact kept
  exact (progressLoop_inv kept).mono (fun _ _ done => done) fun fault _ done => by
    cases fault <;> exact done

/-- Drawing the random cannot fail. -/
theorem initRandom_inv {now : Instant} (inv : Inv due s) :
    Post (initRandom now) s (fun _ s' => Inv due s') (fun _ _ => False) := by
  unfold initRandom
  rw [post_bind, post_get]
  split
  · exact inv
  · unfold withEngine newRandom randomArr
    simp only [post_bind, post_zoom, post_get, post_set, post_pure, post_modify]
    have drawn : Moves (s.state.phase.rules True) s.engine
        { s.engine with rng := (s.engine.rng.randomBytes 28).2 } :=
      Moves.of_core rfl (List.Subset.refl _)
    have within : ∀ random, Within s.state.phase True True s
        { s with engine := { s.engine with rng := (s.engine.rng.randomBytes 28).2 }, random } :=
      fun _ => ⟨drawn, rfl, fun _ member => member, List.prefix_refl _, fun _ => rfl, fun _ => id⟩
    exact inv.of_calm trivial (within _) rfl

/-- A promise may be another one. -/
theorem Inv.promise (inv : Inv due s)
    (weaker : ∀ period timer, due period timer → due' period timer) : Inv due' s :=
  { inv with deadline := fun isHandshake => weaker _ _ (inv.deadline isHandshake) }

/-- Arming the timers keeps the invariant. -/
theorem Inv.of_armed {now : Instant} (inv : Inv due s) (arms : Promise.Arms (some now) due due') :
    Inv due' { s with engine := s.engine.armTimers now } where
  phase := ⟨⟨inv.phase.seals.numbers, inv.phase.seals.nonces⟩, inv.phase.early⟩
  lengths := inv.lengths
  has := ⟨⟨inv.has.reached.keyed, inv.has.reached.sealed, inv.has.reached.enabled,
    inv.has.reached.released⟩, inv.has.suite, inv.has.offered, inv.has.presented, inv.has.signed,
    inv.has.finished⟩
  verified := inv.verified
  unoffered := inv.unoffered
  deadline := fun isHandshake => by
    rw [Engine.armTimers_connect]
    exact arms _ _ (inv.deadline isHandshake)

/-- The timers of the engine keep the invariant. -/
theorem timers_inv {now : Instant} (inv : Inv due s) (arms : Promise.Arms (some now) due due') :
    Post (withEngine (Engine.handleTimeout now)) s (fun _ s' => Inv due' s') (fun _ s' => Inv due' s') := by
  have armed : Inv due' { s with engine := s.engine.armTimers now } := inv.of_armed arms
  unfold withEngine
  rw [post_zoom]
  have arrived : ∀ engine, Quiet (fun _ => True) (s.state.phase ≠ .sealing)
      (s.engine.armTimers now) engine → Inv due' { s with engine } := by
    intro engine quiet
    have moved : Moves (s.state.phase.rules True) (s.engine.armTimers now) engine := quiet.moves
    have within : Within s.state.phase True True { s with engine := s.engine.armTimers now }
        { s with engine } :=
      ⟨moved, rfl, fun _ member => member, List.prefix_refl _, fun _ => rfl, fun _ => id⟩
    exact armed.of_calm trivial within rfl
  exact handleTimeout_armed.mono (fun _ engine quiet => arrived engine quiet) fun _ engine quiet =>
    arrived engine quiet

theorem handleTimeout_inv {now : Instant} (inv : Inv due s)
    (arms : Promise.Arms (some now) due due') :
    Post (Server.handleTimeout now) s (fun _ s' => Inv due' s') (fun _ s' => Inv due' s') := by
  unfold Server.handleTimeout
  rw [post_bind, post_modify, post_bind]
  have noted : Inv due { s with lastNow := now } := inv.of_fields rfl rfl rfl rfl id
  refine (initRandom_inv noted).mono (fun _ s₁ drawn => ?_) fun _ _ never => never.elim
  rw [post_bind]
  refine (timers_inv drawn arms).mono (fun _ s₂ timed => ?_) fun _ _ timed => timed
  rw [post_publicResult]
  exact (progressLoop_inv timed).mono (fun _ _ done => done) fun fault _ done => by
    cases fault <;> exact done

theorem pollOutput_inv {bufLen : Nat} (inv : Inv due s) :
    Post (Server.pollOutput bufLen) s (fun _ s' => Inv due s') (fun _ s' => Inv due s') := by
  unfold Server.pollOutput
  rw [post_bind, post_get]
  split
  · rename_i event rest isEvents
    rw [post_bind, post_set]
    have popped : Inv due { s with localEvents := rest } :=
      inv.of_fields rfl rfl rfl rfl fun member => isEvents ▸ List.mem_cons_of_mem event member
    exact (LocalEvent.intoOutput_readOnly _).mono (fun _ _ same => same ▸ popped)
      fun _ _ same => same ▸ popped
  · exact withEngine_inv inv (moves_of_quiet pollOutput_quiet)

theorem sendApplicationData_inv {data : Bytes} (inv : Inv due s) :
    Post (sendApplicationData data) s (fun _ s' => Inv due s') (fun _ s' => Inv due s') := by
  unfold sendApplicationData
  rw [post_bind, post_get, post_ite]
  refine ⟨fun _ => inv, fun _ => ?_⟩
  rw [post_ite]
  refine ⟨fun _ => ?_, fun open_ => ?_⟩
  · exact inv.of_fields rfl rfl rfl rfl id
  · have isState : s.state = .awaitApplicationData := not_not.mp open_
    refine withEngine_inv inv (createRecord_moves fun plain => ?_)
    rw [isState] at plain
    exact absurd rfl plain

/-- Closing keeps the invariant. -/
theorem Inv.closed (inv : Inv due s) : Inv due { s with state := .closed } where
  phase := inv.phase.advance (.inl rfl)
  lengths := inv.lengths
  has := Has.none
  verified := fun reported => ⟨rfl, (inv.verified reported).2⟩
  unoffered := fun isUnoffered => by cases isUnoffered
  deadline := fun isHandshake => by cases isHandshake

theorem close_inv (inv : Inv due s) : Post close s (fun _ s' => Inv due s') (fun _ s' => Inv due s') := by
  unfold close
  rw [post_bind, post_get, post_ite]
  refine ⟨fun _ => inv, fun _ => ?_⟩
  rw [post_ite]
  refine ⟨fun _ => ?_, fun open_ => ?_⟩
  · exact
      { phase := ⟨⟨inv.phase.seals.numbers, inv.phase.seals.nonces⟩, fun early => absurd rfl early⟩
        lengths := inv.lengths
        has := Has.none
        verified := inv.closed.verified
        unoffered := fun isUnoffered => by cases isUnoffered
        deadline := fun isHandshake => by cases isHandshake }
  · have isState : s.state = .awaitApplicationData := not_not.mp open_
    rw [post_bind]
    refine (withEngine_inv inv (createRecord_moves fun plain => ?_)).mono
      (fun _ s' kept => kept.closed) fun _ _ kept => kept
    rw [isState] at plain
    exact absurd rfl plain

/-- Every call keeps the invariant, whether it succeeds or not. -/
theorem exec_inv (inv : Inv due s) {call : Call} (arms : Promise.Arms call.tick due due') :
    Inv due' (s.exec call) := by
  have later : call.tick = none → Inv due' s := fun unticked =>
    inv.promise fun period timer promised => by
      have armed := arms period timer promised
      rwa [unticked, Timeout.arm_none] at armed
  apply post_state.mp
  cases call with
  | handlePacket packet => exact handlePacket_inv (later rfl)
  | handleTimeout now => exact handleTimeout_inv inv arms
  | pollOutput bufLen =>
      exact post_bind.mpr ((pollOutput_inv (later rfl)).mono (fun _ _ kept => kept)
        fun _ _ kept => kept)
  | sendApplicationData data => exact sendApplicationData_inv (later rfl)
  | close => exact close_inv (later rfl)

/-- A server reached by any calls, also behind errors. -/
def Reached (s : Server) : Prop := ∃ start calls, Start start ∧ s = run exec start calls

theorem Reached.inv (reached : Reached s) : Inv Promise.isSet s := by
  obtain ⟨start, calls, isStart, rfl⟩ := reached
  have preserved : ∀ (s : Server) (call : Call), Inv Promise.isSet s → True →
      Inv Promise.isSet (s.exec call) := fun _ _ inv _ => exec_inv inv Promise.isSet_arms
  exact run_invariant preserved (isStart.inv Timeout.noConfusion) (Meets.of_all fun _ _ => trivial)

end Runs

end Server

end Dimpl.Dtls12
