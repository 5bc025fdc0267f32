import Dimpl.Dtls12.ClientRun
import Dimpl.Dtls12.Engine.Milestone

/-!
# What a client knows

The checks a client has made in each of its states, and that they are made in
every run: the parameters of the key exchange were signed, the server's Finished
matched, and only then the connection is reported.
-/

namespace Dimpl.Dtls12

open Nom Program

/-- What `generate_verify_data` returns over a transcript. -/
def Engine.verifyDataOver (e : Engine) (isClient : Bool) (transcript : Bytes) : Option Bytes :=
  e.cipherSuite.bind fun suite =>
    match e.cryptoContext.generateVerifyData e.config.cryptoProvider
        (e.config.cryptoProvider.hash suite.hashAlgorithm transcript) isClient
        suite.hashAlgorithm with
    | .ok out => if out.length = 12 then some out else none
    | .error _ => none

/-- `generate_verify_data` is over the transcript so far. -/
theorem generateVerifyData_post {e : Engine} {isClient : Bool} :
    Post (generateVerifyData isClient) e
      (fun out e' => e' = e ∧ e.verifyDataOver isClient e.transcript = some out)
      (fun _ e' => e' = e) := by
  unfold generateVerifyData selectedCipherSuite
  rw [post_bind, post_bind, post_get, post_orThrow]
  refine ⟨fun suite isSuite => ?_, fun _ => rfl⟩
  rw [post_bind, post_get]
  dsimp only
  rw [post_bind, post_liftCrypto]
  refine ⟨fun out isOut => ?_, fun _ _ => rfl⟩
  rw [post_ite]
  refine ⟨fun _ => rfl, fun twelve => ⟨rfl, ?_⟩⟩
  have isTwelve : out.length = 12 := by simpa using twelve
  unfold Engine.transcriptHash at isOut
  simp [Engine.verifyDataOver, isSuite, isOut, isTwelve]

/-- A Finished of a side was equal to the verify data over a transcript. -/
def FinishedMatched (isClient : Bool) (log : List Check) (e : Engine) : Prop :=
  ∃ transcript verifyData, .finished transcript verifyData ∈ log ∧
    e.verifyDataOver isClient transcript = some verifyData

/-- Verify data depends on the session and the transcript only. -/
theorem Engine.verifyDataOver_of_session {e e' : Engine} (same : e'.session = e.session) :
    e'.verifyDataOver = e.verifyDataOver := by
  simp only [Engine.session, Prod.mk.injEq] at same
  obtain ⟨context, _, _, _, suite, config⟩ := same
  funext isClient transcript
  simp only [Engine.verifyDataOver, context, suite, config]

theorem FinishedMatched.mono {isClient : Bool} {log log' : List Check} {e e' : Engine}
    (matched : FinishedMatched isClient log e) (more : ∀ check ∈ log, check ∈ log')
    (same : e'.session = e.session) : FinishedMatched isClient log' e' := by
  obtain ⟨transcript, verifyData, member, isData⟩ := matched
  refine ⟨transcript, verifyData, more _ member, ?_⟩
  rwa [Engine.verifyDataOver_of_session same]

theorem Steps.still {e e' : Engine} {S : Bytes → Prop} {K : Prop} (steps : Steps S K e e') :
    e'.releaseAppData = e.releaseAppData ∧ e'.connectTimeout = e.connectTimeout := by
  induction steps with
  | refl => exact ⟨rfl, rfl⟩
  | tail _ step inductionHypothesis =>
      exact ⟨step.released.trans inductionHypothesis.1, step.connect.trans inductionHypothesis.2⟩

theorem selectedCipherSuite_post {e : Engine} :
    Post selectedCipherSuite e (fun suite e' => e' = e ∧ e.cipherSuite = some suite)
      (fun _ e' => e' = e) := by
  unfold selectedCipherSuite
  rw [post_bind, post_get, post_orThrow]
  exact ⟨fun suite isSuite => ⟨rfl, isSuite⟩, fun _ => rfl⟩

namespace Client

/-- What a client has reached in a state. -/
def State.milestones : State → Milestones
  | .sendFinished => ⟨true, false, false, false⟩
  | .awaitChangeCipherSpec => ⟨true, true, false, false⟩
  | .awaitNewSessionTicket | .awaitFinished => ⟨true, true, true, false⟩
  | .awaitApplicationData => ⟨true, true, true, true⟩
  | _ => ⟨false, false, false, false⟩

/-- Whether the handshake is under way: neither over nor given up. -/
def State.inHandshake (state : State) : Bool := state ≠ .awaitApplicationData && state ≠ .closed

/-- Whether the server's key exchange is behind a state. -/
def State.exchanged (state : State) : Bool := state.phase ≠ .hello && state ≠ .closed

/-- The parameters the client used last are those whose signature was verified
under the first certificate of the server, with both randoms. -/
def KeyExchangeChecked (c : Client) : Prop :=
  ∃ clientRandom serverRandom certificate curveType group publicKey signature algorithm,
    c.random = some clientRandom ∧ c.serverRandom = some serverRandom ∧
    c.serverCertificates.head? = some certificate ∧
    (exchanges c.log).getLast? = some (group, publicKey) ∧
    CryptoContext.verifySignature c.engine.config.cryptoProvider
      (clientRandom.bytes ++ serverRandom.bytes ++
        EcdhParams.serializeBytes curveType group publicKey)
      algorithm signature certificate = .ok ()

/-- With a certificate suite the key exchange was checked. -/
def Exchanged (c : Client) : Prop :=
  ∃ suite, c.engine.cipherSuite = some suite ∧ (suite.isPsk = false → KeyExchangeChecked c)

/-- All checks of a handshake were made. -/
def Verified (c : Client) : Prop := Exchanged c ∧ FinishedMatched false c.log c.engine

/-- What holds of a client in every state. What is promised of the deadline, while it
is there, is open. -/
structure Inv (due : Promise) (c : Client) : Prop where
  phase : c.engine.PhaseInv c.state.phase
  lengths : c.engine.explicitNonceLen ≤ c.engine.minProtectedFragmentLen
  reached : c.engine.Reached c.state.milestones
  exchanged : c.state.exchanged = true → Exchanged c
  verified : c.engine.releaseAppData = true ∨ LocalEvent.connected ∈ c.localEvents →
    c.state.phase = .sealing ∧ Verified c
  deadline : c.state.inHandshake = true →
    due c.engine.config.handshakeTimeout c.engine.connectTimeout

section Facts

variable {due : Promise} {phase : Phase} {calm : Prop} {c c' : Client}

theorem Exchanged.of_within (exchanged : Exchanged c) (within : Within phase calm c c')
    (endures : Endures phase calm c.engine c'.engine) (late : phase ≠ .hello) : Exchanged c' := by
  obtain ⟨suite, isSuite, checked⟩ := exchanged
  refine ⟨suite, (endures.suite late).trans isSuite, fun notPsk => ?_⟩
  obtain ⟨clientRandom, serverRandom, certificate, curveType, group, publicKey, signature, algorithm,
    isClient, isServer, isFirst, used, valid⟩ := checked notPsk
  obtain ⟨random, certificates, exchangesSame⟩ := within.facts late
  refine ⟨clientRandom, serverRandom, certificate, curveType, group, publicKey, signature, algorithm,
    within.random.trans isClient, random.trans isServer, ?_, ?_, ?_⟩
  · rw [certificates]
    exact isFirst
  · rw [exchangesSame]
    exact used
  · rw [endures.config]
    exact valid

theorem Verified.of_within (verified : Verified c) (within : Within .sealing calm c c')
    (endures : Endures .sealing calm c.engine c'.engine) : Verified c' :=
  ⟨verified.1.of_within within endures (by decide),
    verified.2.mono within.log (endures.session rfl)⟩

/-- A state and what may follow it. -/
theorem State.follows_phase {state next : State} (isNext : next ∈ state :: state.follows) :
    (next.phase = .sealing ∨ state.phase ≠ .sealing) ∧
      (state.phase = .sealing → next.phase = .sealing) ∧
      (next.inHandshake = true → state.inHandshake = true) ∧
      (next.milestones.keyed = true → next.phase = .sealing) := by
  revert next
  cases state <;> decide

/-- What is calm keeps the invariant, once what the next state asks for is there. -/
theorem Inv.of_within (inv : Inv due c) (isCalm : calm) (within : Within c.state.phase calm c c')
    {next : State} (isNext : next ∈ c.state :: c.state.follows)
    (reached : c'.engine.Reached next.milestones)
    (exchanged : next.exchanged = true → Exchanged c') : Inv due { c' with state := next } := by
  obtain ⟨later, sealing, handshake, _⟩ := State.follows_phase isNext
  have endures := within.engine.endures inv.phase
  refine ⟨(within.engine.phaseInv inv.phase).advance later, endures.lengths inv.lengths, reached,
    exchanged, fun reported => ?_, fun isHandshake => ?_⟩
  · have before : c.engine.releaseAppData = true ∨ LocalEvent.connected ∈ c.localEvents :=
      reported.imp (fun on => (endures.unreleased isCalm) ▸ on) (within.silent isCalm)
    have ⟨isSealing, verified⟩ := inv.verified before
    rw [isSealing] at within endures
    have after : Verified c' := verified.of_within within endures
    exact ⟨sealing isSealing, after⟩
  · have same : c'.engine.connectTimeout = c.engine.connectTimeout := endures.connect isCalm
    have config : c'.engine.config = c.engine.config := endures.config
    rw [same, config]
    exact inv.deadline (handshake isHandshake)

/-- What was there is there for the same state. -/
theorem Inv.kept (inv : Inv due c) (within : Within c.state.phase calm c c') :
    c'.engine.Reached c.state.milestones ∧ (c.state.exchanged = true → Exchanged c') := by
  have endures := within.engine.endures inv.phase
  refine ⟨inv.reached.of_endures endures fun isKeyed => ?_, fun isExchanged => ?_⟩
  · exact (State.follows_phase (@List.mem_cons_self _ c.state c.state.follows)).2.2.2 isKeyed
  · have both : c.state.phase ≠ .hello ∧ c.state ≠ .closed := by
      simpa [State.exchanged] using isExchanged
    exact (inv.exchanged isExchanged).of_within within endures both.1

/-- What is calm and leaves the state alone keeps the invariant. -/
theorem Inv.of_calm (inv : Inv due c) (isCalm : calm) (within : Within c.state.phase calm c c') :
    Inv due c' := by
  obtain ⟨reached, exchanged⟩ := inv.kept within
  have kept := inv.of_within isCalm within List.mem_cons_self reached exchanged
  rw [← within.state] at kept
  exact kept

end Facts

/-- Consuming records changes only the engine, by steps. -/
def Takes (c c' : Client) : Prop :=
  ∃ engine, c' = { c with engine } ∧ Steps (fun _ => True) False c.engine engine

section Handlers

variable {due : Promise} {c : Client}

theorem onHandshake_post {wanted : MessageType} {stay : State} {handle : Body → Bytes → ClientM State}
    {Q : State → Client → Prop} {E : Fault → Client → Prop}
    (stays : ∀ c', Takes c c' → Q stay c') (fails : ∀ fault c', Takes c c' → E fault c')
    (handled : ∀ c' body buffer, Takes c c' → Post (handle body buffer) c' Q E) :
    Post (onHandshake wanted stay handle) c Q E := by
  have quiet : Along (Quiet (fun _ => True) False) (nextHandshake wanted) := nextHandshake_quiet
  unfold onHandshake withEngine
  rw [post_bind, post_zoom]
  refine (quiet c.engine).mono (fun result engine moved => ?_) fun fault engine moved => ?_
  · have takes : Takes c { c with engine } := ⟨engine, rfl, (moved False.elim).1⟩
    cases result with
    | none => exact stays _ takes
    | some message => exact handled _ _ _ takes
  · exact fails _ _ ⟨engine, rfl, (moved False.elim).1⟩

/-- Parameters that are accepted were signed, and are those that are used. -/
theorem handleSignedParams_checked {params : EcdhParams} {signed : DigitallySigned} {buffer : Bytes} :
    Post (handleSignedParams params signed buffer) c
      (fun _ c' => c'.engine.cipherSuite = c.engine.cipherSuite ∧ KeyExchangeChecked c')
      (fun _ _ => True) := by
  unfold handleSignedParams
  rw [post_bind, post_get, post_bind, post_orThrow]
  refine ⟨fun clientRandom isClient => ?_, fun _ => trivial⟩
  rw [post_bind, post_orThrow]
  refine ⟨fun serverRandom isServer => ?_, fun _ => trivial⟩
  unfold withEngine
  rw [post_bind, post_zoom]
  refine selectedCipherSuite_post.mono ?_ fun _ _ _ => trivial
  rintro suite _ ⟨rfl, isSuite⟩
  split
  · trivial
  · rw [post_bind, post_orThrow]
    refine ⟨fun certificate isFirst => ?_, fun _ => trivial⟩
    dsimp only
    rw [post_bind, post_liftCrypto]
    refine ⟨fun _ valid => ?_, fun _ _ => trivial⟩
    simp only [logCheck, post_bind, post_modify, withContext, post_zoom, post_pure]
    refine post_self.mono (fun _ cryptoContext _ => ⟨trivial, ?_⟩) fun _ _ _ => trivial
    refine ⟨clientRandom, serverRandom, certificate, params.curveType, params.namedGroup,
      slice buffer params.publicKeyRange, signed.signature buffer, signed.algorithm, isClient,
      isServer, isFirst, ?_, valid⟩
    simp [exchanges]

/-- Behind the server's key exchange it was checked. -/
theorem awaitServerKeyExchange_exchanged :
    Post awaitServerKeyExchange c
      (fun next c' => next ≠ .awaitServerKeyExchange → Exchanged c') (fun _ _ => True) := by
  unfold awaitServerKeyExchange withEngine
  rw [post_bind, post_zoom]
  refine selectedCipherSuite_post.mono ?_ fun _ _ _ => trivial
  rintro suite _ ⟨rfl, isSuite⟩
  have unchecked : suite.isPsk = true → ∀ c', Takes c c' → Exchanged c' := by
    rintro isPsk _ ⟨engine, rfl, steps⟩
    have session := steps.grows.session
    simp only [Engine.session, Prod.mk.injEq] at session
    exact ⟨suite, session.2.2.2.2.1.trans isSuite, fun notPsk => by simp [isPsk] at notPsk⟩
  rw [post_ite]
  constructor
  · intro isPsk
    unfold awaitServerKeyExchangePsk
    rw [post_bind, post_get, post_ite]
    refine ⟨fun _ _ => unchecked isPsk c ⟨c.engine, rfl, .refl⟩, fun _ => ?_⟩
    refine onHandshake_post (fun _ _ stays => absurd rfl stays) (fun _ _ _ => trivial) ?_
    intro c' body buffer takes
    split
    · exact fun _ => unchecked isPsk c' takes
    · trivial
    · trivial
  · intro _
    refine onHandshake_post (fun _ _ stays => absurd rfl stays) (fun _ _ _ => trivial) ?_
    rintro c' body buffer ⟨engine, rfl, steps⟩
    have session := steps.grows.session
    simp only [Engine.session, Prod.mk.injEq] at session
    split
    · split
      · split
        · refine handleSignedParams_checked.mono ?_ fun _ _ _ => trivial
          rintro next c'' ⟨sameSuite, checked⟩ _
          exact ⟨suite, sameSuite.trans (session.2.2.2.2.1.trans isSuite), fun _ => checked⟩
        · trivial
      · trivial
    · trivial

theorem sendChangeCipherSpec_keyed :
    Post sendChangeCipherSpec c (fun _ c' => c'.engine.cryptoContext.Keyed) (fun _ _ => True) := by
  unfold sendChangeCipherSpec deriveKeys withEngine
  simp only [bind_assoc]
  rw [post_bind, post_zoom]
  refine post_self.mono (fun suite e₁ _ => ?_) fun _ _ _ => trivial
  rw [post_bind, post_get, post_bind, post_orThrow]
  refine ⟨fun serverRandom _ => ?_, fun _ => trivial⟩
  rw [post_bind, post_orThrow]
  refine ⟨fun clientRandom _ => ?_, fun _ => trivial⟩
  rw [post_bind, post_orThrow]
  refine ⟨fun sessionHash _ => ?_, fun _ => trivial⟩
  rw [post_bind, post_zoom]
  refine deriveSessionKeys_keyed.mono (fun _ e₂ keyed => ?_) fun _ _ _ => trivial
  rw [post_bind, post_zoom]
  have quiet : Along (Quiet (fun _ => True) False) (createRecord .changeCipherSpec 0 true [1]) :=
    createRecordInner_quiet False.elim
  refine (quiet e₂).mono (fun _ e₃ moved => ?_) fun _ _ _ => trivial
  have session := (moved False.elim).1.grows.session
  simp only [Engine.session, Prod.mk.injEq] at session
  rw [post_pure]
  show e₃.cryptoContext.Keyed
  rw [session.1]
  exact keyed

theorem sendFinished_sealed :
    Post sendFinished c (fun _ c' => sealings c'.engine.log ≠ []) (fun _ _ => True) := by
  unfold sendFinished withEngine
  rw [post_bind, post_zoom]
  exact createHandshake_sealed (by decide)

theorem awaitChangeCipherSpec_enabled :
    Post awaitChangeCipherSpec c (fun next c' => next ≠ .awaitChangeCipherSpec →
      c'.engine.peerEncryptionEnabled = true) (fun _ _ => True) := by
  unfold awaitChangeCipherSpec withEngine
  rw [post_bind, post_zoom]
  refine post_self.mono (fun result e₁ _ => ?_) fun _ _ _ => trivial
  cases result with
  | none => exact fun stays => absurd rfl stays
  | some r =>
      dsimp only
      rw [post_bind, post_zoom]
      refine post_self.mono (fun _ e₂ _ => ?_) fun _ _ _ => trivial
      rw [post_bind, post_zoom]
      exact enablePeerEncryption_enabled.mono (fun _ _ on _ => on) fun _ _ _ => trivial

/-- What reporting and releasing depend on is as it was. -/
structure Still (c c' : Client) : Prop where
  released : c'.engine.releaseAppData = c.engine.releaseAppData
  connect : c'.engine.connectTimeout = c.engine.connectTimeout
  events : c'.localEvents = c.localEvents

theorem Takes.still {c' : Client} (takes : Takes c c') : Still c c' := by
  obtain ⟨engine, rfl, steps⟩ := takes
  obtain ⟨released, connect⟩ := Steps.still steps
  exact ⟨released, connect, rfl⟩

/-- The last handler of the handshake: nothing is reported or stopped before the
server's Finished was equal. -/
theorem awaitFinished_post (suite : c.engine.cipherSuite.isSome = true) :
    Post awaitFinished c
      (fun next c' => (next = .awaitFinished ∧ Still c c') ∨
        (next = .awaitApplicationData ∧ c'.engine.releaseAppData = true ∧
          FinishedMatched false c'.log c'.engine))
      (fun _ c' => Still c c') := by
  unfold awaitFinished
  rw [post_bind, post_get]
  dsimp only
  unfold withEngine
  rw [post_bind, post_zoom]
  refine generateVerifyData_post.mono ?_ fun _ _ same => same ▸ ⟨rfl, rfl, rfl⟩
  rintro expected _ ⟨rfl, isExpected⟩
  refine onHandshake_post (fun _ takes => .inl ⟨rfl, takes.still⟩) (fun _ _ takes => takes.still) ?_
  rintro c' body buffer takes
  split
  · rw [post_ite]
    refine ⟨fun _ => takes.still, fun equal => ?_⟩
    obtain ⟨engine, rfl, steps⟩ := takes
    have session := steps.grows.session
    have isSame : engine.verifyDataOver false c.engine.transcript = some expected := by
      rw [Engine.verifyDataOver_of_session session]
      exact isExpected
    simp only [Engine.session, Prod.mk.injEq] at session
    obtain ⟨suite', isSuite⟩ := Option.isSome_iff_exists.mp suite
    have engineSuite : engine.cipherSuite = some suite' := session.2.2.2.2.1.trans isSuite
    have received := not_not.mp equal
    unfold logCheck completeHandshake emitKeyingMaterial withEngine
    simp only [post_bind, post_modify, post_zoom, post_get]
    have matched : FinishedMatched false
        (c.log ++ [.finished c.engine.transcript (slice buffer _)]) engine :=
      ⟨_, _, List.mem_append_right _ List.mem_cons_self, received ▸ isSame⟩
    split
    · exact .inr ⟨rfl, rfl, matched⟩
    · rw [post_bind, post_orThrow]
      refine ⟨fun _ _ => .inr ⟨rfl, rfl, matched⟩, fun noSuite => ?_⟩
      exact absurd (engineSuite.symm.trans noSuite) (by simp)
  · exact takes.still

/-- Whether a transition asks for nothing that was not there. -/
def State.plain (state next : State) : Bool :=
  next.milestones = state.milestones && (!next.exchanged || state.exchanged)

/-- The transitions that ask for more. -/
theorem State.not_plain {state next : State} (isCalm : state.calm)
    (isNext : next ∈ state :: state.follows) (more : state.plain next = false) :
    (state = .awaitServerKeyExchange ∧ next ≠ state ∧ next.milestones = state.milestones) ∨
      (state = .sendChangeCipherSpec ∧ next = .sendFinished) ∨
      (state = .sendFinished ∧ next = .awaitChangeCipherSpec) ∨
      (state = .awaitChangeCipherSpec ∧ next = .awaitNewSessionTicket) := by
  revert next
  cases state
  case awaitFinished => exact isCalm.elim
  case awaitApplicationData => exact isCalm.elim
  all_goals decide

/-- What the handlers behind those transitions provide. -/
theorem makeProgress_provides :
    Post c.state.makeProgress c
      (fun next c' => ((c.state = .awaitServerKeyExchange → next ≠ c.state → Exchanged c') ∧
        (c.state = .sendChangeCipherSpec → c'.engine.cryptoContext.Keyed)) ∧
        ((c.state = .sendFinished → sealings c'.engine.log ≠ []) ∧
        (c.state = .awaitChangeCipherSpec → next ≠ c.state → c'.engine.peerEncryptionEnabled = true)))
      (fun _ _ => True) := by
  have exchange := post_imp fun isState : c.state = .awaitServerKeyExchange =>
    show Post c.state.makeProgress c (fun next c' => next ≠ c.state → Exchanged c') _ by
      rw [isState]
      exact awaitServerKeyExchange_exchanged
  have keys := post_imp fun isState : c.state = .sendChangeCipherSpec =>
    show Post c.state.makeProgress c (fun _ c' => c'.engine.cryptoContext.Keyed) _ by
      rw [isState]
      exact sendChangeCipherSpec_keyed
  have finished := post_imp fun isState : c.state = .sendFinished =>
    show Post c.state.makeProgress c (fun _ c' => sealings c'.engine.log ≠ []) _ by
      rw [isState]
      exact sendFinished_sealed
  have spec := post_imp fun isState : c.state = .awaitChangeCipherSpec =>
    show Post c.state.makeProgress c
        (fun next c' => next ≠ c.state → c'.engine.peerEncryptionEnabled = true) _ by
      rw [isState]
      exact awaitChangeCipherSpec_enabled
  exact ((exchange.and keys).and (finished.and spec)).mono (fun _ _ facts => facts)
    fun _ _ _ => trivial

/-- A calm handler keeps the invariant. -/
theorem makeProgress_calm (inv : Inv due c) (isCalm : c.state.calm) :
    Post c.state.makeProgress c (fun next c' => Inv due { c' with state := next }) (fun _ c' => Inv due c') := by
  have within := makeProgress_within c.state c
  have returns := makeProgress_returns c.state c
  refine ((within.and returns).and makeProgress_provides).mono ?_ ?_
  · rintro next c' ⟨⟨within, isNext⟩, ⟨exchange, keys⟩, finished, spec⟩
    obtain ⟨kept, keptExchange⟩ := inv.kept within
    cases more : c.state.plain next with
    | true =>
        have ⟨same, exchanged⟩ : next.milestones = c.state.milestones ∧
            (next.exchanged = true → c.state.exchanged = true) := by
          simp only [State.plain, Bool.and_eq_true, decide_eq_true_eq, Bool.or_eq_true,
            Bool.not_eq_true'] at more
          exact ⟨more.1, fun on => more.2.resolve_left (by simp [on])⟩
        exact inv.of_within isCalm within isNext (same ▸ kept) fun on => keptExchange (exchanged on)
    | false =>
        rcases State.not_plain isCalm isNext more with ⟨isState, moved, same⟩ | ⟨isState, rfl⟩ |
          ⟨isState, rfl⟩ | ⟨isState, rfl⟩
        · exact inv.of_within isCalm within isNext (same ▸ kept) fun _ => exchange isState moved
        · refine inv.of_within isCalm within isNext ?_ fun _ => keptExchange (by rw [isState]; rfl)
          exact { Engine.Reached.none with keyed := fun _ => keys isState }
        · refine inv.of_within isCalm within isNext ?_ fun _ => keptExchange (by rw [isState]; rfl)
          rw [isState] at kept
          exact { kept with sealed := fun _ => finished isState }
        · refine inv.of_within isCalm within isNext ?_ fun _ => keptExchange (by rw [isState]; rfl)
          have isEnabled := spec isState (by rw [isState]; decide)
          rw [isState] at kept
          exact { kept with enabled := fun _ => isEnabled }
  · rintro _ c' ⟨⟨within, _⟩, _⟩
    exact inv.of_calm isCalm within

/-- The last handler of the handshake keeps the invariant. -/
theorem makeProgress_awaitFinished (inv : Inv due c) (isState : c.state = .awaitFinished) :
    Post c.state.makeProgress c (fun next c' => Inv due { c' with state := next }) (fun _ c' => Inv due c') := by
  have phaseInv := inv.phase
  have reached := inv.reached
  have exchanged : Exchanged c := inv.exchanged (by rw [isState]; rfl)
  rw [isState] at phaseInv reached
  have hasSuite : c.engine.cipherSuite.isSome = true := by
    obtain ⟨suite, isSuite, _⟩ := exchanged
    simp [isSuite]
  have within := makeProgress_within c.state c
  rw [isState] at within ⊢
  have finished := awaitFinished_post hasSuite
  -- As long as nothing is reported the invariant stays.
  have stays : ∀ c', Within .sealing False c c' → Still c c' →
      Inv due { c' with state := .awaitFinished } := by
    intro c' within still
    have endures := within.engine.endures phaseInv
    have stillExchanged : Exchanged c' := exchanged.of_within within endures (by decide)
    refine ⟨within.engine.phaseInv phaseInv, endures.lengths inv.lengths,
      reached.of_endures endures fun _ => rfl, fun _ => stillExchanged, fun reported => ?_,
      fun _ => ?_⟩
    · have before : c.engine.releaseAppData = true ∨ LocalEvent.connected ∈ c.localEvents :=
        reported.imp (fun on => still.released ▸ on) fun member => still.events ▸ member
      have verified : Verified c' := (inv.verified before).2.of_within within endures
      exact ⟨rfl, verified⟩
    · have config : c'.engine.config = c.engine.config := endures.config
      rw [still.connect, config]
      exact inv.deadline (by rw [isState]; rfl)
  refine (within.and finished).mono ?_ ?_
  · rintro next c' ⟨within, ⟨rfl, still⟩ | ⟨rfl, released, matched⟩⟩
    · exact stays c' within still
    · have endures := within.engine.endures phaseInv
      have exchanged : Exchanged c' := exchanged.of_within within endures (by decide)
      exact
        { phase := within.engine.phaseInv phaseInv
          lengths := endures.lengths inv.lengths
          reached := { reached.of_endures endures fun _ => rfl with released := fun _ => released }
          exchanged := fun _ => exchanged
          verified := fun _ => ⟨rfl, exchanged, matched⟩
          deadline := fun isHandshake => by cases isHandshake }
  · rintro _ c' ⟨within, still⟩
    have kept := stays c' within still
    rw [← isState, ← within.state] at kept
    exact kept

/-- The handler behind the handshake keeps the invariant. -/
theorem makeProgress_awaitApplicationData (inv : Inv due c) (isState : c.state = .awaitApplicationData) :
    Post c.state.makeProgress c (fun next c' => Inv due { c' with state := next }) (fun _ c' => Inv due c') := by
  have phaseInv := inv.phase
  have reached := inv.reached
  have exchanged : Exchanged c := inv.exchanged (by rw [isState]; rfl)
  rw [isState] at phaseInv reached
  have verified : Verified c := (inv.verified (.inl (reached.released rfl))).2
  have within := makeProgress_within c.state c
  have returns := makeProgress_returns c.state c
  rw [isState] at within returns ⊢
  have stays : ∀ c', Within .sealing False c c' → Inv due { c' with state := .awaitApplicationData } := by
    intro c' within
    have endures := within.engine.endures phaseInv
    have after : Verified c' := verified.of_within within endures
    exact
      { phase := within.engine.phaseInv phaseInv
        lengths := endures.lengths inv.lengths
        reached := reached.of_endures endures fun _ => rfl
        exchanged := fun _ => after.1
        verified := fun _ => ⟨rfl, after⟩
        deadline := fun isHandshake => by cases isHandshake }
  refine (within.and returns).mono ?_ ?_
  · rintro next c' ⟨within, isNext⟩
    have kept := stays c' within
    rcases List.mem_cons.mp isNext with rfl | closed
    · exact kept
    · cases List.mem_singleton.mp closed
      exact
        { phase := kept.phase
          lengths := kept.lengths
          reached := Engine.Reached.none
          exchanged := fun isExchanged => by cases isExchanged
          verified := fun _ => ⟨rfl, (kept.verified (.inl (kept.reached.released rfl))).2⟩
          deadline := fun isHandshake => by cases isHandshake }
  · rintro _ c' ⟨within, _⟩
    have kept := stays c' within
    rw [← isState, ← within.state] at kept
    exact kept

/-- Every handler keeps the invariant. -/
theorem makeProgress_inv (inv : Inv due c) :
    Post c.state.makeProgress c (fun next c' => Inv due { c' with state := next }) (fun _ c' => Inv due c') := by
  by_cases finished : c.state = .awaitFinished
  · exact makeProgress_awaitFinished inv finished
  · by_cases data : c.state = .awaitApplicationData
    · exact makeProgress_awaitApplicationData inv data
    · refine makeProgress_calm inv ?_
      cases state : c.state <;> simp_all [State.calm]

theorem progressLoop_inv {fuel : Nat} (inv : Inv due c) :
    Post (progressLoop fuel) c (fun _ c' => Inv due c') (fun _ c' => Inv due c') := by
  induction fuel generalizing c with
  | zero => exact inv
  | succ fuel inductionHypothesis =>
      unfold progressLoop
      rw [post_bind, post_get]
      dsimp only
      rw [post_bind]
      refine ((makeProgress_inv inv).and (makeProgress_within c.state c)).mono ?_
        fun _ _ kept => kept.1
      rintro next c' ⟨kept, within⟩
      rw [post_ite]
      constructor
      · intro same
        rw [same, ← within.state] at kept
        exact kept
      · intro _
        rw [post_bind, post_modify]
        exact inductionHypothesis kept

end Handlers

/-- A call on a client. -/
inductive Call where
  | handlePacket (packet : Bytes)
  | handleTimeout (now : Instant)
  | pollOutput (bufLen : Nat)
  | sendApplicationData (data : Bytes)
  | close

/-- The program of a call. -/
def Call.program : Call → ClientM Unit
  | .handlePacket packet => Client.handlePacket packet
  | .handleTimeout now => Client.handleTimeout now
  | .pollOutput bufLen => do
    let _ ← Client.pollOutput bufLen
  | .sendApplicationData data => Client.sendApplicationData data
  | .close => Client.close

/-- The time of a timeout call. -/
def Call.tick : Call → Option Instant
  | .handleTimeout now => some now
  | _ => none

/-- The client after a call, whether it succeeded or not. -/
def exec (c : Client) (call : Call) : Client := finalState call.program c

/-- A client at its start: with a new engine, or behind a hello that was sent
outside of it. The generator may have been drawn from before. -/
inductive Start : Client → Prop where
  | fresh (config : Config) (auth : AuthMode) (rng rng' entropy : SeededRng) (now : Instant) :
      Start (newWithEngine { Engine.new config auth rng entropy with rng := rng' } now)
  | hybrid (config : Config) (auth : AuthMode) (rng rng' entropy : SeededRng) (now : Instant)
      (random : Random) (handshakeFragment : Bytes) :
      Start (newFromHybrid random handshakeFragment
        { Engine.new config auth rng entropy with rng := rng' } now)

section Runs

variable {due due' : Promise} {c : Client}

theorem Start.inv (start : Start c) (promised : due c.engine.config.handshakeTimeout .unarmed) :
    Inv due c := by
  have unreported : ∀ c : Client, c.engine.releaseAppData = false → c.localEvents = [] →
      ¬(c.engine.releaseAppData = true ∨ LocalEvent.connected ∈ c.localEvents) := by
    intro c unreleased silent
    simp [unreleased, silent]
  cases start with
  | fresh | hybrid =>
      exact
        { phase := .of_fresh rfl rfl rfl
          lengths := Nat.le_refl 0
          reached := .none
          exchanged := fun isExchanged => by cases isExchanged
          verified := fun reported => absurd reported (unreported _ rfl rfl)
          deadline := fun _ => promised }

/-- A calm program on the engine keeps the invariant. -/
theorem withEngine_inv {α : Type} {program : EngineM α} (inv : Inv due c)
    (along : Along (Moves (c.state.phase.rules True)) program) :
    Post (withEngine program) c (fun _ c' => Inv due c') (fun _ c' => Inv due c') :=
  (along_withEngine along c).mono (fun _ _ within => inv.of_calm trivial within)
    fun _ _ within => inv.of_calm trivial within

theorem handlePacket_inv {packet : Bytes} (inv : Inv due c) :
    Post (handlePacket packet) c (fun _ c' => Inv due c') (fun _ c' => Inv due c') := by
  unfold handlePacket
  rw [post_publicResult, post_bind]
  have received := withEngine_inv inv (@receivePacket_moves _ packet fun _ _ => trivial)
  refine received.mono (fun _ c' kept => ?_) fun fault _ kept => by cases fault <;> exact kept
  exact (progressLoop_inv kept).mono (fun _ _ done => done) fun fault _ done => by
    cases fault <;> exact done

/-- Drawing the random cannot fail. -/
theorem initRandom_inv {now : Instant} (inv : Inv due c) :
    Post (initRandom now) c (fun _ c' => Inv due c') (fun _ _ => False) := by
  unfold initRandom
  rw [post_bind, post_get]
  split
  · exact inv
  · rename_i noRandom
    unfold withEngine newRandom randomArr
    simp only [post_bind, post_zoom, post_get, post_set, post_pure, post_modify]
    generalize isEngine : ({ c.engine with rng := (c.engine.rng.randomBytes 28).2 } : Engine) = engine
    have moved : Moves (c.state.phase.rules True) c.engine engine :=
      isEngine ▸ Moves.of_core rfl (List.Subset.refl _)
    have within : Within c.state.phase True c { c with engine } :=
      ⟨moved, rfl, rfl, fun _ member => member, fun _ => ⟨rfl, rfl, rfl⟩, fun _ => id⟩
    have kept : Inv due { c with engine } := inv.of_calm trivial within
    -- Without a random nothing was checked against one.
    have widen : ∀ random, Exchanged { c with engine } →
        Exchanged { c with engine, random := some random } := by
      rintro random ⟨suite, isSuite, checked⟩
      refine ⟨suite, isSuite, fun notPsk => ?_⟩
      obtain ⟨_, _, _, _, _, _, _, _, isClient, _⟩ := checked notPsk
      exact absurd (noRandom.symm.trans isClient) (by simp)
    exact
      { kept with
        exchanged := fun isExchanged => widen _ (kept.exchanged isExchanged)
        verified := by
          intro reported
          obtain ⟨isSealing, exchanged, matched⟩ := kept.verified reported
          exact ⟨isSealing, widen _ exchanged, matched⟩ }

/-- A promise may be another one. -/
theorem Inv.promise (inv : Inv due c)
    (weaker : ∀ period timer, due period timer → due' period timer) : Inv due' c :=
  { inv with deadline := fun isHandshake => weaker _ _ (inv.deadline isHandshake) }

/-- Arming the timers keeps the invariant. -/
theorem Inv.of_armed {now : Instant} (inv : Inv due c) (arms : Promise.Arms (some now) due due') :
    Inv due' { c with engine := c.engine.armTimers now } where
  phase := ⟨⟨inv.phase.seals.numbers, inv.phase.seals.nonces⟩, inv.phase.early⟩
  lengths := inv.lengths
  reached := ⟨inv.reached.keyed, inv.reached.sealed, inv.reached.enabled, inv.reached.released⟩
  exchanged := inv.exchanged
  verified := inv.verified
  deadline := fun isHandshake => by
    rw [Engine.armTimers_connect]
    exact arms _ _ (inv.deadline isHandshake)

/-- The timers of the engine keep the invariant. -/
theorem timers_inv {now : Instant} (inv : Inv due c) (arms : Promise.Arms (some now) due due') :
    Post (withEngine (Engine.handleTimeout now)) c (fun _ c' => Inv due' c') (fun _ c' => Inv due' c') := by
  have armed : Inv due' { c with engine := c.engine.armTimers now } := inv.of_armed arms
  unfold withEngine
  rw [post_zoom]
  have arrived : ∀ engine, Quiet (fun _ => True) (c.state.phase ≠ .sealing)
      (c.engine.armTimers now) engine → Inv due' { c with engine } := by
    intro engine quiet
    have moved : Moves (c.state.phase.rules True) (c.engine.armTimers now) engine := quiet.moves
    have within : Within c.state.phase True { c with engine := c.engine.armTimers now }
        { c with engine } :=
      ⟨moved, rfl, rfl, fun _ member => member, fun _ => ⟨rfl, rfl, rfl⟩, fun _ => id⟩
    exact armed.of_calm trivial within
  exact handleTimeout_armed.mono (fun _ engine quiet => arrived engine quiet) fun _ engine quiet =>
    arrived engine quiet

theorem handleTimeout_inv {now : Instant} (inv : Inv due c)
    (arms : Promise.Arms (some now) due due') :
    Post (Client.handleTimeout now) c (fun _ c' => Inv due' c') (fun _ c' => Inv due' c') := by
  unfold Client.handleTimeout
  rw [post_bind, post_modify, post_bind]
  have noted : Inv due { c with lastNow := now } :=
    ⟨inv.phase, inv.lengths, inv.reached, inv.exchanged, inv.verified, inv.deadline⟩
  refine (initRandom_inv noted).mono (fun _ c₁ drawn => ?_) fun _ _ never => never.elim
  rw [post_bind]
  refine (timers_inv drawn arms).mono (fun _ c₂ timed => ?_) fun _ _ timed => timed
  rw [post_publicResult]
  exact (progressLoop_inv timed).mono (fun _ _ done => done) fun fault _ done => by
    cases fault <;> exact done

theorem pollOutput_inv {bufLen : Nat} (inv : Inv due c) :
    Post (Client.pollOutput bufLen) c (fun _ c' => Inv due c') (fun _ c' => Inv due c') := by
  unfold Client.pollOutput
  rw [post_bind, post_get]
  split
  · rename_i event rest isEvents
    rw [post_bind, post_set]
    have popped : Inv due { c with localEvents := rest } := by
      have within : Within c.state.phase True c { c with localEvents := rest } :=
        Within.of_fields rfl rfl rfl rfl (fun _ => ⟨rfl, rfl⟩)
          fun _ member => isEvents ▸ List.mem_cons_of_mem event member
      exact inv.of_calm trivial within
    exact (LocalEvent.intoOutput_readOnly _).mono (fun _ _ same => same ▸ popped)
      fun _ _ same => same ▸ popped
  · exact withEngine_inv inv (moves_of_quiet pollOutput_quiet)

theorem sendApplicationData_inv {data : Bytes} (inv : Inv due c) :
    Post (sendApplicationData data) c (fun _ c' => Inv due c') (fun _ c' => Inv due c') := by
  unfold sendApplicationData
  rw [post_bind, post_get, post_ite]
  refine ⟨fun _ => inv, fun _ => ?_⟩
  rw [post_ite]
  refine ⟨fun _ => ?_, fun open_ => ?_⟩
  · exact ⟨inv.phase, inv.lengths, inv.reached, inv.exchanged, inv.verified, inv.deadline⟩
  · have isState : c.state = .awaitApplicationData := not_not.mp open_
    refine withEngine_inv inv (createRecord_moves fun plain => ?_)
    rw [isState] at plain
    exact absurd rfl plain

theorem close_inv (inv : Inv due c) : Post close c (fun _ c' => Inv due c') (fun _ c' => Inv due c') := by
  have closes : ∀ c', Inv due c' → Inv due { c' with state := .closed } := by
    intro c' kept
    exact
      { phase := kept.phase.advance (.inl rfl)
        lengths := kept.lengths
        reached := .none
        exchanged := fun isExchanged => by cases isExchanged
        verified := fun reported => ⟨rfl, (kept.verified reported).2⟩
        deadline := fun isHandshake => by cases isHandshake }
  unfold close
  rw [post_bind, post_get, post_ite]
  refine ⟨fun _ => inv, fun _ => ?_⟩
  rw [post_ite]
  refine ⟨fun _ => ?_, fun open_ => ?_⟩
  · have closed := closes c inv
    exact
      { phase := ⟨⟨closed.phase.seals.numbers, closed.phase.seals.nonces⟩,
          fun early => absurd rfl early⟩
        lengths := closed.lengths
        reached := .none
        exchanged := fun isExchanged => by cases isExchanged
        verified := closed.verified
        deadline := fun isHandshake => by cases isHandshake }
  · have isState : c.state = .awaitApplicationData := not_not.mp open_
    rw [post_bind]
    refine (withEngine_inv inv (createRecord_moves fun plain => ?_)).mono
      (fun _ c' kept => closes c' kept) fun _ _ kept => kept
    rw [isState] at plain
    exact absurd rfl plain

/-- Every call keeps the invariant, whether it succeeds or not. -/
theorem exec_inv (inv : Inv due c) {call : Call} (arms : Promise.Arms call.tick due due') :
    Inv due' (c.exec call) := by
  have later : call.tick = none → Inv due' c := fun unticked =>
    inv.promise fun period timer promised => by
      have armed := arms period timer promised
      rwa [unticked, Timeout.arm_none] at armed
  apply post_state.mp
  cases call with
  | handlePacket packet => exact handlePacket_inv (later rfl)
  | handleTimeout now => exact handleTimeout_inv inv arms
  | pollOutput bufLen =>
      exact post_bind.mpr ((pollOutput_inv (later rfl)).mono (fun _ _ kept => kept)
        fun _ _ kept => kept)
  | sendApplicationData data => exact sendApplicationData_inv (later rfl)
  | close => exact close_inv (later rfl)

/-- A client reached by any calls, also behind errors. -/
def Reached (c : Client) : Prop := ∃ start calls, Start start ∧ c = run exec start calls

theorem Reached.inv (reached : Reached c) : Inv Promise.isSet c := by
  obtain ⟨start, calls, isStart, rfl⟩ := reached
  have preserved : ∀ (c : Client) (call : Call), Inv Promise.isSet c → True →
      Inv Promise.isSet (c.exec call) := fun _ _ inv _ => exec_inv inv Promise.isSet_arms
  exact run_invariant preserved (isStart.inv Timeout.noConfusion) (Meets.of_all fun _ _ => trivial)

end Runs

end Client

end Dimpl.Dtls12
