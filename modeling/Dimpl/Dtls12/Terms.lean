import Dimpl.Dtls12.ServerInv

/-!
# What is settled stays

The settings and the key of an endpoint never change. What a server takes from the hello
of its client, it takes once: all handlers behind that of the hello keep it.
-/

namespace Dimpl.Dtls12

open Nom Program

/-- What an engine is set up with, and its suite. -/
structure Ground where
  config : Config
  cipherSuite : Option Dtls12CipherSuite
  auth : AuthMode

/-- The ground of an engine. -/
def Engine.ground (e : Engine) : Ground := ⟨e.config, e.cipherSuite, e.cryptoContext.auth⟩

/-- What an engine works with that is not its own: settings, suite and secrets. -/
def Engine.footing (e : Engine) : Config × Option Dtls12CipherSuite × CryptoContext :=
  (e.config, e.cipherSuite, e.cryptoContext)

/-- The rules of functions that change neither suite nor keys. -/
def settledRules : Rules where
  slices := fun _ => True
  plain := False
  mayEnable := fun _ => True
  mayRelease := fun _ => True
  mayRekey := fun _ => False
  maySelect := fun _ => False
  mayTime := fun _ => True

section Engines

variable {e e' : Engine}

theorem footing_of_session (same : e'.session = e.session) : e'.footing = e.footing := by
  simp only [Engine.session, Prod.mk.injEq] at same
  simp only [Engine.footing, Prod.mk.injEq]
  exact ⟨same.2.2.2.2.2, same.2.2.2.2.1, same.1⟩

theorem Change.footing (change : Change settledRules e e') : e'.footing = e.footing := by
  cases change with
  | quiet step => exact footing_of_session step.grows.session
  | received | enabled | released | timed => rfl
  | rekeyed allowed => exact absurd allowed not_false
  | selected allowed => exact absurd allowed not_false
  | retold => rfl

theorem Changes.footing (changes : Changes settledRules e e') : e'.footing = e.footing := by
  induction changes with
  | refl => rfl
  | tail _ change inductionHypothesis => exact change.footing.trans inductionHypothesis

theorem footing_of_moves {α : Type} {program : EngineM α} (moves : Along (Moves settledRules) program) :
    Along (Keeps Engine.footing) program :=
  moves.mono fun _ _ moved => (moved False.elim).1.footing

theorem footing_of_quiet {α : Type} {program : EngineM α}
    (quiet : Along (Quiet (fun _ => True) False) program) : Along (Keeps Engine.footing) program := by
  have moves : Along (Moves settledRules) program := moves_of_quiet quiet
  exact footing_of_moves moves

theorem ground_of_moves {α : Type} {program : EngineM α} (moves : Along (Moves settledRules) program) :
    Along (Keeps Engine.ground) program :=
  (footing_of_moves moves).mono fun _ _ same => congrArg
    (fun footing : Config × Option Dtls12CipherSuite × CryptoContext =>
      (⟨footing.1, footing.2.1, footing.2.2.auth⟩ : Ground)) same

theorem ground_of_quiet {α : Type} {program : EngineM α}
    (quiet : Along (Quiet (fun _ => True) False) program) : Along (Keeps Engine.ground) program := by
  have moves : Along (Moves settledRules) program := moves_of_quiet quiet
  exact ground_of_moves moves

theorem withContext_ground {α : Type} {program : ContextM α}
    (keeps : Along (Keeps CryptoContext.auth) program) :
    Along (Keeps Engine.ground) (withContext program) :=
  along_zoom keeps fun e context same => by
    have isSame : context.auth = e.cryptoContext.auth := same
    simp [Keeps, Engine.ground, isSame]

theorem createHandshake_ground {type : MessageType} {writeBody : EngineM Bytes}
    (keeps : Along (Keeps Engine.ground) writeBody) :
    Along (Keeps Engine.ground) (createHandshake type writeBody) := by
  have split : createHandshake type writeBody =
      (writeBody >>= fun body => createHandshake type (pure body)) := rfl
  rw [split]
  exact along_bind keeps fun _ => ground_of_moves (createHandshake_moves along_pure False.elim)

theorem createRecord_ground {contentType : ContentType} {epoch : Nat} {saveFragment : Bool}
    {fragment : Bytes} :
    Along (Keeps Engine.ground) (createRecord contentType epoch saveFragment fragment) :=
  ground_of_moves (createRecord_moves False.elim)

theorem deriveSessionKeys_ground {suite : Dtls12CipherSuite} {sessionHash : Bytes}
    {clientRandom serverRandom : Random} :
    Along (Keeps Engine.ground) (deriveSessionKeys suite sessionHash clientRandom serverRandom) := by
  refine along_bind along_get fun e => along_bind (withContext_ground ?_) fun _ =>
    withContext_ground ?_
  · refine along_get_bind fun c => ?_
    rw [post_bind, post_orThrow]
    refine ⟨fun secret _ => ?_, fun _ => rfl⟩
    rw [post_bind, post_liftCrypto]
    refine ⟨fun out _ => ?_, fun _ _ => rfl⟩
    rw [post_ite]
    exact ⟨fun _ => rfl, fun _ => rfl⟩
  · have iv : ∀ bytes, ReadOnly (ivNew bytes) := fun _ =>
      along_ite (fun _ => along_pure) fun _ => along_throw
    refine along_get_bind fun c => ?_
    rw [post_bind, post_orThrow]
    refine ⟨fun masterSecret _ => ?_, fun _ => rfl⟩
    rw [post_bind, post_set]
    refine Along.after (s := c) ?_ rfl
    refine along_bind along_orThrow fun supported => along_bind along_liftCrypto fun keyBlock => ?_
    refine along_ite (fun _ => along_throw) fun _ => ?_
    refine along_bind (along_modify fun _ => rfl) fun _ => along_bind (iv _).along fun _ => ?_
    refine along_bind (along_modify fun _ => rfl) fun _ => along_bind (iv _).along fun _ => ?_
    refine along_bind (along_modify fun _ => rfl) fun _ => along_bind along_liftCrypto fun _ => ?_
    refine along_bind (along_modify fun _ => rfl) fun _ => along_bind along_liftCrypto fun _ => ?_
    exact along_modify fun _ => rfl

end Engines

namespace CryptoContext

theorem startExchange_auth {provider : CryptoProvider} {group : NamedGroup} :
    Along (Keeps CryptoContext.auth) (startExchange provider group) := by
  refine along_get_bind fun c => ?_
  rw [post_bind, post_orThrow]
  refine ⟨fun kx _ => ?_, fun _ => rfl⟩
  dsimp only
  rw [post_bind, post_set]
  have rest : Along (Keeps CryptoContext.auth) (do
      let exchange ← liftCrypto (kx.startExchange (c.entropy.random (2 ^ 64)).1)
      modify fun (c : CryptoContext) => { c with keyExchange := some exchange }) :=
    along_bind along_liftCrypto fun _ => along_modify fun _ => rfl
  exact rest.after rfl

theorem maybeInitKeyExchange_auth : Along (Keeps CryptoContext.auth) maybeInitKeyExchange := by
  refine along_get_bind fun c => ?_
  split
  · rfl
  · rw [post_bind, post_orThrow]
    exact ⟨fun _ _ => rfl, fun _ => rfl⟩

theorem initEcdhServer_auth {provider : CryptoProvider} {group : NamedGroup} :
    Along (Keeps CryptoContext.auth) (initEcdhServer provider group) :=
  along_bind startExchange_auth fun _ => maybeInitKeyExchange_auth

theorem computeSharedSecret_auth {peerPublicKey : Bytes} :
    Along (Keeps CryptoContext.auth) (computeSharedSecret peerPublicKey) := by
  refine along_get_bind fun c => ?_
  rw [post_bind, post_orThrow]
  refine ⟨fun exchange _ => ?_, fun _ => rfl⟩
  rw [post_bind, post_set]
  have rest : Along (Keeps CryptoContext.auth) (do
      let secret ← liftCrypto (exchange.complete peerPublicKey)
      modify fun (c : CryptoContext) => { c with preMasterSecret := some secret }) :=
    along_bind along_liftCrypto fun _ => along_modify fun _ => rfl
  exact rest.after rfl

theorem computePskPreMasterSecret_auth : Along (Keeps CryptoContext.auth) computePskPreMasterSecret := by
  refine along_get_bind fun c => ?_
  rw [post_bind, post_orThrow]
  exact ⟨fun _ _ => rfl, fun _ => rfl⟩

theorem signData_readOnly {data : Bytes} {hash : HashAlgorithm} : ReadOnly (signData data hash) := by
  refine along_bind along_get fun c => ?_
  split
  · exact along_liftCrypto
  · exact along_throw

theorem serializeClientCertificate_readOnly : ReadOnly serializeClientCertificate := by
  refine along_bind along_get fun c => ?_
  split
  · exact along_pure
  · exact along_throw

end CryptoContext

namespace Server

/-- What a server takes from the hello of its client, on its ground. -/
structure Terms where
  ground : Ground
  profile : Option SrtpProfile
  groups : Option (List NamedGroup)
  algorithms : Option (List SignatureAndHashAlgorithm)

/-- The terms of a server. -/
def terms (s : Server) : Terms :=
  ⟨s.engine.ground, s.negotiatedSrtpProfile, s.clientSupportedGroups, s.clientSignatureAlgorithms⟩

section Handlers

theorem withEngine_terms {α : Type} {program : EngineM α} (keeps : Along (Keeps Engine.ground) program) :
    Along (Keeps terms) (withEngine program) :=
  along_zoom keeps fun s engine same => by
    have isSame : engine.ground = s.engine.ground := same
    simp [Keeps, terms, isSame]

theorem modify_terms {f : Server → Server} (same : ∀ s, (f s).terms = s.terms) :
    Along (Keeps terms) (modify f : ServerM PUnit) :=
  along_modify same

theorem selectedCipherSuite_terms : Along (Keeps terms) (withEngine selectedCipherSuite) :=
  withEngine_terms selectedCipherSuite_readOnly.along

theorem onHandshake_terms {wanted : MessageType} {stay : State} {handle : Body → Bytes → ServerM State}
    (handles : ∀ body buffer, Along (Keeps terms) (handle body buffer)) :
    Along (Keeps terms) (onHandshake wanted stay handle) := by
  refine along_bind (withEngine_terms (ground_of_quiet nextHandshake_quiet)) fun found => ?_
  cases found with
  | none => exact along_pure
  | some message => exact handles _ _

theorem createHandshake_terms {type : MessageType} {writeBody : EngineM Bytes}
    (keeps : Along (Keeps Engine.ground) writeBody) :
    Along (Keeps terms) (withEngine (createHandshake type writeBody)) :=
  withEngine_terms (createHandshake_ground keeps)

theorem flightBegin_terms : Along (Keeps terms) (withEngine (modify Engine.flightBegin)) :=
  withEngine_terms (ground_of_moves flightBegin_moves)

theorem sendServerHello_terms : Along (Keeps terms) sendServerHello := by
  refine along_bind flightBegin_terms fun _ => along_bind along_get fun s => ?_
  refine along_bind along_orThrow fun random => ?_
  refine along_bind (createHandshake_terms createServerHello_readOnly.along) fun _ => ?_
  exact along_bind selectedCipherSuite_terms fun suite => along_pure

theorem sendCertificate_terms : Along (Keeps terms) sendCertificate :=
  along_bind (createHandshake_terms (withContext_ground
    CryptoContext.serializeClientCertificate_readOnly.along)) fun _ => along_pure

theorem createServerKeyExchange_ground {clientRandom serverRandom : Random} {group : NamedGroup}
    {algorithm : SignatureAndHashAlgorithm} :
    Along (Keeps Engine.ground) (createServerKeyExchange clientRandom serverRandom group algorithm) := by
  refine along_bind selectedCipherSuite_readOnly.along fun suite => ?_
  split
  · refine along_bind along_get fun _ =>
      along_bind (withContext_ground CryptoContext.initEcdhServer_auth) fun _ => ?_
    exact along_bind (withContext_ground CryptoContext.signData_readOnly.along) fun _ => along_pure
  · exact along_throw

theorem sendServerKeyExchange_terms : Along (Keeps terms) sendServerKeyExchange := by
  refine along_bind selectedCipherSuite_terms fun suite => along_ite (fun _ => ?_) fun _ => ?_
  · refine along_bind along_get fun s => ?_
    split
    · exact along_pure
    · exact along_bind (createHandshake_terms along_pure) fun _ => along_pure
  · refine along_bind along_get fun s => along_bind along_orThrow fun _ =>
      along_bind along_orThrow fun _ => along_bind along_orThrow fun _ =>
        along_bind along_orThrow fun _ => along_bind along_orThrow fun _ => ?_
    exact along_bind (createHandshake_terms createServerKeyExchange_ground) fun _ => along_pure

theorem resolvePsk_terms {identity : Bytes} : Along (Keeps terms) (resolvePsk identity) := by
  have psk : ∀ key, Along (Keeps terms)
      (withEngine (withContext (modify (CryptoContext.setPsk key)))) := fun _ =>
    withEngine_terms (withContext_ground (along_modify fun _ => rfl))
  refine along_bind along_get fun s => along_bind along_orThrow fun resolve => ?_
  split
  · exact along_bind (modify_terms fun _ => rfl) fun _ => psk _
  · refine along_bind (withEngine_terms (ground_of_moves randomArr_moves)) fun _ => ?_
    exact along_bind (modify_terms fun _ => rfl) fun _ => psk _

theorem agreeOnSecret_terms {suite : Dtls12CipherSuite} {exchange : ClientKeyExchange}
    {buffer : Bytes} : Along (Keeps terms) (agreeOnSecret suite exchange buffer) := by
  refine along_ite (fun _ => ?_) fun _ => ?_
  · split
    · exact along_bind resolvePsk_terms fun _ =>
        withEngine_terms (withContext_ground CryptoContext.computePskPreMasterSecret_auth)
    · exact along_throw
  · split
    · exact withEngine_terms (withContext_ground CryptoContext.computeSharedSecret_auth)
    · exact along_throw

theorem awaitClientKeyExchange_terms : Along (Keeps terms) awaitClientKeyExchange := by
  refine onHandshake_terms fun body buffer => ?_
  split
  · refine along_bind selectedCipherSuite_terms fun suite => along_bind agreeOnSecret_terms fun _ => ?_
    refine along_bind (modify_terms fun _ => rfl) fun _ => along_bind along_get fun s => ?_
    refine along_bind along_orThrow fun _ => along_bind along_orThrow fun _ =>
      along_bind along_orThrow fun _ => ?_
    exact along_bind (withEngine_terms deriveSessionKeys_ground) fun _ => along_pure
  · exact along_throw

theorem awaitChangeCipherSpec_terms : Along (Keeps terms) awaitChangeCipherSpec := by
  refine along_bind (withEngine_terms (ground_of_quiet nextRecord_quiet)) fun found => ?_
  cases found with
  | none => exact along_pure
  | some r =>
      refine along_bind (withEngine_terms (ground_of_quiet dropPendingCcs_quiet)) fun _ => ?_
      refine along_bind (withEngine_terms (ground_of_moves ?_)) fun _ => along_pure
      exact enablePeerEncryption_along (fun _ => trivial) fun _ => trivial

theorem awaitFinished_terms : Along (Keeps terms) awaitFinished := by
  refine along_bind along_get fun s =>
    along_bind (withEngine_terms generateVerifyData_readOnly.along) fun expected => ?_
  refine onHandshake_terms fun body buffer => ?_
  split
  · refine along_ite (fun _ => along_throw) fun _ => along_bind (modify_terms fun _ => rfl) fun _ => ?_
    refine along_bind along_get fun s => along_ite (fun _ => along_throw) fun _ => ?_
    exact along_ite (fun _ => along_throw) fun _ => along_pure
  · exact along_throw

theorem sendFinished_terms : Along (Keeps terms) sendFinished := by
  refine along_bind (createHandshake_terms generateVerifyData_readOnly.along) fun _ => ?_
  refine along_bind (withEngine_terms (along_modify fun _ => rfl)) fun _ =>
    along_bind (modify_terms fun _ => rfl) fun _ => along_bind ?_ fun _ =>
      along_bind (withEngine_terms (along_modify fun _ => rfl)) fun _ => along_pure
  refine along_get_bind fun s => ?_
  split
  · rfl
  · rw [post_bind, post_orThrow]
    exact ⟨fun _ _ => rfl, fun _ => rfl⟩

theorem awaitApplicationData_terms : Along (Keeps terms) awaitApplicationData := by
  refine along_get_bind fun s => ?_
  rw [post_ite]
  constructor
  · intro _
    refine along_bind (withEngine_terms ?_) (fun _ =>
      along_bind (withEngine_terms createRecord_ground) fun _ => along_pure) s
    exact along_modify fun _ => rfl
  · intro _
    rw [post_bind, post_set]
    refine Along.after (s := s) (along_bind (withEngine_terms ?_) fun _ => along_pure) rfl
    exact ground_of_moves (sendQueued_moves not_false)

/-- Behind the hello the terms stay. -/
theorem handlers_terms {state : State} (later : state ≠ .awaitClientHello) :
    Along (Keeps terms) state.makeProgress := by
  cases state with
  | awaitClientHello => exact absurd rfl later
  | sendServerHello => exact sendServerHello_terms
  | sendCertificate => exact sendCertificate_terms
  | sendServerKeyExchange => exact sendServerKeyExchange_terms
  | sendCertificateRequest =>
      exact along_bind along_get fun _ => along_bind (createHandshake_terms along_pure) fun _ =>
        along_pure
  | sendServerHelloDone =>
      exact along_bind (createHandshake_terms along_pure) fun _ =>
        along_bind selectedCipherSuite_terms fun _ => along_bind along_get fun _ => along_pure
  | awaitCertificate =>
      unfold State.makeProgress Server.awaitCertificate
      refine onHandshake_terms fun body buffer => ?_
      split
      · refine along_bind (modify_terms fun s => ?_) fun _ => along_pure
        split <;> rfl
      · exact along_throw
  | awaitClientKeyExchange => exact awaitClientKeyExchange_terms
  | awaitCertificateVerify =>
      refine along_bind along_get fun s => onHandshake_terms fun body buffer => ?_
      split
      · exact along_bind along_get fun s => along_bind along_orThrow fun _ =>
          along_bind along_liftCrypto fun _ => along_bind (modify_terms fun _ => rfl) fun _ =>
            along_pure
      · exact along_throw
  | awaitChangeCipherSpec => exact awaitChangeCipherSpec_terms
  | awaitFinished => exact awaitFinished_terms
  | sendChangeCipherSpec =>
      exact along_bind flightBegin_terms fun _ =>
        along_bind (withEngine_terms createRecord_ground) fun _ => along_pure
  | sendFinished => exact sendFinished_terms
  | awaitApplicationData => exact awaitApplicationData_terms
  | closed => exact along_pure

/-- What comes in front of `make_progress`. -/
theorem receivePacket_terms {packet : Bytes} : Along (Keeps terms) (withEngine (receivePacket packet)) :=
  withEngine_terms (ground_of_moves (receivePacket_moves fun _ _ => trivial))

end Handlers

end Server

end Dimpl.Dtls12
