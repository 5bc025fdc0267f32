import Dimpl.Dtls12.Policy

/-!
# What a server takes over from its client

The suite and the group of a server are out of its configuration. The algorithm of a
CertificateVerify is taken as it comes, also where the server asked for others.
-/

namespace Dimpl.Dtls12

open Nom Program

/-- The exchange of a context and its group come from the configuration. -/
structure CryptoContext.Grouped (config : Config) (c : CryptoContext) : Prop where
  exchange : ∀ exchange, c.keyExchange = some exchange → config.Yields exchange
  group : ∀ group, c.keyExchangeGroup = some group →
    ∃ exchange, config.Yields exchange ∧ exchange.group = group

/-- A context that comes from the configuration still does. -/
def CryptoContext.Groups (config : Config) (c c' : CryptoContext) : Prop :=
  c.Grouped config → c'.Grouped config

namespace CryptoContext

variable {config : Config}

instance : Std.Refl (Groups config) := ⟨fun _ grouped => grouped⟩

instance : IsTrans CryptoContext (Groups config) :=
  ⟨fun _ _ _ first second grouped => second (first grouped)⟩

theorem groups_of_fields {c c' : CryptoContext} (exchange : c'.keyExchange = c.keyExchange)
    (group : c'.keyExchangeGroup = c.keyExchangeGroup) : Groups config c c' :=
  fun grouped => ⟨exchange ▸ grouped.exchange, group ▸ grouped.group⟩

theorem startExchange_groups {group : NamedGroup} (has : config.HasGroup group) :
    Along (Groups config) (startExchange config.cryptoProvider group) := by
  refine along_get_bind fun c => ?_
  rw [post_bind, post_orThrow]
  refine ⟨fun kx found => ?_, fun _ => Std.Refl.refl c⟩
  dsimp only
  rw [post_bind, post_set, post_bind, post_liftCrypto]
  refine ⟨fun exchange started => ?_, fun _ _ => groups_of_fields rfl rfl⟩
  rw [post_modify]
  intro grouped
  refine ⟨fun exchange' isExchange => ?_, grouped.group⟩
  cases isExchange
  exact ⟨kx, Config.mem_of_find has found, _, started⟩

theorem maybeInitKeyExchange_groups : Along (Groups config) maybeInitKeyExchange := by
  refine along_get_bind fun c => ?_
  split
  · exact fun grouped => grouped
  · rw [post_bind, post_orThrow]
    refine ⟨fun exchange isExchange => ?_, fun _ => Std.Refl.refl c⟩
    rw [post_bind, post_set, post_pure]
    intro grouped
    refine ⟨grouped.exchange, fun group isGroup => ?_⟩
    cases isGroup
    exact ⟨exchange, grouped.exchange exchange isExchange, rfl⟩

theorem computeSharedSecret_groups {peerPublicKey : Bytes} :
    Along (Groups config) (computeSharedSecret peerPublicKey) := by
  refine along_get_bind fun c => ?_
  rw [post_bind, post_orThrow]
  refine ⟨fun exchange _ => ?_, fun _ => Std.Refl.refl c⟩
  rw [post_bind, post_set]
  have used : Groups config c { c with keyExchange := none } := by
    intro grouped
    refine ⟨fun exchange isSome => ?_, grouped.group⟩
    cases isSome
  have rest : Along (Groups config) (do
      let secret ← liftCrypto (exchange.complete peerPublicKey)
      modify fun (c : CryptoContext) => { c with preMasterSecret := some secret }) :=
    along_bind along_liftCrypto fun _ => along_modify fun _ => groups_of_fields rfl rfl
  exact rest.after used

theorem computePskPreMasterSecret_groups : Along (Groups config) computePskPreMasterSecret := by
  refine along_get_bind fun c => ?_
  rw [post_bind, post_orThrow]
  exact ⟨fun _ _ => groups_of_fields rfl rfl, fun _ => Std.Refl.refl c⟩

theorem deriveExtendedMasterSecret_groups {provider : CryptoProvider} {sessionHash : Bytes}
    {hash : HashAlgorithm} :
    Along (Groups config) (deriveExtendedMasterSecret provider sessionHash hash) := by
  refine along_get_bind fun c => ?_
  rw [post_bind, post_orThrow]
  refine ⟨fun secret _ => ?_, fun _ => Std.Refl.refl c⟩
  rw [post_bind, post_liftCrypto]
  refine ⟨fun out _ => ?_, fun _ _ => Std.Refl.refl c⟩
  rw [post_ite]
  exact ⟨fun _ grouped => grouped, fun _ => groups_of_fields rfl rfl⟩

theorem deriveKeys_groups {provider : CryptoProvider} {suite : Dtls12CipherSuite}
    {clientRandom serverRandom : Bytes} :
    Along (Groups config) (deriveKeys provider suite clientRandom serverRandom) := by
  have iv : ∀ bytes, ReadOnly (ivNew bytes) := fun _ =>
    along_ite (fun _ => along_pure) fun _ => along_throw
  refine along_get_bind fun c => ?_
  rw [post_bind, post_orThrow]
  refine ⟨fun masterSecret _ => ?_, fun _ => Std.Refl.refl c⟩
  rw [post_bind, post_set]
  refine Along.after (s := c) ?_ (groups_of_fields rfl rfl)
  refine along_bind along_orThrow fun supported => along_bind along_liftCrypto fun keyBlock => ?_
  refine along_ite (fun _ => along_throw) fun _ => ?_
  refine along_bind (along_modify fun _ => groups_of_fields rfl rfl) fun _ =>
    along_bind (iv _).along fun _ => ?_
  refine along_bind (along_modify fun _ => groups_of_fields rfl rfl) fun _ =>
    along_bind (iv _).along fun _ => ?_
  refine along_bind (along_modify fun _ => groups_of_fields rfl rfl) fun _ =>
    along_bind along_liftCrypto fun _ => ?_
  refine along_bind (along_modify fun _ => groups_of_fields rfl rfl) fun _ =>
    along_bind along_liftCrypto fun _ => ?_
  exact along_modify fun _ => groups_of_fields rfl rfl

end CryptoContext

/-- An engine that heeds its configuration: settings and suite stay, and an exchange that
comes from the configuration still does. -/
structure Engine.Heeds (e e' : Engine) : Prop where
  charter : e'.charter = e.charter
  groups : e.cryptoContext.Groups e.config e'.cryptoContext

section Heeds

variable {e e' : Engine}

instance : Std.Refl Engine.Heeds := ⟨fun _ => ⟨rfl, fun grouped => grouped⟩⟩

instance : IsTrans Engine Engine.Heeds :=
  ⟨fun e e' e'' first second => by
    have isConfig : e'.config = e.config := congrArg Prod.fst first.charter
    exact ⟨second.charter.trans first.charter, fun grouped =>
      isConfig ▸ second.groups (isConfig ▸ first.groups grouped)⟩⟩

theorem heeds_of_footing {α : Type} {program : EngineM α} (keeps : Along (Keeps Engine.footing) program) :
    Along Engine.Heeds program := by
  refine keeps.mono fun e e' same => ?_
  have isContext : e'.cryptoContext = e.cryptoContext :=
    congrArg (fun footing : Config × Option Dtls12CipherSuite × CryptoContext => footing.2.2) same
  refine ⟨congrArg (fun footing : Config × Option Dtls12CipherSuite × CryptoContext =>
    (footing.1, footing.2.1)) same, fun grouped => ?_⟩
  rw [isContext]
  exact grouped

theorem heeds_of_moves {α : Type} {program : EngineM α} (moves : Along (Moves settledRules) program) :
    Along Engine.Heeds program :=
  heeds_of_footing (footing_of_moves moves)

theorem heeds_of_quiet {α : Type} {program : EngineM α}
    (quiet : Along (Quiet (fun _ => True) False) program) : Along Engine.Heeds program :=
  heeds_of_footing (footing_of_quiet quiet)

/-- A program over the secrets. -/
theorem withContext_heeds {α : Type} {program : ContextM α}
    (groups : ∀ config, Along (CryptoContext.Groups config) program) :
    Along Engine.Heeds (withContext program) := by
  intro e
  unfold withContext
  rw [post_zoom]
  exact (groups e.config e.cryptoContext).mono (fun _ _ kept => ⟨rfl, kept⟩) fun _ _ kept => ⟨rfl, kept⟩

theorem createHandshake_heeds {type : MessageType} {writeBody : EngineM Bytes}
    (writes : Along Engine.Heeds writeBody) : Along Engine.Heeds (createHandshake type writeBody) := by
  have split : createHandshake type writeBody =
      (writeBody >>= fun body => createHandshake type (pure body)) := rfl
  rw [split]
  exact along_bind writes fun _ => heeds_of_moves (createHandshake_moves along_pure False.elim)

theorem deriveSessionKeys_heeds {suite : Dtls12CipherSuite} {sessionHash : Bytes}
    {clientRandom serverRandom : Random} :
    Along Engine.Heeds (deriveSessionKeys suite sessionHash clientRandom serverRandom) := by
  refine along_bind along_get fun e => along_bind (withContext_heeds fun _ => ?_) fun _ =>
    withContext_heeds fun _ => ?_
  · exact CryptoContext.deriveExtendedMasterSecret_groups
  · exact CryptoContext.deriveKeys_groups

/-- A ServerKeyExchange with a group of the configuration. -/
theorem createServerKeyExchange_heeds {clientRandom serverRandom : Random} {group : NamedGroup}
    {algorithm : SignatureAndHashAlgorithm} (has : e.config.HasGroup group) :
    Post (Server.createServerKeyExchange clientRandom serverRandom group algorithm) e
      (fun _ e' => e.Heeds e') fun _ e' => e.Heeds e' := by
  unfold Server.createServerKeyExchange
  rw [post_bind]
  refine (selectedCipherSuite_readOnly e).mono (fun suite _ same => ?_) fun _ _ same => ?_
  · subst same
    split
    · rw [post_bind, post_get, post_bind]
      have init : Along (CryptoContext.Groups e.config)
          (CryptoContext.initEcdhServer e.config.cryptoProvider group) :=
        along_bind (CryptoContext.startExchange_groups has) fun _ =>
          CryptoContext.maybeInitKeyExchange_groups
      unfold withContext
      rw [post_zoom]
      refine (init e.cryptoContext).mono (fun publicKey context kept => ?_) fun _ _ kept => ⟨rfl, kept⟩
      have signs : Along Engine.Heeds (do
          let signature ← withContext (CryptoContext.signData (clientRandom.bytes ++ serverRandom.bytes ++
            EcdhParams.serializeBytes 3 group publicKey) algorithm.hash)
          return EcdhParams.serializeBytes 3 group publicKey ++
            DigitallySigned.serializeBytes algorithm signature) :=
        along_bind (withContext_heeds fun _ => CryptoContext.signData_readOnly.along) fun _ => along_pure
      exact signs.after ⟨rfl, kept⟩
    · exact Std.Refl.refl e
  · subst same
    exact Std.Refl.refl _

end Heeds

namespace Server

/-- The signature algorithms that a server asks for in its CertificateRequest. -/
def requestedAlgorithms (s : Server) : List SignatureAndHashAlgorithm :=
  let algorithms := selectCertificateRequestSigAlgs s.clientSignatureAlgorithms
  if algorithms.isEmpty then SignatureAndHashAlgorithm.supported else algorithms

/-- The algorithms of the signatures a server has accepted. -/
def acceptedAlgorithms (s : Server) : List SignatureAndHashAlgorithm :=
  s.log.filterMap Check.algorithm?

/-- A server that heeds its configuration and accepts no signature. -/
structure Heeds (s s' : Server) : Prop where
  engine : s.engine.Heeds s'.engine
  algorithms : s'.acceptedAlgorithms = s.acceptedAlgorithms

section Handlers

variable {s : Server}

instance : Std.Refl Heeds := ⟨fun s => ⟨Std.Refl.refl s.engine, rfl⟩⟩

instance : IsTrans Server Heeds :=
  ⟨fun _ _ _ first second =>
    ⟨IsTrans.trans _ _ _ first.engine second.engine, second.algorithms.trans first.algorithms⟩⟩

theorem withEngine_heeds {α : Type} {program : EngineM α} (heeds : Along Engine.Heeds program) :
    Along Heeds (withEngine program) :=
  along_zoom heeds fun _ _ kept => ⟨kept, rfl⟩

theorem moved_heeds {α : Type} {program : EngineM α} (moves : Along (Moves settledRules) program) :
    Along Heeds (withEngine program) :=
  withEngine_heeds (heeds_of_moves moves)

theorem modify_heeds {f : Server → Server} (engine : ∀ s, (f s).engine = s.engine)
    (log : ∀ s, (f s).log = s.log) : Along Heeds (modify f : ServerM PUnit) :=
  along_modify fun s =>
    ⟨by rw [engine]; exact Std.Refl.refl s.engine, by simp [acceptedAlgorithms, log]⟩

theorem selectedCipherSuite_heeds : Along Heeds (withEngine selectedCipherSuite) :=
  withEngine_heeds selectedCipherSuite_readOnly.along

theorem onHandshake_heeds {wanted : MessageType} {stay : State} {handle : Body → Bytes → ServerM State}
    (handles : ∀ body buffer, Along Heeds (handle body buffer)) :
    Along Heeds (onHandshake wanted stay handle) := by
  refine along_bind (withEngine_heeds (heeds_of_quiet nextHandshake_quiet)) fun found => ?_
  cases found with
  | none => exact along_pure
  | some message => exact handles _ _

theorem sendServerHello_heeds : Along Heeds sendServerHello := by
  refine along_bind (moved_heeds flightBegin_moves) fun _ => along_bind along_get fun s => ?_
  refine along_bind along_orThrow fun random => ?_
  refine along_bind (withEngine_heeds (createHandshake_heeds createServerHello_readOnly.along)) fun _ => ?_
  exact along_bind selectedCipherSuite_heeds fun suite => along_pure

/-- The group of a ServerKeyExchange is one of the configuration. -/
theorem sendServerKeyExchange_heeds : Along Heeds sendServerKeyExchange := by
  refine along_bind selectedCipherSuite_heeds fun suite => along_ite (fun _ => ?_) fun _ => ?_
  · refine along_bind along_get fun s => ?_
    split
    · exact along_pure
    · exact along_bind (withEngine_heeds (createHandshake_heeds along_pure)) fun _ => along_pure
  · refine along_get_bind fun s => ?_
    have same : Heeds s s := Std.Refl.refl s
    rw [post_bind, post_orThrow]
    refine ⟨fun clientRandom _ => ?_, fun _ => same⟩
    rw [post_bind, post_orThrow]
    refine ⟨fun serverRandom _ => ?_, fun _ => same⟩
    rw [post_bind, post_orThrow]
    refine ⟨fun group isGroup => ?_, fun _ => same⟩
    have has : s.engine.config.HasGroup group := by
      rw [Config.hasGroup_iff]
      unfold selectNamedGroup at isGroup
      split at isGroup
      · exact List.mem_of_find?_eq_some isGroup
      · exact List.mem_of_head? isGroup
    dsimp only
    rw [post_bind, post_orThrow]
    refine ⟨fun ourSig _ => ?_, fun _ => same⟩
    rw [post_bind, post_orThrow]
    refine ⟨fun ourHash _ => ?_, fun _ => same⟩
    rw [post_bind]
    unfold withEngine
    rw [post_zoom]
    have split : ∀ writeBody : EngineM Bytes, createHandshake .serverKeyExchange writeBody =
        (writeBody >>= fun body => createHandshake .serverKeyExchange (pure body)) := fun _ => rfl
    rw [split, post_bind]
    refine (createServerKeyExchange_heeds has).mono (fun body e kept => ?_) fun _ e kept => ⟨kept, rfl⟩
    have sends : Along Engine.Heeds (createHandshake .serverKeyExchange (pure body)) :=
      heeds_of_moves (createHandshake_moves along_pure False.elim)
    exact (sends.after kept).mono (fun _ e' kept => ⟨kept, rfl⟩) fun _ e' kept => ⟨kept, rfl⟩

theorem resolvePsk_heeds {identity : Bytes} : Along Heeds (resolvePsk identity) := by
  have psk : ∀ key, Along Heeds (withEngine (withContext (modify (CryptoContext.setPsk key)))) :=
    fun _ => withEngine_heeds (withContext_heeds fun _ =>
      along_modify fun _ => CryptoContext.groups_of_fields rfl rfl)
  refine along_bind along_get fun s => along_bind along_orThrow fun resolve => ?_
  split
  · exact along_bind (modify_heeds (fun _ => rfl) fun _ => rfl) fun _ => psk _
  · refine along_bind (moved_heeds randomArr_moves) fun _ => ?_
    exact along_bind (modify_heeds (fun _ => rfl) fun _ => rfl) fun _ => psk _

theorem awaitClientKeyExchange_heeds : Along Heeds awaitClientKeyExchange := by
  refine onHandshake_heeds fun body buffer => ?_
  split
  · refine along_bind selectedCipherSuite_heeds fun suite => along_bind ?_ fun _ => ?_
    · refine along_ite (fun _ => ?_) fun _ => ?_
      · split
        · exact along_bind resolvePsk_heeds fun _ => withEngine_heeds (withContext_heeds fun _ =>
            CryptoContext.computePskPreMasterSecret_groups)
        · exact along_throw
      · split
        · exact withEngine_heeds (withContext_heeds fun _ => CryptoContext.computeSharedSecret_groups)
        · exact along_throw
    · refine along_bind (modify_heeds (fun _ => rfl) fun _ => rfl) fun _ => along_bind along_get fun s => ?_
      refine along_bind along_orThrow fun _ => along_bind along_orThrow fun _ =>
        along_bind along_orThrow fun _ => ?_
      exact along_bind (withEngine_heeds deriveSessionKeys_heeds) fun _ => along_pure
  · exact along_throw

theorem awaitChangeCipherSpec_heeds : Along Heeds awaitChangeCipherSpec := by
  refine along_bind (withEngine_heeds (heeds_of_quiet nextRecord_quiet)) fun found => ?_
  cases found with
  | none => exact along_pure
  | some r =>
      refine along_bind (withEngine_heeds (heeds_of_quiet dropPendingCcs_quiet)) fun _ => ?_
      refine along_bind (moved_heeds ?_) fun _ => along_pure
      exact enablePeerEncryption_along (fun _ => trivial) fun _ => trivial

theorem awaitFinished_heeds : Along Heeds awaitFinished := by
  refine along_bind along_get fun s =>
    along_bind (withEngine_heeds generateVerifyData_readOnly.along) fun expected => ?_
  refine onHandshake_heeds fun body buffer => ?_
  split
  · refine along_ite (fun _ => along_throw) fun _ => along_bind (along_modify fun s => ?_) fun _ => ?_
    · exact ⟨Std.Refl.refl s.engine, by simp [acceptedAlgorithms, Check.algorithm?]⟩
    · refine along_bind along_get fun s => along_ite (fun _ => along_throw) fun _ => ?_
      exact along_ite (fun _ => along_throw) fun _ => along_pure
  · exact along_throw

theorem sendFinished_heeds : Along Heeds sendFinished := by
  have changed : ∀ f : Engine → Engine, (∀ e, (f e).footing = e.footing) →
      Along Heeds (withEngine (modify f)) := fun _ same =>
    withEngine_heeds (heeds_of_footing (along_modify same))
  refine along_bind (withEngine_heeds (createHandshake_heeds generateVerifyData_readOnly.along)) fun _ => ?_
  refine along_bind (changed _ fun _ => rfl) fun _ =>
    along_bind (modify_heeds (fun _ => rfl) fun _ => rfl) fun _ => along_bind ?_ fun _ =>
      along_bind (changed _ fun _ => rfl) fun _ => along_pure
  refine along_get_bind fun s => ?_
  have same : ∀ events, Heeds s { s with localEvents := events } := fun _ =>
    ⟨Std.Refl.refl s.engine, rfl⟩
  split
  · exact same _
  · rw [post_bind, post_orThrow]
    exact ⟨fun _ _ => same _, fun _ => same _⟩

theorem awaitApplicationData_heeds : Along Heeds awaitApplicationData := by
  refine along_get_bind fun s => ?_
  rw [post_ite]
  constructor
  · intro _
    refine along_bind (withEngine_heeds (heeds_of_footing ?_)) (fun _ =>
      along_bind (moved_heeds (createRecord_moves False.elim)) fun _ => along_pure) s
    exact along_modify fun _ => rfl
  · intro _
    rw [post_bind, post_set]
    have same : Heeds s { s with queuedData := [] } := ⟨Std.Refl.refl s.engine, rfl⟩
    refine Along.after (along_bind (moved_heeds ?_) fun _ => along_pure) same
    exact sendQueued_moves not_false

/-- The handlers that take nothing over. -/
theorem handlers_heed {state : State} (other : state ≠ .awaitClientHello)
    (another : state ≠ .awaitCertificateVerify) : Along Heeds state.makeProgress := by
  cases state with
  | awaitClientHello => exact absurd rfl other
  | awaitCertificateVerify => exact absurd rfl another
  | sendServerHello => exact sendServerHello_heeds
  | sendCertificate =>
      exact along_bind (withEngine_heeds (createHandshake_heeds (withContext_heeds fun _ =>
        CryptoContext.serializeClientCertificate_readOnly.along))) fun _ => along_pure
  | sendServerKeyExchange => exact sendServerKeyExchange_heeds
  | sendCertificateRequest =>
      exact along_bind along_get fun _ =>
        along_bind (withEngine_heeds (createHandshake_heeds along_pure)) fun _ => along_pure
  | sendServerHelloDone =>
      exact along_bind (withEngine_heeds (createHandshake_heeds along_pure)) fun _ =>
        along_bind selectedCipherSuite_heeds fun _ => along_bind along_get fun _ => along_pure
  | awaitCertificate =>
      unfold State.makeProgress Server.awaitCertificate
      refine onHandshake_heeds fun body buffer => ?_
      split
      · refine along_bind (modify_heeds (fun s => ?_) fun s => ?_) fun _ => along_pure
        · split <;> rfl
        · split <;> rfl
      · exact along_throw
  | awaitClientKeyExchange => exact awaitClientKeyExchange_heeds
  | awaitChangeCipherSpec => exact awaitChangeCipherSpec_heeds
  | awaitFinished => exact awaitFinished_heeds
  | sendChangeCipherSpec =>
      exact along_bind (moved_heeds flightBegin_moves) fun _ =>
        along_bind (moved_heeds (createRecord_moves False.elim)) fun _ => along_pure
  | sendFinished => exact sendFinished_heeds
  | awaitApplicationData => exact awaitApplicationData_heeds
  | closed => exact along_pure

/-- What a hello adds: a suite of the configuration. -/
structure Chosen (s s' : Server) : Prop where
  config : s'.engine.config = s.engine.config
  suite : ∀ suite, s'.engine.cipherSuite = some suite →
    s.engine.cipherSuite = some suite ∨ s.engine.isCipherSuiteAllowed suite = true
  groups : s.engine.cryptoContext.Groups s.engine.config s'.engine.cryptoContext
  algorithms : s'.acceptedAlgorithms = s.acceptedAlgorithms

theorem Heeds.chosen {s' : Server} (heeds : Heeds s s') : Chosen s s' where
  config := congrArg Prod.fst heeds.engine.charter
  suite := fun _ isSuite => .inl ((congrArg Prod.snd heeds.engine.charter).symm.trans isSuite)
  groups := heeds.engine.groups
  algorithms := heeds.algorithms

theorem Chosen.trans {s' s'' : Server} (heeds : Heeds s s') (chosen : Chosen s' s'') : Chosen s s'' := by
  have isConfig : s'.engine.config = s.engine.config := congrArg Prod.fst heeds.engine.charter
  have isSuite : s'.engine.cipherSuite = s.engine.cipherSuite := congrArg Prod.snd heeds.engine.charter
  refine ⟨chosen.config.trans isConfig, fun suite isSome => ?_, fun grouped => ?_,
    chosen.algorithms.trans heeds.algorithms⟩
  · refine (chosen.suite suite isSome).imp (fun old => isSuite ▸ old) fun isAllowed => ?_
    unfold Engine.isCipherSuiteAllowed at isAllowed ⊢
    rwa [isConfig] at isAllowed
  · exact isConfig ▸ chosen.groups (isConfig ▸ heeds.engine.groups grouped)

theorem acceptClientHello_chosen {hello : ClientHello} {buffer : Bytes} :
    Post (acceptClientHello hello buffer) s (fun _ s' => Chosen s s') fun _ s' => Chosen s s' := by
  have same : Chosen s s := Heeds.chosen (Std.Refl.refl s)
  unfold acceptClientHello withEngine setCipherSuite
  rw [post_bind, post_get, post_bind, post_orThrow]
  refine ⟨fun suite found => ?_, fun _ => same⟩
  have isAllowed : s.engine.isCipherSuiteAllowed suite = true := by
    have both := List.find?_some found
    simp only [Bool.and_eq_true] at both
    exact both.1
  have chosen : ∀ s' : Server, s'.engine.config = s.engine.config →
      s'.engine.cipherSuite = some suite → s'.engine.cryptoContext = s.engine.cryptoContext →
      s'.log = s.log → Chosen s s' := by
    intro s' isConfig isSuite isContext isLog
    refine ⟨isConfig, fun suite' isSome => ?_, fun grouped => isContext ▸ grouped, ?_⟩
    · rw [isSuite] at isSome
      cases isSome
      exact .inr isAllowed
    · simp [acceptedAlgorithms, isLog]
  rw [post_bind, post_zoom, post_bind, post_get, post_bind, post_orThrow]
  refine ⟨fun supported _ => ?_, fun _ => same⟩
  rw [post_set, post_bind, post_modify]
  split
  · exact chosen _ rfl rfl rfl rfl
  · rw [post_ite]
    refine ⟨fun _ => chosen _ rfl rfl rfl rfl, fun _ => ?_⟩
    rw [post_bind, post_modify]
    exact chosen _ rfl rfl rfl rfl

theorem sendHelloVerifyRequest_heeds {random : Random} : Along Heeds (sendHelloVerifyRequest random) := by
  refine along_bind along_get fun s => along_bind along_liftCrypto fun cookie => ?_
  refine along_bind (moved_heeds flightBegin_moves) fun _ => ?_
  refine along_bind (withEngine_heeds (createHandshake_heeds along_pure)) fun _ => ?_
  refine along_bind (withEngine_heeds (heeds_of_footing ?_)) fun _ => along_pure
  exact along_modify fun _ => rfl

/-- The suite of a hello is one of the configuration. -/
theorem awaitClientHello_chosen :
    Post awaitClientHello s (fun _ s' => Chosen s s') fun _ s' => Chosen s s' := by
  unfold awaitClientHello onHandshake
  rw [post_bind]
  refine (withEngine_heeds (heeds_of_quiet nextHandshake_quiet) s).mono (fun found s₁ kept => ?_)
    fun _ _ kept => kept.chosen
  cases found with
  | none => exact kept.chosen
  | some message =>
      dsimp only
      split
      · unfold handleClientHello
        rw [post_bind, post_get, post_ite]
        refine ⟨fun _ => kept.chosen, fun _ => ?_⟩
        rw [post_ite]
        refine ⟨fun _ => kept.chosen, fun _ => ?_⟩
        rw [post_ite]
        constructor
        · intro _
          exact (sendHelloVerifyRequest_heeds.after kept).mono (fun _ _ kept => kept.chosen)
            fun _ _ kept => kept.chosen
        · intro _
          exact acceptClientHello_chosen.mono (fun _ _ chosen => chosen.trans kept)
            fun _ _ chosen => chosen.trans kept
      · exact kept.chosen

/-- The algorithm of the CertificateVerify that a server finds, and those it has asked for. -/
def foundSignature (s : Server) : List (SignatureAndHashAlgorithm × List SignatureAndHashAlgorithm) :=
  match s.state, value? (withEngine (nextHandshake .certificateVerify)) s with
  | .awaitCertificateVerify, some (some (handshake, _)) =>
    match handshake.body with
    | .certificateVerify signed => [(signed.algorithm, s.requestedAlgorithms)]
    | _ => []
  | _, _ => []

/-- The algorithm of a CertificateVerify is taken as it is. -/
theorem awaitCertificateVerify_taken (isState : s.state = .awaitCertificateVerify) :
    Post awaitCertificateVerify s
      (fun _ s' => s.engine.Heeds s'.engine ∧ ∀ algorithm ∈ s'.acceptedAlgorithms,
        algorithm ∈ s.acceptedAlgorithms ∨ (algorithm, s.requestedAlgorithms) ∈ s.foundSignature)
      fun _ s' => Heeds s s' := by
  unfold awaitCertificateVerify onHandshake
  rw [post_bind, post_get, post_bind]
  refine ((withEngine_heeds (heeds_of_quiet nextHandshake_quiet) s).and post_self).mono
    (fun found s₁ both => ?_) fun _ _ both => both.1
  obtain ⟨kept, isFound⟩ := both
  have still : ∀ s', Heeds s s' → s.engine.Heeds s'.engine ∧ ∀ algorithm ∈ s'.acceptedAlgorithms,
      algorithm ∈ s.acceptedAlgorithms ∨ (algorithm, s.requestedAlgorithms) ∈ s.foundSignature :=
    fun s' heeds => ⟨heeds.engine, fun algorithm member => .inl (heeds.algorithms ▸ member)⟩
  cases found with
  | none => exact still _ kept
  | some message =>
      dsimp only
      split
      · rename_i signed isBody
        have isSignature : s.foundSignature = [(signed.algorithm, s.requestedAlgorithms)] := by
          unfold foundSignature
          rw [isState, value_of_ok isFound]
          dsimp only
          rw [isBody]
        rw [post_bind, post_get, post_bind, post_orThrow]
        refine ⟨fun certificate _ => ?_, fun _ => kept⟩
        rw [post_bind, post_liftCrypto]
        refine ⟨fun _ _ => ?_, fun _ _ => kept⟩
        unfold logCheck
        rw [post_bind, post_modify, post_pure]
        refine ⟨kept.engine, fun algorithm member => ?_⟩
        rw [isSignature]
        simp only [acceptedAlgorithms, List.filterMap_append] at member
        rcases List.mem_append.mp member with old | new
        · exact .inl (kept.algorithms ▸ old)
        · have isAlgorithm : algorithm = signed.algorithm := by
            simpa [Check.algorithm?] using new
          exact .inr (by simp [isAlgorithm])
      · exact kept

end Handlers

/-- A server and its policy: the suite, the exchange and its group always keep to it, the
signatures as far as `allowed` says. -/
structure Policy (config : Config) (allowed : Prop) (s : Server) : Prop where
  config : s.engine.config = config
  suite : ∀ suite, s.engine.cipherSuite = some suite → s.engine.isCipherSuiteAllowed suite = true
  grouped : s.engine.cryptoContext.Grouped s.engine.config
  unsigned : s.state = .awaitClientHello → s.acceptedAlgorithms = []
  signed : allowed → ∀ algorithm ∈ s.acceptedAlgorithms, algorithm ∈ s.requestedAlgorithms

/-- What a server finds of signatures in a call. -/
def foundSignatures (s : Server) : Call → List (SignatureAndHashAlgorithm × List SignatureAndHashAlgorithm)
  | .handlePacket packet =>
    following (withEngine (receivePacket packet)) (machine.rounds foundSignature 20) s
  | .handleTimeout now => following (tick now) (machine.rounds foundSignature 20) s
  | _ => []

/-- Whether all algorithms so far were asked for. -/
def within (allowed : Prop) (found : SignatureAndHashAlgorithm × List SignatureAndHashAlgorithm) : Prop :=
  allowed ∧ found.1 ∈ found.2

section Runs

variable {config : Config} {allowed : Prop} {s s' : Server}

theorem within_all {found : List (SignatureAndHashAlgorithm × List SignatureAndHashAlgorithm)} :
    found.foldl within allowed ↔ allowed ∧ ∀ pair ∈ found, pair.1 ∈ pair.2 := by
  induction found generalizing allowed with
  | nil => simp
  | cons pair rest inductionHypothesis =>
      simp only [List.foldl_cons, inductionHypothesis, within, List.mem_cons, forall_eq_or_imp, and_assoc]

theorem Policy.of_chosen (policy : Policy config allowed s) (chosen : Chosen s s')
    (isHello : s.state = .awaitClientHello) (state : State) :
    Policy config allowed { s' with state } := by
  have isNone : s'.acceptedAlgorithms = [] := chosen.algorithms.trans (policy.unsigned isHello)
  refine ⟨chosen.config.trans policy.config, fun suite isSome => ?_, ?_, fun _ => isNone,
    fun _ algorithm member => ?_⟩
  · have isAllowed := (chosen.suite suite isSome).elim (policy.suite suite) id
    unfold Engine.isCipherSuiteAllowed at isAllowed ⊢
    rw [chosen.config]
    exact isAllowed
  · show s'.engine.cryptoContext.Grouped s'.engine.config
    rw [chosen.config]
    exact chosen.groups policy.grouped
  · have member : algorithm ∈ s'.acceptedAlgorithms := member
    rw [isNone] at member
    cases member

/-- What keeps the engine and the algorithms that were asked for, with signatures that
`more` allows. -/
theorem Policy.of_engine {more : Prop} (policy : Policy config allowed s)
    (heeds : s.engine.Heeds s'.engine) (requested : s'.requestedAlgorithms = s.requestedAlgorithms)
    (unsigned : s'.state = .awaitClientHello → s'.acceptedAlgorithms = [])
    (signed : more → ∀ algorithm ∈ s'.acceptedAlgorithms, algorithm ∈ s.requestedAlgorithms) :
    Policy config more s' := by
  have isConfig : s'.engine.config = s.engine.config := congrArg Prod.fst heeds.charter
  have isSuite : s'.engine.cipherSuite = s.engine.cipherSuite := congrArg Prod.snd heeds.charter
  refine ⟨isConfig.trans policy.config, fun suite isSome => ?_, ?_, unsigned, ?_⟩
  · unfold Engine.isCipherSuiteAllowed
    rw [isConfig]
    exact policy.suite suite (isSuite ▸ isSome)
  · rw [isConfig]
    exact heeds.groups policy.grouped
  · rw [requested]
    exact signed

theorem Policy.of_heeds (policy : Policy config allowed s) (heeds : Heeds s s')
    (requested : s'.requestedAlgorithms = s.requestedAlgorithms)
    (isState : s'.state = .awaitClientHello → s.state = .awaitClientHello) : Policy config allowed s' := by
  refine policy.of_engine heeds.engine requested (fun isHello => ?_) fun isAllowed => ?_
  · exact heeds.algorithms.trans (policy.unsigned (isState isHello))
  · rw [heeds.algorithms]
    exact policy.signed isAllowed

theorem requested_of_terms (same : s'.terms = s.terms) : s'.requestedAlgorithms = s.requestedAlgorithms := by
  have isSame : s'.clientSignatureAlgorithms = s.clientSignatureAlgorithms := congrArg Terms.algorithms same
  simp [requestedAlgorithms, isSame]

theorem foundSignature_other (other : s.state ≠ .awaitCertificateVerify) : s.foundSignature = [] := by
  unfold foundSignature
  split
  · rename_i isState _
    exact absurd isState other
  · rfl

/-- The round that takes a signature. -/
theorem awaitCertificateVerify_policy (policy : Policy config allowed s)
    (isState : s.state = .awaitCertificateVerify) :
    Post awaitCertificateVerify s
      (fun _ s' => ∀ state, state ≠ .awaitClientHello →
        Policy config (s.foundSignature.foldl within allowed) { s' with state })
      fun _ s' => ∀ state, state ≠ .awaitClientHello →
        Policy config (s.foundSignature.foldl within allowed) { s' with state } := by
  have terms : Along (Keeps terms) awaitCertificateVerify := by
    have later : State.awaitCertificateVerify ≠ .awaitClientHello := by decide
    exact handlers_terms later
  refine ((terms s).and (awaitCertificateVerify_taken isState)).mono (fun _ s' both state later => ?_)
    fun _ s' both state later => ?_
  · obtain ⟨same, heeds, accepted⟩ := both
    have entered : s.engine.Heeds { s' with state }.engine := heeds
    refine policy.of_engine entered (requested_of_terms same) (fun isHello => absurd isHello later)
      fun all algorithm member => ?_
    obtain ⟨before, all⟩ := within_all.mp all
    exact (accepted algorithm member).elim (policy.signed before algorithm)
      fun found => all (algorithm, s.requestedAlgorithms) found
  · obtain ⟨same, heeds⟩ := both
    have entered : s.engine.Heeds { s' with state }.engine := heeds.engine
    refine policy.of_engine entered (requested_of_terms same) (fun isHello => absurd isHello later)
      fun all algorithm member => ?_
    have member : algorithm ∈ s'.acceptedAlgorithms := member
    rw [heeds.algorithms] at member
    exact policy.signed (within_all.mp all).1 algorithm member

/-- One round. -/
theorem round_policy (policy : Policy config allowed s) :
    Post s.state.makeProgress s
      (fun next s' =>
        if next = s.state then Policy config (s.foundSignature.foldl within allowed) s'
        else Policy config (s.foundSignature.foldl within allowed) { s' with state := next })
      fun _ s' => Policy config (s.foundSignature.foldl within allowed) s' := by
  have state : Along (Keeps Server.state) s.state.makeProgress :=
    (makeProgress_within s.state).mono fun _ _ within => within.state
  -- Every outcome is in the old state or the new one.
  have post : Post s.state.makeProgress s
      (fun next s' => Policy config (s.foundSignature.foldl within allowed) { s' with state := next })
      fun _ s' => Policy config (s.foundSignature.foldl within allowed) { s' with state := s.state } := by
    by_cases isVerify : s.state = .awaitCertificateVerify
    · have returns := makeProgress_returns s.state s
      have taken := awaitCertificateVerify_policy policy isVerify
      rw [isVerify] at returns ⊢
      refine (returns.and taken).mono (fun next s' both => both.2 next ?_) fun _ s' both =>
        both.2 _ (by decide)
      exact (follows_later both.1 (by decide)).1
    · rw [foundSignature_other isVerify]
      by_cases isHello : s.state = .awaitClientHello
      · rw [isHello]
        exact awaitClientHello_chosen.mono (fun next _ chosen => policy.of_chosen chosen isHello next)
          fun _ _ chosen => policy.of_chosen chosen isHello _
      · refine ((handlers_terms isHello s).and ((handlers_heed isHello isVerify s).and
          (makeProgress_returns s.state s))).mono (fun next s' all => ?_) fun _ s' all => ?_
        · obtain ⟨same, heeds, isNext⟩ := all
          have later := (follows_later isNext isHello).1
          exact policy.of_heeds ⟨heeds.engine, heeds.algorithms⟩ (requested_of_terms same)
            fun isHello' => absurd isHello' later
        · obtain ⟨same, heeds, _⟩ := all
          exact policy.of_heeds ⟨heeds.engine, heeds.algorithms⟩ (requested_of_terms same) id
  refine ((state s).and post).mono (fun next s' both => ?_) fun _ s' both => ?_
  · obtain ⟨sameState, kept⟩ := both
    split
    · rename_i stays
      have isSame : { s' with state := next } = s' := by
        rw [stays, ← sameState]
      rw [isSame] at kept
      exact kept
    · exact kept
  · obtain ⟨sameState, kept⟩ := both
    have isSame : { s' with state := s.state } = s' := by
      rw [← sameState]
    rw [isSame] at kept
    exact kept

/-- The rounds of a call. -/
theorem makeProgress_policy (policy : Policy config allowed s) :
    Policy config ((machine.rounds foundSignature 20 s).foldl within allowed)
      (finalState makeProgress s) := by
  unfold makeProgress
  rw [progressLoop_machine]
  exact machine.loop_state (fun _ _ kept => kept) (fun _ _ kept => round_policy kept) policy

/-- A program that heeds and keeps state and terms. -/
theorem Policy.after {α : Type} {program : ServerM α} (policy : Policy config allowed s)
    (heeds : Along Heeds program) (same : Along (Keeps terms) program)
    (state : Along (Keeps Server.state) program) :
    Post program s (fun _ s' => Policy config allowed s') fun _ s' => Policy config allowed s' := by
  refine ((heeds s).and ((same s).and (state s))).mono (fun _ s' all => ?_) fun _ s' all => ?_
  · obtain ⟨kept, same, sameState⟩ := all
    exact policy.of_heeds kept (requested_of_terms same) fun isHello => sameState ▸ isHello
  · obtain ⟨kept, same, sameState⟩ := all
    exact policy.of_heeds kept (requested_of_terms same) fun isHello => sameState ▸ isHello

theorem tick_heeds {now : Instant} : Along Heeds (tick now) := by
  refine along_bind (modify_heeds (fun _ => rfl) fun _ => rfl) fun _ => along_bind ?_ fun _ => ?_
  · refine along_bind along_get fun s => ?_
    split
    · exact along_pure
    · exact along_bind (moved_heeds newRandom_moves) fun _ => modify_heeds (fun _ => rfl) fun _ => rfl
  · exact moved_heeds fun e => handleTimeout_moves trivial

theorem pollOutput_heeds {bufLen : Nat} : Along Heeds (Server.pollOutput bufLen) := by
  refine along_get_bind fun s => ?_
  split
  · rw [post_bind, post_set]
    have same : ∀ events, Heeds s { s with localEvents := events } := fun _ =>
      ⟨Std.Refl.refl s.engine, rfl⟩
    exact (LocalEvent.intoOutput_readOnly.along).after (same _)
  · exact withEngine_heeds (heeds_of_quiet pollOutput_quiet) s

theorem sendApplicationData_heeds {data : Bytes} : Along Heeds (sendApplicationData data) := by
  refine along_get_bind fun s => ?_
  have same : ∀ queued, Heeds s { s with queuedData := queued } := fun _ =>
    ⟨Std.Refl.refl s.engine, rfl⟩
  rw [post_ite]
  refine ⟨fun _ => same _, fun _ => ?_⟩
  rw [post_ite]
  exact ⟨fun _ => same _, fun _ => moved_heeds (createRecord_moves False.elim) s⟩

/-- A server that is closed. -/
theorem Policy.closed (policy : Policy config allowed s) :
    Policy config allowed { s with engine := s.engine.abort, state := .closed } ∧
      Policy config allowed { s with state := .closed } := by
  have aborted : s.engine.Heeds s.engine.abort := ⟨rfl, fun grouped => grouped⟩
  constructor
  · exact policy.of_heeds ⟨aborted, rfl⟩ rfl fun isHello => by cases isHello
  · exact policy.of_heeds ⟨Std.Refl.refl s.engine, rfl⟩ rfl fun isHello => by cases isHello

/-- A call. -/
theorem exec_policy {call : Call} (policy : Policy config allowed s) :
    Policy config ((s.foundSignatures call).foldl within allowed) (s.exec call) := by
  cases call with
  | handlePacket packet =>
      show Policy config _ (finalState (publicResult _) s)
      rw [finalState_publicResult]
      have receives : Along Heeds (withEngine (receivePacket packet)) :=
        moved_heeds (receivePacket_moves fun _ _ => trivial)
      exact state_following makeProgress (policy.after receives receivePacket_terms withEngine_state)
        fun _ kept => makeProgress_policy kept
  | handleTimeout now =>
      have parts : Server.handleTimeout now = (do tick now; publicResult makeProgress) := by
        simp only [tick, bind_assoc]
        rfl
      show Policy config _ (finalState (Server.handleTimeout now) s)
      rw [parts]
      refine state_following (publicResult makeProgress)
        (policy.after (@tick_heeds now) tick_terms tick_state) fun s' kept => ?_
      rw [finalState_publicResult]
      exact makeProgress_policy kept
  | pollOutput bufLen =>
      exact post_state.mp (post_bind.mpr
        (policy.after pollOutput_heeds pollOutput_terms pollOutput_state))
  | sendApplicationData data =>
      exact post_state.mp (policy.after sendApplicationData_heeds sendApplicationData_terms
        sendApplicationData_state)
  | close =>
      refine post_state.mp ?_
      show Post close s _ _
      unfold close
      rw [post_bind, post_get, post_ite]
      refine ⟨fun _ => policy, fun _ => ?_⟩
      rw [post_ite]
      refine ⟨fun _ => policy.closed.1, fun _ => ?_⟩
      rw [post_bind]
      have sends : Along Heeds (withEngine (createRecord .alert 1 false closeNotifyAlert)) :=
        moved_heeds (createRecord_moves False.elim)
      exact (policy.after sends (withEngine_terms createRecord_ground) withEngine_state).mono
        (fun _ _ kept => kept.closed.2) fun _ _ kept => kept

/-- A server that has taken over nothing yet. -/
theorem Start.policy (start : Start s) : Policy s.engine.config True s := by
  cases start with
  | fresh config auth rng rng' entropy now =>
      refine ⟨rfl, fun suite isSuite => ?_, ⟨fun exchange isSome => ?_, fun group isSome => ?_⟩,
        fun _ => rfl, fun _ algorithm member => ?_⟩
      · cases isSuite
      · cases isSome
      · cases isSome
      · cases member

/-- In every run of a server the suite and the exchange keep to the policy, and so do the
signatures if those that the client sends do. -/
theorem run_policy (start : Start s) (calls : List Call) :
    Policy s.engine.config (∀ found ∈ traced exec foundSignatures s calls, found.1 ∈ found.2)
      (run exec s calls) := by
  have policy : Policy s.engine.config ((traced exec foundSignatures s calls).foldl within True)
      (run exec s calls) :=
    traced_state (fun _ _ _ kept => exec_policy kept) start.policy
  exact { policy with signed := fun all => policy.signed (within_all.mpr ⟨trivial, all⟩) }

end Runs

end Server

end Dimpl.Dtls12
