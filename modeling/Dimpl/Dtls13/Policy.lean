import Dimpl.Dtls13.ClientRun
import Dimpl.Dtls13.Selection
import Dimpl.Policy

/-!
# What an endpoint takes over from its peer

Suites are held against the configuration wherever a hello brings one, groups are looked up
in it, and a signature has to be of one of the schemes that were offered.
-/

namespace Dimpl.Dtls13

open Nom Program

theorem replaceTranscriptWithMessageHash_ground {splitAt : Nat} :
    Along (Keeps Engine.ground) (replaceTranscriptWithMessageHash splitAt) := by
  refine along_get_bind fun e => ?_
  rw [post_bind]
  refine (transcriptHashOf_readOnly e).mono ?_ fun _ _ same => same ▸ rfl
  rintro hash _ rfl
  rfl

namespace Endpoint

/-- An endpoint and its policy. -/
structure Policy (config : Config) (p : Endpoint) : Prop where
  config : p.engine.config = config
  suite : ∀ suite, p.engine.cipherSuite = some suite → p.engine.isCipherSuiteAllowed suite = true
  checks : ∀ check ∈ p.log, check.Offered

/-- An endpoint that keeps to its policy still does. -/
def Obeys (config : Config) (p p' : Endpoint) : Prop := p.Policy config → p'.Policy config

variable {config : Config}

instance : Std.Refl (Obeys config) := ⟨fun _ policy => policy⟩

instance : IsTrans Endpoint (Obeys config) :=
  ⟨fun _ _ _ first second policy => second (first policy)⟩

theorem Policy.of_ground {p p' : Endpoint} (policy : p.Policy config)
    (same : p'.engine.ground = p.engine.ground) (checks : ∀ check ∈ p'.log, check.Offered) :
    p'.Policy config := by
  have isConfig : p'.engine.config = p.engine.config := congrArg Ground.config same
  have isSuite : p'.engine.cipherSuite = p.engine.cipherSuite := congrArg Ground.cipherSuite same
  refine ⟨isConfig.trans policy.config, fun suite isSome => ?_, checks⟩
  unfold Engine.isCipherSuiteAllowed
  rw [isConfig]
  exact policy.suite suite (isSuite ▸ isSome)

theorem obeys_regards : Regards (Obeys config) where
  still := fun same log policy => policy.of_ground (congrArg Terms.ground same) (log ▸ policy.checks)
  checked := fun offered policy => policy.of_ground rfl fun check member => by
    rcases List.mem_append.mp member with old | new
    · exact policy.checks check old
    · exact List.mem_singleton.mp new ▸ offered

/-- A suite of the configuration is taken over. -/
theorem Policy.setCipherSuite {p : Endpoint} {suite : Dtls13CipherSuite} (policy : p.Policy config)
    (allowed : p.engine.isCipherSuiteAllowed suite = true) :
    Policy config { p with engine := p.engine.setCipherSuite suite } := by
  refine ⟨policy.config, fun suite' isSome => ?_, policy.checks⟩
  cases isSome
  exact allowed

end Endpoint

namespace Client

/-- A client and its policy: the exchange it has started is one of the configuration too. -/
structure Policy (config : Config) (c : Client) : Prop where
  endpoint : c.endpoint.Policy config
  exchange : ∀ exchange, c.activeKeyExchange = some exchange → config.Yields exchange

/-- A client that keeps to its policy still does. -/
def Obeys (config : Config) (c c' : Client) : Prop := c.Policy config → c'.Policy config

section Handlers

variable {config : Config} {c : Client}

instance : Std.Refl (Obeys config) := ⟨fun _ policy => policy⟩

instance : IsTrans Client (Obeys config) :=
  ⟨fun _ _ _ first second policy => second (first policy)⟩

theorem withEndpoint_obeys {α : Type} {program : EndpointM α}
    (along : Along (Endpoint.Obeys config) program) : Along (Obeys config) (withEndpoint program) :=
  along_zoom along fun _ _ kept policy => ⟨kept policy.endpoint, policy.exchange⟩

theorem framed_obeys {α : Type} {program : EngineM α} (framed : Along (Frame True) program) :
    Along (Obeys config) (withEngine program) :=
  withEndpoint_obeys (Endpoint.framed_regards Endpoint.obeys_regards framed)

/-- A change of the engine that keeps its ground. -/
theorem change_obeys {f : Engine → Engine} (same : ∀ e, (f e).ground = e.ground) :
    Along (Obeys config) (withEngine (modify f)) :=
  withEndpoint_obeys (Endpoint.withEngine_regards Endpoint.obeys_regards (along_modify same))

theorem modify_obeys {f : Client → Client} (endpoint : ∀ c, Endpoint.Obeys config c.endpoint (f c).endpoint)
    (exchange : ∀ c, (f c).activeKeyExchange = c.activeKeyExchange) :
    Along (Obeys config) (modify f : ClientM PUnit) :=
  along_modify fun c policy => ⟨endpoint c policy.endpoint, exchange c ▸ policy.exchange⟩

theorem advance_obeys {next : State} : Along (Obeys config) (advance next) :=
  along_bind (change_obeys fun _ => rfl) fun _ => along_pure

theorem onHandshake_obeys {wanted : MessageType} {stay : State} {handle : Body → Bytes → ClientM State}
    (handles : ∀ body buffer, Along (Obeys config) (handle body buffer)) :
    Along (Obeys config) (onHandshake wanted stay handle) := by
  refine along_bind (framed_obeys nextHandshakeWithOptions_frame) fun found => ?_
  cases found with
  | none => exact along_pure
  | some message => exact handles _ _

theorem createHandshake_obeys {type : MessageType} {writeBody : EngineM Bytes}
    (framed : Along (Frame True) writeBody) :
    Along (Obeys config) (withEngine (createHandshake type writeBody)) :=
  framed_obeys (createHandshake_frame framed)

/-- The exchange of a hello is started by a group of the configuration, also where a
HelloRetryRequest selects it. -/
theorem sendClientHello_obeys : Along (Obeys config) sendClientHello := by
  refine along_bind along_get fun c => along_bind along_orThrow fun random => ?_
  refine along_bind (change_obeys fun _ => rfl) fun _ => along_bind ?_ fun group => ?_
  · refine along_bind along_get fun c => ?_
    split
    · exact along_pure
    · exact along_orThrow
  · refine along_get_bind fun c => ?_
    rw [post_bind, post_orThrow]
    refine ⟨fun kx found => ?_, fun _ => Std.Refl.refl c⟩
    have member : kx ∈ c.engine.config.kxGroups := List.mem_of_find?_eq_some found
    have rest : ∀ exchange : ActiveKeyExchange, Along (Obeys config) (do
        let cookie := (← get).savedCookie
        withEngine (createHandshake .clientHello
          (createClientHello random group exchange.pubKey cookie))
        return State.awaitServerHello) := fun _ =>
      along_bind along_get fun _ =>
        along_bind (createHandshake_obeys createClientHello_frame) fun _ => along_pure
    rw [post_bind]
    have started : Post (withEndpoint (Endpoint.startExchange kx)) c
        (fun exchange c' => Obeys config c c' ∧ ∃ entropy, kx.startExchange entropy = .ok exchange)
        fun _ c' => Obeys config c c' := by
      have yields : Post (withEndpoint (Endpoint.startExchange kx)) c
          (fun exchange _ => ∃ entropy, kx.startExchange entropy = .ok exchange) fun _ _ => True := by
        unfold withEndpoint Endpoint.startExchange
        rw [post_zoom, post_bind, post_get]
        dsimp only
        rw [post_bind, post_set, post_liftCrypto]
        exact ⟨fun exchange isOk => ⟨_, isOk⟩, fun _ _ => trivial⟩
      exact ((withEndpoint_obeys (Endpoint.startExchange_regards Endpoint.obeys_regards) c).and
        yields).mono (fun _ _ both => both) fun _ _ both => both.1
    refine started.mono (fun exchange c₁ both => ?_) fun _ _ kept => kept
    obtain ⟨kept, entropy, isStarted⟩ := both
    rw [post_bind, post_modify]
    refine (rest exchange).after fun policy => ⟨(kept policy).endpoint, fun exchange' isSome => ?_⟩
    cases isSome
    exact ⟨kx, policy.endpoint.config ▸ member, entropy, isStarted⟩

theorem readRetryExtensions_obeys {buffer : Bytes} {extensions : List Extension} :
    Along (Obeys config) (readRetryExtensions buffer extensions) := by
  induction extensions with
  | nil => exact along_pure
  | cons ext rest inductionHypothesis =>
      have keeps : ∀ f : Client → Client, (∀ c, (f c).endpoint = c.endpoint) →
          (∀ c, (f c).activeKeyExchange = c.activeKeyExchange) →
          Along (Obeys config) (modify f : ClientM PUnit) := fun f endpoint exchange =>
        modify_obeys (fun c => by rw [endpoint]; exact Std.Refl.refl c.endpoint) exchange
      refine along_ite (fun _ => ?_) fun _ => along_ite (fun _ => ?_) fun _ => inductionHypothesis
      · exact along_bind (keeps _ (fun _ => rfl) fun _ => rfl) fun _ => inductionHypothesis
      · split
        · exact along_throw
        · exact along_bind (keeps _ (fun _ => rfl) fun _ => rfl) fun _ => inductionHypothesis

theorem handleHelloRetryRequest_obeys {lengthBefore : Nat} {hello : ServerHello} {buffer : Bytes} :
    Along (Obeys config) (handleHelloRetryRequest lengthBefore hello buffer) := by
  refine along_bind along_get fun c => along_ite (fun _ => ?_) fun _ => ?_
  · exact along_bind (change_obeys fun _ => rfl) fun _ => along_pure
  · refine along_bind readRetryExtensions_obeys fun _ => along_get_bind fun c => ?_
    rw [post_ite]
    refine ⟨fun _ policy => policy, fun isAllowed => ?_⟩
    have isAllowed : c.engine.isCipherSuiteAllowed hello.cipherSuite = true := by simpa using isAllowed
    rw [post_bind, withEngine_post, post_modify]
    have selected : Obeys config c { c with
        endpoint := { c.endpoint with engine := c.engine.setCipherSuite hello.cipherSuite } } :=
      fun policy => ⟨policy.endpoint.setCipherSuite isAllowed, policy.exchange⟩
    refine Along.after ?_ selected
    refine along_ite (fun _ => along_throw) fun _ => ?_
    refine along_bind (withEndpoint_obeys
      (Endpoint.withEngine_regards Endpoint.obeys_regards
        replaceTranscriptWithMessageHash_ground)) fun _ => ?_
    refine along_bind (change_obeys fun _ => rfl) fun _ => ?_
    refine along_bind (change_obeys fun _ => rfl) fun _ => ?_
    refine along_bind (along_modify fun c policy => ⟨policy.endpoint.of_ground rfl policy.endpoint.checks,
      fun _ isSome => ?_⟩) fun _ => along_pure
    cases isSome

theorem handleServerHello_obeys {hello : ServerHello} {buffer : Bytes} :
    Along (Obeys config) (handleServerHello hello buffer) := by
  refine along_get_bind fun c => ?_
  split
  · exact fun policy => policy
  · rename_i passes
    have isAllowed : c.engine.isCipherSuiteAllowed hello.cipherSuite = true := by
      unfold refuseServerHello at passes
      split_ifs at passes with _ _ _ refused
      simpa using refused
    rw [post_bind, withEngine_post, post_modify]
    have selected : Obeys config c { c with
        endpoint := { c.endpoint with engine := c.engine.setCipherSuite hello.cipherSuite } } :=
      fun policy => ⟨policy.endpoint.setCipherSuite isAllowed, policy.exchange⟩
    refine Along.after ?_ selected
    refine along_bind (modify_obeys (fun c => Std.Refl.refl c.endpoint) fun _ => rfl) fun _ => ?_
    split
    · exact along_throw
    · split
      · exact along_throw
      · exact along_throw
      · refine along_bind (along_get_bind fun c => ?_) fun sharedSecret => ?_
        · rw [post_bind, post_orThrow]
          refine ⟨fun exchange _ => ?_, fun _ => Std.Refl.refl c⟩
          rw [post_bind, post_set]
          have used : Obeys config c { c with activeKeyExchange := none } := by
            intro policy
            refine ⟨policy.endpoint, fun exchange isSome => ?_⟩
            cases isSome
          have completes : ∀ {group : NamedGroup} {publicKey : Bytes}, Along (Obeys config)
              (if exchange.group ≠ group then
                throw (.fatal (.securityError (.serverKeyShareGroupMismatch exchange.group group)))
              else liftCrypto (exchange.complete publicKey) : ClientM Bytes) :=
            along_ite (fun _ => along_throw) fun _ => along_liftCrypto
          exact completes.after used
        · refine along_bind (withEndpoint_obeys
            (Endpoint.installHandshakeSecrets_regards Endpoint.obeys_regards)) fun _ => ?_
          exact along_bind (framed_obeys enablePeerEncryption_frame) fun _ => advance_obeys

theorem awaitServerHello_obeys : Along (Obeys config) awaitServerHello := by
  refine along_bind along_get fun c => onHandshake_obeys fun body buffer => ?_
  split
  · exact along_ite (fun _ => handleHelloRetryRequest_obeys) fun _ => handleServerHello_obeys
  · exact along_throw

theorem readEncryptedExtensions_obeys {buffer : Bytes} {extensions : List Extension} :
    Along (Obeys config) (readEncryptedExtensions buffer extensions) := by
  induction extensions with
  | nil => exact along_pure
  | cons ext rest inductionHypothesis =>
      refine along_ite (fun _ => ?_) fun _ => inductionHypothesis
      split
      · exact along_throw
      · refine along_bind (withEndpoint_obeys (along_modify fun p policy => ?_)) fun _ =>
          inductionHypothesis
        exact policy.of_ground rfl policy.checks

theorem awaitEncryptedExtensions_obeys : Along (Obeys config) awaitEncryptedExtensions := by
  refine onHandshake_obeys fun body buffer => ?_
  split
  · exact along_bind readEncryptedExtensions_obeys fun _ => advance_obeys
  · exact along_throw

theorem awaitCertificateRequest_obeys : Along (Obeys config) awaitCertificateRequest := by
  refine along_bind along_get fun c => along_ite (fun _ => along_pure) fun _ => ?_
  refine onHandshake_obeys fun body buffer => ?_
  split
  · split
    · exact along_throw
    · refine along_bind (modify_obeys (fun c policy => ?_) fun _ => rfl) fun _ => advance_obeys
      exact policy.of_ground rfl policy.checks
  · exact along_throw

theorem awaitCertificate_obeys : Along (Obeys config) awaitCertificate := by
  refine onHandshake_obeys fun body buffer => ?_
  split
  · refine along_ite (fun _ => along_throw) fun _ => along_ite (fun _ => along_throw) fun _ => ?_
    exact along_bind (withEndpoint_obeys (Endpoint.takeCertificates_regards Endpoint.obeys_regards))
      fun _ => advance_obeys
  · exact along_throw

theorem awaitFinished_obeys : Along (Obeys config) awaitFinished := by
  refine along_bind along_get fun c => along_bind along_get fun c => along_bind along_orThrow fun _ => ?_
  refine along_bind (framed_obeys computeVerifyData_readOnly.along) fun _ => ?_
  refine onHandshake_obeys fun body buffer => ?_
  split
  · refine along_bind (withEndpoint_obeys (Endpoint.checkFinished_regards Endpoint.obeys_regards))
      fun _ => ?_
    refine along_bind (withEndpoint_obeys
      (Endpoint.installApplicationSecrets_regards Endpoint.obeys_regards)) fun _ => ?_
    exact along_bind along_get fun _ => along_pure
  · exact along_throw

theorem sendCertificate_obeys : Along (Obeys config) sendCertificate := by
  refine along_bind (change_obeys fun _ => rfl) fun _ => along_bind along_get fun c => ?_
  refine along_bind along_get fun c => along_ite (fun _ => ?_) fun _ => ?_
  · exact along_bind (createHandshake_obeys along_pure) fun _ => along_pure
  · exact along_bind (createHandshake_obeys createCertificate_frame) fun _ => along_pure

theorem sendFinished_obeys : Along (Obeys config) sendFinished := by
  refine along_bind along_get fun c => along_bind ?_ fun _ => along_bind along_get fun c => ?_
  · refine withEndpoint_obeys (Endpoint.withEngine_regards Endpoint.obeys_regards (along_runIf ?_))
    exact fun _ => along_modify fun _ => rfl
  · refine along_bind along_orThrow fun _ => ?_
    refine along_bind (createHandshake_obeys computeVerifyData_readOnly.along) fun _ => ?_
    exact along_bind (withEndpoint_obeys (Endpoint.completeHandshake_regards Endpoint.obeys_regards))
      fun _ => along_pure

/-- Every handler keeps a client to its policy. -/
theorem handlers_obey {state : State} : Along (Obeys config) state.makeProgress := by
  cases state with
  | sendClientHello => exact sendClientHello_obeys
  | awaitServerHello => exact awaitServerHello_obeys
  | awaitEncryptedExtensions => exact awaitEncryptedExtensions_obeys
  | awaitCertificateRequest => exact awaitCertificateRequest_obeys
  | awaitCertificate => exact awaitCertificate_obeys
  | awaitCertificateVerify =>
      refine along_bind along_get fun c => ?_
      refine along_bind (framed_obeys transcriptHash_readOnly.along) fun _ => ?_
      refine onHandshake_obeys fun body buffer => ?_
      split
      · exact along_bind (withEndpoint_obeys
          (Endpoint.checkCertificateVerify_regards Endpoint.obeys_regards)) fun _ => along_pure
      · exact along_throw
  | awaitFinished => exact awaitFinished_obeys
  | sendCertificate => exact sendCertificate_obeys
  | sendCertificateVerify =>
      exact along_bind (createHandshake_obeys createCertificateVerify_frame) fun _ => along_pure
  | sendFinished => exact sendFinished_obeys
  | awaitApplicationData =>
      exact along_bind (withEndpoint_obeys
        (Endpoint.awaitApplicationData_regards Endpoint.obeys_regards)) fun _ => along_pure
  | halfClosedLocal =>
      exact along_bind (withEndpoint_obeys (Endpoint.halfClosedLocal_regards Endpoint.obeys_regards))
        fun _ => along_pure
  | closed => exact along_pure

theorem sendApplicationData_obeys {data : Bytes} :
    Along (Obeys config) (sendApplicationData data) := by
  refine along_bind along_get fun c => along_ite (fun _ => along_throw) fun _ => ?_
  refine along_ite (fun _ => ?_) fun _ => ?_
  · exact withEndpoint_obeys (Endpoint.modify_regards Endpoint.obeys_regards (fun _ => rfl) fun _ => rfl)
  · exact withEndpoint_obeys (Endpoint.sendData_regards Endpoint.obeys_regards)

theorem close_obeys : Along (Obeys config) close := by
  refine along_bind along_get fun c => along_ite (fun _ => along_pure) fun _ => ?_
  have left : ∀ state, Along (Obeys config) (modify fun (c : Client) => { c with state }) := fun state =>
    modify_obeys (fun c => Std.Refl.refl c.endpoint) fun _ => rfl
  refine along_ite (fun _ => ?_) fun _ => ?_
  · exact along_bind (change_obeys fun _ => rfl) fun _ => left _
  · exact along_bind (withEndpoint_obeys (Endpoint.closeWrite_regards Endpoint.obeys_regards)) fun _ => left _

end Handlers

/-- The handlers of a client. -/
def machine : Machine Fault Client State where
  state := Client.state
  enter := fun next c => { c with state := next }
  handler := State.makeProgress

/-- The exchange that a ServerHello completes. -/
def completed (c : Client) : List ActiveKeyExchange :=
  match c.state, value? awaitServerHello c with
  | .awaitServerHello, some .awaitEncryptedExtensions => c.activeKeyExchange.toList
  | _, _ => []

/-- The exchanges that are completed in a call. -/
def completedExchanges (c : Client) : Call → List ActiveKeyExchange
  | .handlePacket packet =>
    following (withEngine (receivePacket packet)) (machine.rounds completed 20) c
  | .handleTimeout now =>
    following (withEndpoint (Endpoint.handleTimeout now)) (machine.rounds completed 20) c
  | _ => []

section Runs

variable {config : Config} {c : Client}

/-- One round: what is completed was started by the configuration. -/
theorem round_policy (policy : Policy config c) :
    (∀ exchange ∈ c.completed, config.Yields exchange) ∧
      Post c.state.makeProgress c
        (fun next c' => if next = c.state then Policy config c' else Policy config { c' with state := next })
        fun _ c' => Policy config c' := by
  refine ⟨fun exchange member => ?_, ?_⟩
  · unfold completed at member
    split at member
    · exact policy.exchange exchange (by simpa using member)
    · cases member
  · refine (handlers_obey c).mono (fun next c' kept => ?_) fun _ _ kept => kept policy
    split
    · exact kept policy
    · exact ⟨(kept policy).endpoint, (kept policy).exchange⟩

theorem progressLoop_machine {fuel : Nat} : progressLoop fuel = machine.loop (.panic .assertion) fuel := by
  induction fuel with
  | zero => rfl
  | succ fuel inductionHypothesis =>
      unfold progressLoop Machine.loop
      rw [inductionHypothesis]
      rfl

/-- The rounds of a call. -/
theorem makeProgress_policy (policy : Policy config c) :
    (∀ exchange ∈ machine.rounds completed 20 c, config.Yields exchange) ∧
      Policy config (finalState makeProgress c) := by
  unfold makeProgress
  rw [progressLoop_machine]
  exact machine.loop_each (fun _ kept => kept) (fun _ kept => round_policy kept) policy

theorem Policy.after {α : Type} {program : ClientM α} (policy : Policy config c)
    (along : Along (Obeys config) program) :
    Post program c (fun _ c' => Policy config c') fun _ c' => Policy config c' :=
  (along c).mono (fun _ _ kept => kept policy) fun _ _ kept => kept policy

/-- A call. -/
theorem exec_policy {call : Call} (policy : Policy config c) :
    (∀ exchange ∈ c.completedExchanges call, config.Yields exchange) ∧ Policy config (c.exec call) := by
  cases call with
  | handlePacket packet =>
      show _ ∧ Policy config (finalState (publicResult _) c)
      rw [finalState_publicResult]
      have receives : Along (Obeys config) (withEngine (receivePacket packet)) :=
        framed_obeys receivePacket_frame
      exact each_following makeProgress (policy.after receives) fun _ kept => makeProgress_policy kept
  | handleTimeout now =>
      have ticks : Along (Obeys config) (withEndpoint (Endpoint.handleTimeout now)) :=
        withEndpoint_obeys (Endpoint.handleTimeout_regards Endpoint.obeys_regards)
      refine each_following (publicResult makeProgress) (policy.after ticks) fun c' kept => ?_
      rw [finalState_publicResult]
      exact makeProgress_policy kept
  | pollOutput bufLen =>
      refine ⟨fun _ member => absurd member List.not_mem_nil, post_state.mp (post_bind.mpr (policy.after ?_))⟩
      exact withEndpoint_obeys (Endpoint.pollOutput_regards Endpoint.obeys_regards)
  | sendApplicationData data =>
      exact ⟨fun _ member => absurd member List.not_mem_nil, post_state.mp (policy.after sendApplicationData_obeys)⟩
  | close => exact ⟨fun _ member => absurd member List.not_mem_nil, post_state.mp (policy.after close_obeys)⟩

/-- A client keeps to its policy in every run. The exchange of a hello that was sent for it
has to be one of the configuration. -/
theorem run_policy (start : Start c)
    (yields : ∀ exchange, c.activeKeyExchange = some exchange → c.engine.config.Yields exchange)
    (calls : List Call) :
    (∀ exchange ∈ traced exec completedExchanges c calls, c.engine.config.Yields exchange) ∧
      Policy c.engine.config (run exec c calls) := by
  have policy : Policy c.engine.config c := by
    refine ⟨⟨rfl, fun suite isSuite => ?_, fun check member => ?_⟩, yields⟩
    · cases start with
      | fresh | hybrid => cases isSuite
    · cases start with
      | fresh | hybrid => cases member
  exact traced_each (fun _ _ kept => exec_policy kept) policy

end Runs

end Client

namespace Server

section Hellos

variable {config : Config} {s : Server} {suite : Dtls13CipherSuite} {random : Random}

/-- A server and its policy. -/
def Policy (config : Config) (s : Server) : Prop := s.endpoint.Policy config

/-- A server that keeps to its policy still does. -/
def Obeys (config : Config) (s s' : Server) : Prop := Endpoint.Obeys config s.endpoint s'.endpoint

instance : Std.Refl (Obeys config) := ⟨fun _ policy => policy⟩

instance : IsTrans Server (Obeys config) :=
  ⟨fun _ _ _ first second policy => second (first policy)⟩

/-- The suite is one of the configuration. -/
def Allows (config : Config) (suite : Dtls13CipherSuite) : Prop :=
  ∀ e : Engine, e.config = config → e.isCipherSuiteAllowed suite = true

theorem setCipherSuite_obeys (allows : Allows config suite) :
    Along (Obeys config) (withEngine (modify (Engine.setCipherSuite suite))) := by
  refine withEndpoint_regards (along_zoom (along_modify fun _ => rfl) fun p e kept policy => ?_)
  subst kept
  exact policy.setCipherSuite (allows _ policy.config)

theorem change_obeys {f : Engine → Engine} (same : ∀ e, (f e).ground = e.ground) :
    Along (Obeys config) (withEngine (modify f)) :=
  change_regards Endpoint.obeys_regards same

theorem computeCookie_obeys : Along (Obeys config) (computeCookie random) := by
  refine along_bind along_get fun s => ?_
  split
  · exact along_pure
  · exact along_throw

theorem checkCookie_obeys {cookie : Option Bytes} : Along (Obeys config) (checkCookie random cookie) := by
  refine along_bind along_get fun s => along_ite (fun _ => ?_) fun _ => along_pure
  refine along_bind computeCookie_obeys fun expected => ?_
  cases cookie with
  | some cookie => exact along_ite (fun _ => along_throw) fun _ => along_pure
  | none => exact along_pure

/-- The share that waits for the ServerHello is of a group of the configuration. -/
def Holds (config : Config) (s : Server) : Prop :=
  ∃ group publicKey, config.HasGroup group ∧
    s.extensionData = publicKey ++ be16 group.asU16 ++ be32 0 ++ be32 publicKey.length

/-- Where a hello leads: it is accepted with a share that is held. -/
def Picks (config : Config) (next : State) (s : Server) : Prop :=
  next = .sendServerHello → Holds config s

theorem picks_stay : ∀ s, Picks config .awaitClientHello s := fun _ isSending => by cases isSending

theorem retryHello_picks {group : Option NamedGroup} (allows : Allows config suite) :
    Leads (Obeys config) (retryHello suite random group) (Picks config) := by
  refine leads_bind (setCipherSuite_obeys allows) fun _ => leads_bind along_get fun s => ?_
  refine leads_bind (withEndpoint_regards (Endpoint.withEngine_regards Endpoint.obeys_regards
    replaceTranscriptWithMessageHash_ground)) fun _ => leads_bind computeCookie_obeys fun cookie => ?_
  refine leads_bind ?_ fun _ => leads_bind (change_obeys fun _ => rfl) fun _ => ?_
  · refine along_bind along_get fun _ => along_bind (change_obeys fun _ => rfl) fun _ => ?_
    exact createHandshake_regards Endpoint.obeys_regards along_pure
  · refine leads_bind (change_obeys fun _ => rfl) fun _ => leads_bind ?_ fun _ => leads_pure picks_stay
    exact withEndpoint_regards (Endpoint.modify_regards Endpoint.obeys_regards (fun _ => rfl) fun _ => rfl)

theorem acceptShare_picks {share : KeyShareEntry} {profiles : Option (List SrtpProfile)} {buffer : Bytes}
    (allows : Allows config suite) (has : config.HasGroup share.group) :
    Leads (Obeys config) (acceptShare suite share profiles buffer) (Picks config) := by
  refine leads_bind along_get fun s => leads_bind along_orThrow fun kx => ?_
  refine leads_bind (withEndpoint_regards (Endpoint.startExchange_regards Endpoint.obeys_regards))
    fun exchange => ?_
  refine leads_bind (along_modify fun _ policy => policy) fun _ => leads_bind along_liftCrypto fun _ => ?_
  refine leads_bind (along_modify fun _ policy => policy.of_ground rfl policy.checks) fun _ => ?_
  refine leads_bind (setCipherSuite_obeys allows) fun _ => ?_
  -- The message counts as read behind the share, and leaves it alone.
  intro s
  rw [post_bind, post_modify]
  unfold advance
  rw [post_bind, withEngine_post, post_modify, post_pure]
  exact ⟨fun policy => policy.of_ground rfl policy.checks, fun _ => ⟨share.group, exchange.pubKey, has, rfl⟩⟩

theorem selectShare_picks {found : HelloExtensions} {buffer : Bytes} (allows : Allows config suite) :
    Leads (Obeys config) (selectShare suite random (config.kxGroups.map SupportedKxGroup.name) found buffer)
      (Picks config) := by
  unfold selectShare
  split
  · rename_i share isShare
    have isGroup := List.find?_some isShare
    exact acceptShare_picks allows (Config.hasGroup_iff.mpr (by simpa using isGroup))
  · split
    · exact leads_throw
    · exact leads_bind along_get fun _ => leads_ite (fun _ => leads_throw) fun _ => retryHello_picks allows

theorem acceptClientHello_picks {lengthBefore : Nat} {hello : ClientHello} {found : HelloExtensions}
    {buffer : Bytes} (policy : Policy config s) :
    Post (acceptClientHello lengthBefore hello found buffer) s
      (fun next s' => Obeys config s s' ∧ Picks config next s') fun _ s' => Obeys config s s' := by
  unfold acceptClientHello
  rw [post_bind, post_get, post_bind, post_orThrow]
  refine ⟨fun suite isSuite => ?_, fun _ policy => policy⟩
  have allows : Allows config suite := fun e isConfig => by
    have isAllowed := List.find?_some isSuite
    unfold Engine.isCipherSuiteAllowed at isAllowed ⊢
    rwa [isConfig, ← policy.config]
  rw [post_bind, post_modify, post_bind, withEngine_post]
  unfold supportedGroups
  dsimp only
  rw [post_ite]
  refine ⟨fun _ => ?_, fun _ policy => policy⟩
  have isConfig : s.engine.config = config := policy.config
  rw [post_pure, isConfig]
  have rest : Leads (Obeys config) (do
      if ← checkCookie hello.random found.cookie then
        selectShare suite hello.random (config.kxGroups.map SupportedKxGroup.name) found buffer
      else if (← get).endpoint.helloRetry then
        withEngine (modify (Engine.truncateTranscript lengthBefore))
        return State.awaitClientHello
      else
        retryHello suite hello.random
          (retryGroup (config.kxGroups.map SupportedKxGroup.name) found)) (Picks config) := by
    refine leads_bind checkCookie_obeys fun passed => leads_ite (fun _ => selectShare_picks allows) fun _ => ?_
    refine leads_bind along_get fun _ => leads_ite (fun _ => ?_) fun _ => retryHello_picks allows
    exact leads_bind (change_obeys fun _ => rfl) fun _ => leads_pure picks_stay
  have kept : Obeys config s { s with clientSessionId := some hello.legacySessionId } := fun policy => policy
  exact rest.after kept

theorem awaitClientHello_picks (policy : Policy config s) :
    Post awaitClientHello s (fun next s' => Policy config s' ∧ Picks config next s')
      fun _ s' => Policy config s' := by
  have framed : Along (Frame True) s.nextHello :=
    along_ite (fun _ => nextHandshakeWithOptions_frame) fun _ => nextHandshakeWithOptions_frame
  unfold awaitClientHello
  rw [post_bind, post_get]
  show Post (onMessage s.nextHello _ _) s _ _
  unfold onMessage
  rw [post_bind]
  refine (framed_regards Endpoint.obeys_regards framed s).mono (fun found s₁ kept => ?_)
    fun _ _ kept => kept policy
  have policy := kept policy
  cases found with
  | none => exact ⟨policy, picks_stay s₁⟩
  | some message =>
      dsimp only
      split
      · rename_i hello _
        unfold handleClientHello
        split
        · exact policy
        · cases readExtensions message.2 hello.extensions with
          | error fault => exact policy
          | ok found =>
              show Post (if !found.versionOk then _ else _) s₁ _ _
              rw [post_ite]
              refine ⟨fun _ => ?_, fun _ => ?_⟩
              · rw [post_bind, post_get, post_ite]
                exact ⟨fun _ => policy, fun _ => policy⟩
              · exact (acceptClientHello_picks policy).mono (fun _ _ both => ⟨both.1 policy, both.2⟩)
                  fun _ _ kept => kept policy
      · exact policy

end Hellos

/-- The group of the share that an accepted hello leaves for the ServerHello. -/
def agreed (s : Server) : List NamedGroup :=
  match s.state, awaitClientHello s with
  | .awaitClientHello, .ok .sendServerHello s' =>
    (storedShare s'.extensionData).toList.map fun stored => stored.1.group
  | _, _ => []

/-- The groups that are agreed in a call. -/
def agreedGroups (s : Server) : Call → List NamedGroup
  | .handlePacket packet =>
    following (retainHello packet)
      (following (withEngine (receivePacket packet)) (machine.rounds agreed 20)) s
  | .handleTimeout now =>
    following (withEndpoint (Endpoint.handleTimeout now)) (machine.rounds agreed 20) s
  | _ => []

section Runs

variable {config : Config} {s : Server}

/-- The names of groups fit the two bytes they are kept in. -/
theorem Holds.stored {share : KeyShareEntry} {rest : Bytes} (holds : Holds config s)
    (isStored : storedShare s.extensionData = some (share, rest)) : config.HasGroup share.group := by
  obtain ⟨group, publicKey, ⟨kx, member, isName⟩, isData⟩ := holds
  rw [isData, storedShare_append] at isStored
  cases isStored
  refine ⟨kx, member, isName.trans ?_⟩
  have isSupported : kx.name = .x25519 ∨ kx.name = .secp256r1 ∨ kx.name = .secp384r1 := by
    unfold Config.kxGroups CryptoProvider.supportedKxGroups at member
    simpa using (List.mem_filter.mp (List.mem_filter.mp member).1).2
  rw [isName] at isSupported
  rcases isSupported with rfl | rfl | rfl <;> rfl

/-- One round: the group that is agreed is one of the configuration. -/
theorem round_policy (policy : Policy config s) :
    (∀ group ∈ s.agreed, config.HasGroup group) ∧
      Post s.state.makeProgress s
        (fun next s' => if next = s.state then Policy config s'
          else Policy config { s' with state := next })
        fun _ s' => Policy config s' := by
  refine ⟨fun group member => ?_, ?_⟩
  · unfold agreed at member
    split at member
    · rename_i isHello isAccepted
      have picks := awaitClientHello_picks policy
      unfold Post at picks
      rw [isAccepted] at picks
      simp only [List.mem_map, Option.mem_toList] at member
      obtain ⟨stored, isStored, rfl⟩ := member
      exact (picks.2 rfl).stored isStored
    · cases member
  · have post : Post s.state.makeProgress s (fun _ s' => Policy config s')
        fun _ s' => Policy config s' := by
      by_cases isHello : s.state = .awaitClientHello
      · rw [isHello]
        exact (awaitClientHello_picks policy).mono (fun _ _ both => both.1) fun _ _ kept => kept
      · exact (handlers_regards Endpoint.obeys_regards isHello s).mono (fun _ _ kept => kept policy)
          fun _ _ kept => kept policy
    refine post.mono (fun next s' kept => ?_) fun _ _ kept => kept
    split
    · exact kept
    · exact kept

/-- The rounds of a call. -/
theorem makeProgress_policy (policy : Policy config s) :
    (∀ group ∈ machine.rounds agreed 20 s, config.HasGroup group) ∧
      Policy config (finalState makeProgress s) := by
  unfold makeProgress
  rw [progressLoop_machine]
  exact machine.loop_each (fun _ kept => kept) (fun _ kept => round_policy kept) policy

theorem Policy.after {α : Type} {program : ServerM α} (policy : Policy config s)
    (along : Along (Obeys config) program) :
    Post program s (fun _ s' => Policy config s') fun _ s' => Policy config s' :=
  (along s).mono (fun _ _ kept => kept policy) fun _ _ kept => kept policy

theorem retainHello_obeys {packet : Bytes} : Along (Obeys config) (retainHello packet) := by
  refine along_get_bind fun s => ?_
  rw [post_ite]
  refine ⟨fun _ => ?_, fun _ policy => policy⟩
  rw [post_ite]
  exact ⟨fun _ policy => policy, fun _ policy => policy⟩

theorem commitVersion_policy (policy : Policy config s) :
    Policy config s.commitVersion := by
  unfold commitVersion
  split
  · exact policy
  · exact policy

theorem sendApplicationData_obeys {data : Bytes} :
    Along (Obeys config) (sendApplicationData data) := by
  refine along_bind along_get fun s => along_ite (fun _ => along_throw) fun _ => ?_
  refine along_ite (fun _ => withEndpoint_regards ?_) fun _ => withEndpoint_regards ?_
  · exact Endpoint.modify_regards Endpoint.obeys_regards (fun _ => rfl) fun _ => rfl
  · exact Endpoint.sendData_regards Endpoint.obeys_regards

theorem close_obeys : Along (Obeys config) close := by
  refine along_bind along_get fun s => along_ite (fun _ => along_pure) fun _ => ?_
  refine along_ite (fun _ => ?_) fun _ => ?_
  · exact along_bind (change_obeys fun _ => rfl) fun _ => along_modify fun _ policy => policy
  · exact along_bind (withEndpoint_regards (Endpoint.closeWrite_regards Endpoint.obeys_regards))
      fun _ => along_modify fun _ policy => policy

/-- A call. -/
theorem exec_policy {call : Call} (policy : Policy config s) :
    (∀ group ∈ s.agreedGroups call, config.HasGroup group) ∧
      Policy config (s.exec call) := by
  cases call with
  | handlePacket packet =>
      refine each_following
        (publicResult do withEngine (receivePacket packet); makeProgress; modify commitVersion)
        (policy.after (@retainHello_obeys config packet)) fun s₁ policy => ?_
      rw [finalState_publicResult]
      have receives : Along (Obeys config) (withEngine (receivePacket packet)) :=
        framed_regards Endpoint.obeys_regards receivePacket_frame
      refine each_following _ (policy.after receives) fun s₂ policy => ?_
      obtain ⟨groups, ended⟩ := makeProgress_policy policy
      refine ⟨groups, post_state.mp (post_bind.mpr ?_)⟩
      exact (post_state.mpr ended).mono (fun _ _ ended => commitVersion_policy ended)
        fun _ _ ended => ended
  | handleTimeout now =>
      have ticks : Along (Obeys config) (withEndpoint (Endpoint.handleTimeout now)) :=
        withEndpoint_regards (Endpoint.handleTimeout_regards Endpoint.obeys_regards)
      refine each_following (publicResult makeProgress) (policy.after ticks) fun s₁ policy => ?_
      rw [finalState_publicResult]
      exact makeProgress_policy policy
  | pollOutput bufLen =>
      refine ⟨fun _ member => absurd member List.not_mem_nil, post_state.mp (post_bind.mpr ?_)⟩
      exact policy.after
        (withEndpoint_regards (Endpoint.pollOutput_regards Endpoint.obeys_regards))
  | sendApplicationData data =>
      exact ⟨fun _ member => absurd member List.not_mem_nil,
        post_state.mp (policy.after sendApplicationData_obeys)⟩
  | close =>
      exact ⟨fun _ member => absurd member List.not_mem_nil,
        post_state.mp (policy.after close_obeys)⟩

/-- A server keeps to its policy in every run. -/
theorem run_policy (start : Start s) (calls : List Call) :
    (∀ group ∈ traced exec agreedGroups s calls, s.engine.config.HasGroup group) ∧
      Policy s.engine.config (run exec s calls) := by
  have policy : Policy s.engine.config s := by
    cases start with
    | fresh =>
        refine ⟨rfl, fun suite isSuite => ?_, fun check member => ?_⟩
        · cases isSuite
        · cases member
  exact traced_each (fun _ _ kept => exec_policy kept) policy

end Runs

end Server

end Dimpl.Dtls13
