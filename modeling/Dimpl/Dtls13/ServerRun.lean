import Dimpl.Dtls13.EndpointRun
import Dimpl.Dtls13.Server

/-!
# What the handlers of a server do

Where each handler leads and what it leaves alone, and the calls of a run.
-/

namespace Dimpl.Dtls13

open Nom Program

namespace Server

/-- The fields around the engine's endpoint are open, the state stays. -/
structure Within (early : Prop) (s s' : Server) : Prop where
  state : s'.state = s.state
  endures : Endures early True s.endpoint s'.endpoint

section Handlers

variable {early : Prop} {s : Server} {T : State → Server → Prop}

theorem Within.refl (s : Server) : Within early s s := ⟨rfl, .refl _⟩

instance : Std.Refl (Within early) := ⟨Within.refl⟩

instance : IsTrans Server (Within early) :=
  ⟨fun _ _ _ first second =>
    ⟨second.state.trans first.state, IsTrans.trans _ _ _ first.endures second.endures⟩⟩

theorem withEndpoint_within {α : Type} {program : EndpointM α}
    (endures : Along (Endures early True) program) : Along (Within early) (withEndpoint program) :=
  along_zoom endures fun _ _ kept => ⟨rfl, kept⟩

theorem withEngine_within {α : Type} {program : EngineM α}
    (steady : Along (Steady early True) program) : Along (Within early) (withEngine program) :=
  withEndpoint_within (Endpoint.withEngine_endures steady)

theorem withEngine_framed {α : Type} {program : EngineM α} (framed : Along (Frame True) program) :
    Along (Within early) (withEngine program) :=
  withEndpoint_within (Endpoint.withEngine_framed framed)

theorem withEndpoint_state {α : Type} {program : EndpointM α} :
    Along (Keeps Server.state) (withEndpoint program) := by
  intro s
  unfold withEndpoint
  rw [post_zoom]
  exact post_self.mono (fun _ _ _ => rfl) fun _ _ _ => rfl

/-- A program over the engine says what it says about the engine. -/
theorem withEngine_post {α : Type} {program : EngineM α} {Q : α → Server → Prop}
    {E : Fault → Server → Prop} :
    Post (withEngine program) s Q E ↔
      Post program s.engine
        (fun value engine => Q value { s with endpoint := { s.endpoint with engine } })
        (fun fault engine => E fault { s with endpoint := { s.endpoint with engine } }) := by
  unfold withEngine withEndpoint Endpoint.withEngine
  rw [post_zoom, post_zoom]
  rfl

/-- A change that leaves state and endpoint alone. -/
theorem modify_within {f : Server → Server} (state : ∀ s, (f s).state = s.state)
    (endures : ∀ s, Endures early True s.endpoint (f s).endpoint) :
    Along (Within early) (modify f : ServerM PUnit) :=
  along_modify fun s => ⟨state s, endures s⟩

theorem advance_leads {next : State} (holds : ∀ s, T next s) :
    Leads (Within early) (advance next) T :=
  leads_bind (withEndpoint_within Endpoint.advance_endures) fun _ => leads_pure holds

/-- A handler of a message goes where its body goes, or stays. -/
theorem onMessage_leads {program : EngineM (Option (Handshake × Bytes))} {stay : State}
    {handle : Body → Bytes → ServerM State} (framed : Along (Frame True) program)
    (stays : ∀ s, T stay s) (handles : ∀ body buffer, Leads (Within early) (handle body buffer) T) :
    Leads (Within early) (onMessage program stay handle) T := by
  refine leads_bind (withEngine_framed framed) fun found => ?_
  cases found with
  | none => exact leads_pure stays
  | some message => exact handles _ _

/-- Where a ClientHello leads. -/
def AfterHello (next : State) (s : Server) : Prop :=
  next = .awaitClientHello ∨ (next = .sendServerHello ∧ s.engine.cipherSuite.isSome = true)

theorem computeCookie_within {random : Random} : Along (Within early) (computeCookie random) := by
  refine along_bind along_get fun s => ?_
  split
  · exact along_pure
  · exact along_throw

theorem checkCookie_within {random : Random} {cookie : Option Bytes} :
    Along (Within early) (checkCookie random cookie) := by
  refine along_bind along_get fun s => along_ite (fun _ => ?_) fun _ => along_pure
  refine along_bind computeCookie_within fun expected => ?_
  cases cookie with
  | some cookie => exact along_ite (fun _ => along_throw) fun _ => along_pure
  | none => exact along_pure

theorem resetForHelloRetry_steady {e : Engine} : Steady early True e e.resetForHelloRetry :=
  ⟨rfl, rfl, rfl, List.prefix_rfl, id, fun _ => rfl, fun _ => List.prefix_rfl, fun _ _ => ⟨rfl, rfl⟩⟩

theorem sendHelloRetryRequest_within {suite : Dtls13CipherSuite} {cookie : Bytes}
    {group : Option NamedGroup} :
    Along (Within early) (sendHelloRetryRequest suite cookie group) := by
  refine along_bind along_get fun s => ?_
  refine along_bind (withEndpoint_within Endpoint.flightBegin_endures) fun _ => ?_
  exact withEngine_framed (createHandshake_frame along_pure)

theorem retryHello_leads {suite : Dtls13CipherSuite} {random : Random} {group : Option NamedGroup} :
    Leads (Within True) (retryHello suite random group) AfterHello := by
  refine leads_bind (withEngine_within setCipherSuite_steady) fun _ => ?_
  refine leads_bind along_get fun s => ?_
  refine leads_bind (withEngine_within (replaceTranscriptWithMessageHash_steady trivial)) fun _ => ?_
  refine leads_bind computeCookie_within fun cookie => ?_
  refine leads_bind sendHelloRetryRequest_within fun _ => ?_
  refine leads_bind (withEndpoint_within Endpoint.advance_endures) fun _ => ?_
  refine leads_bind (withEngine_within (along_modify fun _ => resetForHelloRetry_steady)) fun _ => ?_
  refine leads_bind (withEndpoint_within (along_modify fun p => ?_)) fun _ => leads_pure fun _ => .inl rfl
  exact ⟨.refl _, rfl, id, rfl, fun _ => ⟨rfl, rfl⟩⟩

theorem acceptShare_leads {suite : Dtls13CipherSuite} {share : KeyShareEntry}
    {profiles : Option (List SrtpProfile)} {buffer : Bytes} :
    Leads (Within True) (acceptShare suite share profiles buffer) AfterHello := by
  refine leads_bind along_get fun s => leads_bind along_orThrow fun kx => ?_
  refine leads_bind (withEndpoint_within Endpoint.startExchange_endures) fun exchange => ?_
  refine leads_bind (modify_within (fun _ => rfl) fun _ => .refl _) fun _ => ?_
  refine leads_bind along_liftCrypto fun sharedSecret => ?_
  refine leads_bind (modify_within (fun _ => rfl) fun s => ?_) fun _ => ?_
  · exact ⟨.refl _, rfl, id, rfl, fun _ => ⟨rfl, rfl⟩⟩
  · -- The suite is set last; nothing behind it takes it back.
    intro s
    rw [post_bind]
    have set : Post (withEngine (modify (Engine.setCipherSuite suite))) s
        (fun _ s' => Within True s s' ∧ s'.engine.cipherSuite.isSome = true)
        (fun _ s' => Within True s s') :=
      ⟨withEngine_within setCipherSuite_steady s, rfl⟩
    refine set.mono (fun _ s₁ moved => ?_) fun _ _ moved => moved
    rw [post_bind, post_modify]
    exact ⟨⟨moved.1.state, IsTrans.trans _ _ _ moved.1.endures
      (Endpoint.endures_engine advancePeerHandshakeSeq_steady)⟩, .inr ⟨rfl, moved.2⟩⟩

theorem selectShare_leads {suite : Dtls13CipherSuite} {random : Random} {groups : List NamedGroup}
    {found : HelloExtensions} {buffer : Bytes} :
    Leads (Within True) (selectShare suite random groups found buffer) AfterHello := by
  unfold selectShare
  split
  · exact acceptShare_leads
  · split
    · exact leads_throw
    · exact leads_bind along_get fun s => leads_ite (fun _ => leads_throw) fun _ => retryHello_leads

theorem acceptClientHello_leads {lengthBefore : Nat} {hello : ClientHello} {found : HelloExtensions}
    {buffer : Bytes} : Leads (Within True) (acceptClientHello lengthBefore hello found buffer) AfterHello := by
  refine leads_bind along_get fun s => leads_bind along_orThrow fun suite => ?_
  refine leads_bind (modify_within (fun _ => rfl) fun _ => .refl _) fun _ => ?_
  have groups : Along (Frame True) (supportedGroups s.engine.config) :=
    along_ite (fun _ => along_pure) fun _ => along_throw
  refine leads_bind (withEngine_framed groups) fun groups => ?_
  refine leads_bind checkCookie_within fun accepted => ?_
  refine leads_ite (fun _ => selectShare_leads) fun _ => leads_bind along_get fun s => ?_
  refine leads_ite (fun _ => ?_) fun _ => retryHello_leads
  refine leads_bind (withEngine_within (along_modify fun _ => ?_)) fun _ => leads_pure fun _ => .inl rfl
  exact .of_early trivial rfl rfl rfl rfl id

theorem awaitClientHello_leads : Leads (Within True) awaitClientHello AfterHello := by
  refine leads_bind along_get fun s => ?_
  have framed : Along (Frame True)
      (if s.autoMode then nextClientHelloForAutoSense else nextHandshake .clientHello) :=
    along_ite (fun _ => nextHandshakeWithOptions_frame) fun _ => nextHandshakeWithOptions_frame
  refine onMessage_leads framed (fun _ => .inl rfl) fun body buffer => ?_
  split
  · unfold handleClientHello
    split
    · exact leads_throw
    · refine leads_bind ?_ fun found => ?_
      · cases readExtensions buffer _ with
        | ok found => exact along_pure
        | error fault => exact along_throw
      · refine leads_ite (fun _ => leads_bind along_get fun s => ?_) fun _ => acceptClientHello_leads
        exact leads_ite (fun _ => leads_throw) fun _ => leads_throw
  · exact leads_throw

theorem createServerHello_frame {random : Random} {sessionId extensionData : Bytes}
    {share : KeyShareEntry} :
    Along (Frame True) (createServerHello random sessionId share extensionData) := by
  refine along_bind along_get fun e => along_bind along_orThrow fun suite => ?_
  exact along_ite (fun _ => along_throw) fun _ => along_pure

theorem sendServerHello_leads :
    Leads (Within True) sendServerHello fun next _ => next = .sendEncryptedExtensions := by
  intro s
  unfold sendServerHello
  rw [post_bind, post_get, post_bind, post_orThrow]
  refine ⟨fun random _ => ?_, fun _ => .refl s⟩
  rw [post_bind, post_orThrow]
  refine ⟨fun stored _ => ?_, fun _ => .refl s⟩
  dsimp only
  rw [post_bind, post_set]
  refine Leads.after (s := s) ?_ ⟨rfl, .refl _⟩
  refine leads_bind (withEndpoint_within Endpoint.flightBegin_endures) fun _ => ?_
  refine leads_bind (withEngine_framed (createHandshake_frame createServerHello_frame)) fun _ => ?_
  refine leads_bind along_get fun s => leads_bind along_orThrow fun sharedSecret => ?_
  refine leads_bind (modify_within (fun _ => rfl) fun _ => .refl _) fun _ => ?_
  refine leads_bind (withEndpoint_within (Endpoint.installHandshakeSecrets_endures trivial))
    fun _ => ?_
  exact leads_pure fun _ => rfl

/-- A message of the server's flight is sent. -/
theorem createHandshake_within {type : MessageType} {writeBody : EngineM Bytes}
    (write : Along (Frame True) writeBody) :
    Along (Within early) (withEngine (createHandshake type writeBody)) :=
  withEngine_framed (createHandshake_frame write)

theorem sendEncryptedExtensions_leads :
    Leads (Within False) sendEncryptedExtensions fun next s =>
      next = if s.engine.config.requireClientCertificate then .sendCertificateRequest
        else .sendCertificate := by
  refine leads_bind along_get fun s => leads_bind (createHandshake_within along_pure) fun _ => ?_
  exact fun s => ⟨.refl s, rfl⟩

theorem sendCertificate_leads :
    Leads (Within False) sendCertificate fun next _ => next = .sendCertificateVerify :=
  leads_bind (createHandshake_within createCertificate_frame) fun _ => leads_pure fun _ => rfl

theorem sendCertificateVerify_leads :
    Leads (Within False) sendCertificateVerify fun next _ => next = .sendFinished :=
  leads_bind (createHandshake_within createCertificateVerify_frame) fun _ => leads_pure fun _ => rfl

theorem sendFinished_leads :
    Leads (Within False) sendFinished fun next s =>
      next = if s.endpoint.clientAuthRequested then .awaitCertificate else .awaitFinished := by
  refine leads_bind along_get fun s => leads_bind along_orThrow fun secret => ?_
  refine leads_bind (createHandshake_within computeVerifyData_readOnly.along) fun _ => ?_
  refine leads_bind (withEndpoint_within Endpoint.installApplicationSecrets_endures) fun _ => ?_
  refine leads_bind (withEngine_framed enablePeerEncryption_frame) fun _ => ?_
  exact fun s => ⟨.refl s, rfl⟩

/-- Where a message of the handshake leads: the handler starts from a server that has
read it. -/
theorem onMessage_post {wanted : MessageType} {stay : State} {handle : Body → Bytes → ServerM State}
    {Q : State → Server → Prop} (stays : Q stay s)
    (handles : ∀ body buffer s', s'.state = s.state →
      Read wanted false s.engine s'.engine body buffer →
      s' = { s with endpoint := { s.endpoint with engine := s'.engine } } →
      Post (handle body buffer) s' Q fun _ s' => Within False s s') :
    Post (onMessage (nextHandshake wanted) stay handle) s Q fun _ s' => Within False s s' := by
  unfold onMessage nextHandshake
  rw [post_bind, withEngine_post]
  refine nextHandshake_read.mono ?_ fun _ e' missed =>
    ⟨rfl, Endpoint.endures_engine missed.frame.steady⟩
  rintro found e' (⟨rfl, rfl⟩ | ⟨handshake, buffer, rfl, read⟩)
  · exact stays
  · exact handles handshake.body buffer _ rfl read rfl

/-- An endpoint that has read a message has kept everything. -/
theorem read_endures {wanted : MessageType} {s' : Server} {body : Body} {buffer : Bytes}
    (read : Read wanted false s.engine s'.engine body buffer)
    (only : s' = { s with endpoint := { s.endpoint with engine := s'.engine } }) :
    Within early s s' := by
  rw [only]
  exact ⟨rfl, Endpoint.endures_engine read.frame.steady⟩

theorem halfClosedLocal_leads :
    Leads (Within False) halfClosedLocal fun next _ => next = .closed ∨ next = .halfClosedLocal := by
  refine leads_bind (withEndpoint_within Endpoint.halfClosedLocal_endures) fun isClosed => ?_
  refine leads_pure fun _ => ?_
  cases isClosed with
  | false => exact .inr rfl
  | true => exact .inl rfl

theorem awaitApplicationData_leads :
    Leads (Within False) awaitApplicationData fun next _ => next = .awaitApplicationData :=
  leads_bind (withEndpoint_within Endpoint.awaitApplicationData_endures) fun _ =>
    leads_pure fun _ => rfl

theorem retainHello_within {packet : Bytes} : Along (Within False) (retainHello packet) := by
  refine along_get_bind fun s => ?_
  rw [post_ite]
  refine ⟨fun _ => ?_, fun _ => .refl s⟩
  rw [post_ite]
  exact ⟨fun _ => .refl s, fun _ => ⟨rfl, .refl _⟩⟩

end Handlers

/-- A call on a server. -/
inductive Call where
  | handlePacket (packet : Bytes)
  | handleTimeout (now : Instant)
  | pollOutput (bufLen : Nat)
  | sendApplicationData (data : Bytes)
  | close

/-- The program of a call. -/
def Call.program : Call → ServerM Unit
  | .handlePacket packet => Server.handlePacket packet
  | .handleTimeout now => Server.handleTimeout now
  | .pollOutput bufLen => do
    let _ ← Server.pollOutput bufLen
  | .sendApplicationData data => Server.sendApplicationData data
  | .close => Server.close

/-- When a call is a timeout call. -/
def Call.tick : Call → Option Instant
  | .handleTimeout now => some now
  | _ => none

/-- The server after a call, whether it succeeded or not. -/
def exec (s : Server) (call : Call) : Server := finalState call.program s

/-- A server at its start. The generator may have been drawn from before. -/
inductive Start : Server → Prop where
  | fresh (config : Config) (certificate : DtlsCertificate) (rng rng' entropy : SeededRng)
      (now : Instant) (autoMode : Bool) :
      Start (newWithEngine { Engine.new config certificate rng with rng := rng' } entropy now
        autoMode)

/-- A server reached by any calls, also behind errors. -/
def Reached (s : Server) : Prop := ∃ start calls, Start start ∧ s = run exec start calls

end Server

end Dimpl.Dtls13
