import Dimpl.Dtls13.EndpointRun
import Dimpl.Dtls13.Client

/-!
# What the handlers of a client do

Where each handler leads and what it leaves alone, and the calls of a run.
-/

namespace Dimpl.Dtls13

open Nom Program

namespace Client

/-- The fields around the endpoint are open, the state stays. -/
structure Within (early busy : Prop) (c c' : Client) : Prop where
  state : c'.state = c.state
  endures : Endures early busy c.endpoint c'.endpoint

section Handlers

variable {early busy : Prop} {c : Client} {T : State → Client → Prop}

theorem Within.refl (c : Client) : Within early busy c c := ⟨rfl, .refl _⟩

instance : Std.Refl (Within early busy) := ⟨Within.refl⟩

instance : IsTrans Client (Within early busy) :=
  ⟨fun _ _ _ first second =>
    ⟨second.state.trans first.state, IsTrans.trans _ _ _ first.endures second.endures⟩⟩

theorem withEndpoint_within {α : Type} {program : EndpointM α}
    (endures : Along (Endures early busy) program) :
    Along (Within early busy) (withEndpoint program) :=
  along_zoom endures fun _ _ kept => ⟨rfl, kept⟩

theorem withEngine_within {α : Type} {program : EngineM α}
    (steady : Along (Steady early busy) program) : Along (Within early busy) (withEngine program) :=
  withEndpoint_within (Endpoint.withEngine_endures steady)

theorem withEngine_framed {α : Type} {program : EngineM α} (framed : Along (Frame busy) program) :
    Along (Within early busy) (withEngine program) :=
  withEndpoint_within (Endpoint.withEngine_framed framed)

/-- A program over the engine says what it says about the engine. -/
theorem withEngine_post {α : Type} {program : EngineM α} {Q : α → Client → Prop}
    {E : Fault → Client → Prop} :
    Post (withEngine program) c Q E ↔
      Post program c.engine
        (fun value engine => Q value { c with endpoint := { c.endpoint with engine } })
        (fun fault engine => E fault { c with endpoint := { c.endpoint with engine } }) := by
  unfold withEngine withEndpoint Endpoint.withEngine
  rw [post_zoom, post_zoom]
  rfl

/-- A change that leaves state and endpoint alone. -/
theorem modify_within {f : Client → Client} (state : ∀ c, (f c).state = c.state)
    (endures : ∀ c, Endures early busy c.endpoint (f c).endpoint) :
    Along (Within early busy) (modify f : ClientM PUnit) :=
  along_modify fun c => ⟨state c, endures c⟩

theorem advance_leads {next : State} (holds : ∀ c, T next c) :
    Leads (Within early busy) (advance next) T :=
  leads_bind (withEndpoint_within Endpoint.advance_endures) fun _ => leads_pure holds

/-- A handler of a message goes where its body goes, or stays. -/
theorem onHandshake_leads {wanted : MessageType} {stay : State}
    {handle : Body → Bytes → ClientM State} (stays : ∀ c, T stay c)
    (handles : ∀ body buffer, Leads (Within early True) (handle body buffer) T) :
    Leads (Within early True) (onHandshake wanted stay handle) T := by
  refine leads_bind (withEngine_framed nextHandshakeWithOptions_frame) fun found => ?_
  cases found with
  | none => exact leads_pure stays
  | some message => exact handles _ _

/-- Where a message of the handshake leads: the handler starts from a client that has
read it. -/
theorem onHandshake_post {wanted : MessageType} {stay : State}
    {handle : Body → Bytes → ClientM State} {Q : State → Client → Prop} {E : Client → Prop}
    (stays : Q stay c)
    (missed : ∀ engine, Missed wanted c.engine engine →
      E { c with endpoint := { c.endpoint with engine } })
    (handles : ∀ body buffer engine, Read wanted false c.engine engine body buffer →
      Post (handle body buffer) { c with endpoint := { c.endpoint with engine } } Q fun _ => E) :
    Post (onHandshake wanted stay handle) c Q fun _ => E := by
  unfold onHandshake nextHandshake
  rw [post_bind, withEngine_post]
  refine nextHandshake_read.mono ?_ fun _ e' isMissed => missed e' isMissed
  rintro found e' (⟨rfl, rfl⟩ | ⟨handshake, buffer, rfl, read⟩)
  · exact stays
  · exact handles handshake.body buffer e' read

theorem supportedGroups_frame {config : Config} : Along (Frame True) (supportedGroups config) :=
  along_ite (fun _ => along_pure) fun _ => along_throw

theorem createClientHello_frame {random : Random} {group : NamedGroup} {publicKey : Bytes}
    {cookie : Option Bytes} :
    Along (Frame True) (createClientHello random group publicKey cookie) :=
  along_bind along_get fun _ => along_bind supportedGroups_frame fun _ => along_pure

theorem keyShareGroup_within : Along (Within early busy) keyShareGroup := by
  refine along_bind along_get fun c => ?_
  split
  · exact along_pure
  · exact along_orThrow

theorem sendClientHello_leads :
    Leads (Within True True) sendClientHello fun next _ => next = .awaitServerHello := by
  refine leads_bind along_get fun c => leads_bind along_orThrow fun random => ?_
  refine leads_bind (withEndpoint_within Endpoint.flightBegin_endures) fun _ => ?_
  refine leads_bind keyShareGroup_within fun group => leads_bind along_get fun c => ?_
  refine leads_bind along_orThrow fun kx => ?_
  refine leads_bind (withEndpoint_within Endpoint.startExchange_endures) fun exchange => ?_
  refine leads_bind (modify_within (fun _ => rfl) fun _ => .refl _) fun _ => ?_
  refine leads_bind along_get fun c => ?_
  refine leads_bind (withEngine_framed (createHandshake_frame createClientHello_frame)) fun _ => ?_
  exact leads_pure fun _ => rfl

/-- Where a ServerHello leads. -/
def AfterHello (next : State) (c : Client) : Prop :=
  next = .awaitServerHello ∨ next = .sendClientHello ∨
    (next = .awaitEncryptedExtensions ∧ c.engine.cipherSuite.isSome = true)

theorem readRetryExtensions_within {buffer : Bytes} {extensions : List Extension} :
    Along (Within early busy) (readRetryExtensions buffer extensions) := by
  induction extensions with
  | nil => exact along_pure
  | cons ext rest inductionHypothesis =>
      refine along_ite (fun _ => ?_) fun _ => along_ite (fun _ => ?_) fun _ => inductionHypothesis
      · exact along_bind (modify_within (fun _ => rfl) fun _ => .refl _) fun _ => inductionHypothesis
      · split
        · exact along_throw
        · exact along_bind (modify_within (fun _ => rfl) fun _ => .refl _) fun _ =>
            inductionHypothesis

theorem handleHelloRetryRequest_leads {lengthBefore : Nat} {hello : ServerHello} {buffer : Bytes} :
    Leads (Within True True) (handleHelloRetryRequest lengthBefore hello buffer) AfterHello := by
  refine leads_bind along_get fun c => leads_ite (fun _ => ?_) fun _ => ?_
  · refine leads_bind (withEngine_within (along_modify fun _ => ?_)) fun _ =>
      leads_pure fun _ => .inl rfl
    exact .of_early trivial rfl rfl rfl rfl id
  · refine leads_bind readRetryExtensions_within fun _ => leads_bind along_get fun c => ?_
    refine leads_ite (fun _ => leads_throw) fun _ => ?_
    refine leads_bind (withEngine_within setCipherSuite_steady) fun _ => ?_
    refine leads_ite (fun _ => leads_throw) fun _ => ?_
    refine leads_bind (withEngine_within (replaceTranscriptWithMessageHash_steady trivial))
      fun _ => ?_
    refine leads_bind (withEndpoint_within Endpoint.advance_endures) fun _ => ?_
    refine leads_bind (withEngine_within (along_modify fun _ => ?_)) fun _ => ?_
    · exact .of_early trivial rfl rfl rfl rfl id
    · refine leads_bind (modify_within (fun _ => rfl) fun c => ?_) fun _ =>
        leads_pure fun _ => .inr (.inl rfl)
      exact ⟨.refl _, rfl, id, rfl, fun _ => ⟨rfl, rfl⟩⟩

theorem completeExchange_within {group : NamedGroup} {publicKey : Bytes} :
    Along (Within early busy) (completeExchange group publicKey) := by
  refine along_get_bind fun c => ?_
  rw [post_bind, post_orThrow]
  refine ⟨fun exchange _ => ?_, fun _ => .refl c⟩
  rw [post_bind, post_set]
  exact (along_ite (fun _ => along_throw) fun _ => along_liftCrypto).after (s := c) ⟨rfl, .refl _⟩

/-- The keys of the handshake are installed with the suite known. -/
theorem installSecrets_leads {sharedSecret : Bytes} (c : Client)
    (known : c.engine.cipherSuite.isSome = true) :
    Post (do
        withEndpoint (Endpoint.installHandshakeSecrets sharedSecret)
        withEngine enablePeerEncryption
        advance .awaitEncryptedExtensions) c
      (fun next c' => Within True True c c' ∧ AfterHello next c')
      (fun _ c' => Within True True c c') := by
  have installed : Leads (Within True True) (do
      withEndpoint (Endpoint.installHandshakeSecrets sharedSecret)
      withEngine enablePeerEncryption
      advance .awaitEncryptedExtensions) fun next _ => next = .awaitEncryptedExtensions := by
    refine leads_bind (withEndpoint_within (Endpoint.installHandshakeSecrets_endures trivial))
      fun _ => ?_
    exact leads_bind (withEngine_framed enablePeerEncryption_frame) fun _ =>
      advance_leads fun _ => rfl
  refine (installed c).mono ?_ fun _ _ within => within
  rintro next c' ⟨within, rfl⟩
  exact ⟨within, .inr (.inr ⟨rfl, within.endures.engine.known known⟩)⟩

theorem handleServerHello_leads {hello : ServerHello} {buffer : Bytes} :
    Leads (Within True True) (handleServerHello hello buffer) AfterHello := by
  intro c
  unfold handleServerHello
  rw [post_bind, post_get]
  split
  · exact .refl c
  · rw [post_bind]
    -- The suite is set first; nothing behind it takes it back.
    have set : Post (withEngine (modify (Engine.setCipherSuite hello.cipherSuite))) c
        (fun _ c' => Within True True c c' ∧ c'.engine.cipherSuite.isSome = true)
        (fun _ c' => Within True True c c') :=
      ⟨withEngine_within setCipherSuite_steady c, rfl⟩
    refine set.mono (fun _ c₁ moved => ?_) fun _ _ moved => moved
    rw [post_bind, post_modify]
    have kept : Within True True c { c₁ with sessionId := some hello.legacySessionId } :=
      ⟨moved.1.state, moved.1.endures⟩
    split
    · exact kept
    · split
      · exact kept
      · exact kept
      · rw [post_bind]
        refine (completeExchange_within _).mono
          (fun sharedSecret c₂ (within : Within True True _ c₂) => ?_)
          fun _ _ within => IsTrans.trans _ _ _ kept within
        have known : c₂.engine.cipherSuite.isSome = true := within.endures.engine.known moved.2
        have total := IsTrans.trans _ _ _ kept within
        exact (installSecrets_leads c₂ known).mono
          (fun _ _ done => ⟨IsTrans.trans _ _ _ total done.1, done.2⟩)
          fun _ _ within => IsTrans.trans _ _ _ total within

theorem awaitServerHello_leads : Leads (Within True True) awaitServerHello AfterHello := by
  refine leads_bind along_get fun c => onHandshake_leads (fun _ => .inl rfl) fun body buffer => ?_
  split
  · exact leads_ite (fun _ => handleHelloRetryRequest_leads) fun _ => handleServerHello_leads
  · exact leads_throw

theorem readEncryptedExtensions_within {buffer : Bytes} {extensions : List Extension} :
    Along (Within early busy) (readEncryptedExtensions buffer extensions) := by
  induction extensions with
  | nil => exact along_pure
  | cons ext rest inductionHypothesis =>
      refine along_ite (fun _ => ?_) fun _ => inductionHypothesis
      split
      · exact along_throw
      · refine along_bind (withEndpoint_within (along_modify fun p => ?_)) fun _ =>
          inductionHypothesis
        exact ⟨.refl _, rfl, id, rfl, fun _ => ⟨rfl, rfl⟩⟩

theorem awaitEncryptedExtensions_leads :
    Leads (Within False True) awaitEncryptedExtensions fun next _ =>
      next = .awaitEncryptedExtensions ∨ next = .awaitCertificateRequest := by
  refine onHandshake_leads (fun _ => .inl rfl) fun body buffer => ?_
  split
  · refine leads_bind readEncryptedExtensions_within fun _ => ?_
    exact advance_leads fun _ => .inr rfl
  · exact leads_throw

theorem sendCertificate_leads :
    Leads (Within False True) sendCertificate fun next _ =>
      next = .sendCertificateVerify ∨ next = .sendFinished := by
  refine leads_bind (withEndpoint_within Endpoint.flightBegin_endures) fun _ => ?_
  refine leads_bind along_get fun c => leads_bind along_get fun c => ?_
  refine leads_ite (fun _ => ?_) fun _ => ?_
  · exact leads_bind (withEngine_framed (createHandshake_frame along_pure)) fun _ =>
      leads_pure fun _ => .inr rfl
  · exact leads_bind (withEngine_framed (createHandshake_frame createCertificate_frame)) fun _ =>
      leads_pure fun _ => .inl rfl

theorem sendCertificateVerify_leads :
    Leads (Within False True) sendCertificateVerify fun next _ => next = .sendFinished :=
  leads_bind (withEngine_framed (createHandshake_frame createCertificateVerify_frame)) fun _ =>
    leads_pure fun _ => rfl

theorem awaitApplicationData_leads :
    Leads (Within False True) awaitApplicationData fun next _ => next = .awaitApplicationData :=
  leads_bind (withEndpoint_within Endpoint.awaitApplicationData_endures) fun _ =>
    leads_pure fun _ => rfl

theorem halfClosedLocal_leads :
    Leads (Within False True) halfClosedLocal fun next _ =>
      next = .closed ∨ next = .halfClosedLocal := by
  refine leads_bind (withEndpoint_within Endpoint.halfClosedLocal_endures) fun isClosed => ?_
  refine leads_pure fun _ => ?_
  cases isClosed with
  | false => exact .inr rfl
  | true => exact .inl rfl

end Handlers

/-- A call on a client. -/
inductive Call where
  | handlePacket (packet : Bytes)
  | handleTimeout (now : Instant)
  | pollOutput (bufLen : Nat)
  | sendApplicationData (data : Bytes)
  | close

/-- The program of a call. -/
def Call.program : Call → ClientM Unit
  | .handlePacket packet => Client.handlePacket packet
  | .handleTimeout now => Client.handleTimeout now
  | .pollOutput bufLen => do
    let _ ← Client.pollOutput bufLen
  | .sendApplicationData data => Client.sendApplicationData data
  | .close => Client.close

/-- When a call is a timeout call. -/
def Call.tick : Call → Option Instant
  | .handleTimeout now => some now
  | _ => none

/-- The client after a call, whether it succeeded or not. -/
def exec (c : Client) (call : Call) : Client := finalState call.program c

/-- A client at its start, with a hello of its own or one that was sent for it. The
generator may have been drawn from before. -/
inductive Start : Client → Prop where
  | fresh (config : Config) (certificate : DtlsCertificate) (rng rng' entropy : SeededRng)
      (now : Instant) :
      Start (newWithEngine { Engine.new config certificate rng with rng := rng' } entropy now)
  | hybrid (random : Random) (transcriptBytes : Bytes) (exchange : ActiveKeyExchange)
      (config : Config) (certificate : DtlsCertificate) (rng rng' entropy : SeededRng)
      (now : Instant) :
      Start (newFromHybrid random transcriptBytes exchange
        { Engine.new config certificate rng with rng := rng' } entropy now)

/-- A client reached by any calls, also behind errors. -/
def Reached (c : Client) : Prop := ∃ start calls, Start start ∧ c = run exec start calls

theorem Reached.run {c : Client} (reached : Reached c) (calls : List Call) :
    Reached (Program.run exec c calls) := by
  obtain ⟨start, before, isStart, rfl⟩ := reached
  exact ⟨start, before ++ calls, isStart, List.foldl_append.symm⟩

end Client

end Dimpl.Dtls13
