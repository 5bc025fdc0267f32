import Dimpl.Dtls13.ClientRun
import Dimpl.Dtls13.ServerRun

/-!
# What handlers do to their engine

A handler of a client or a server touches its engine only through the functions of the
engine. What they all keep, every handler keeps.
-/

set_option linter.unusedSectionVars false

namespace Dimpl.Dtls13

open Nom Program

/-- The functions of the engine that handlers behind the handshake call move it along a relation;
taking the mark of the AEAD limit is left out. -/
structure Converses (R : Engine → Engine → Prop) : Prop where
  nextHandshake : ∀ {wanted withTranscript allowUnknown},
    Along R (nextHandshakeWithOptions wanted withTranscript allowUnknown)
  advance : ∀ e : Engine, R e e.advancePeerHandshakeSeq
  sendData : ∀ {epoch data}, Along R (createCiphertextRecord .applicationData epoch false data)
  sendAck : Along R sendAck
  createKeyUpdate : ∀ {request}, Along R (createKeyUpdate request)
  updateRecvKeys : Along R updateRecvKeys

/-- The functions of the engine that handlers call behind the hellos move it along a relation; taking
the mark of the AEAD limit is left out. -/
structure Exchanges (R : Engine → Engine → Prop) : Prop extends Converses R where
  flightBegin : ∀ e : Engine, R e e.flightBegin
  flightStop : ∀ e : Engine, R e e.flightStopResendTimers
  createHandshake : ∀ {type build}, ReadOnly build → Along R (createHandshake type build)
  setCipherSuite : ∀ (e : Engine) suite, R e (e.setCipherSuite suite)
  enablePeerEncryption : Along R enablePeerEncryption
  installHandshakeKeys : ∀ {client server}, Along R (installHandshakeKeys client server)
  deriveApplicationSecrets : ∀ {secret}, Along R (deriveApplicationSecrets secret)
  installApplicationKeys : ∀ {client server}, Along R (installApplicationKeys client server)
  release : ∀ e : Engine, R e e.releaseApplicationData

/-- The functions of the engine that handlers of hellos call before there are keys move it along a
relation. -/
structure Greets (R : Engine → Engine → Prop) : Prop where
  nextHandshake : ∀ {wanted withTranscript allowUnknown},
    Along R (nextHandshakeWithOptions wanted withTranscript allowUnknown)
  advance : ∀ e : Engine, R e e.advancePeerHandshakeSeq
  flightBegin : ∀ e : Engine, R e e.flightBegin
  createHandshake : ∀ {type build}, ReadOnly build → Along R (createHandshake type build)
  truncate : ∀ (e : Engine) length, R e (e.truncateTranscript length)
  setCipherSuite : ∀ (e : Engine) suite, R e (e.setCipherSuite suite)
  replaceTranscript : ∀ {splitAt}, Along R (replaceTranscriptWithMessageHash splitAt)
  resetForHelloRetry : ∀ e : Engine, R e e.resetForHelloRetry

/-- The functions of the engine that handlers call move it along a relation; taking the mark of
the AEAD limit is left out. -/
structure Handles (R : Engine → Engine → Prop) : Prop extends Exchanges R, Greets R

/-- The functions of the engine that handlers call move it along a relation. -/
structure Conduct (R : Engine → Engine → Prop) : Prop extends Handles R where
  needsKeyUpdate : ∀ e : Engine, R e { e with needsKeyUpdate := false }

/-- The functions of the engine that calls without handlers make move it along a relation. -/
structure Idles (R : Engine → Engine → Prop) : Prop where
  sendData : ∀ {epoch data}, Along R (createCiphertextRecord .applicationData epoch false data)
  pollOutput : ∀ {bufLen now}, Along R (Engine.pollOutput bufLen now)
  sendAlert : ∀ {epoch data}, Along R (createCiphertextRecord .alert epoch false data)
  cancelFlights : ∀ e : Engine, R e e.cancelFlights
  abort : ∀ e : Engine, R e e.abort

/-- The functions of the engine that calls make outside `make_progress` move it along a relation;
timeouts are left out. -/
structure Serves (R : Engine → Engine → Prop) : Prop extends Handles R, Idles R where
  receivePacket : ∀ {datagram}, Along R (receivePacket datagram)

/-- The functions of the engine that calls other than a timeout make move it along a
relation. -/
structure Conducts (R : Engine → Engine → Prop) : Prop extends Conduct R, Serves R

/-- The time of the last timeout call and the engine. -/
def Endpoint.stamped (p : Endpoint) : Instant × Engine := (p.lastNow, p.engine)

/-- The time of the last timeout call and the engine. -/
def Client.stamped (c : Client) : Instant × Engine := c.endpoint.stamped

/-- The time of the last timeout call and the engine. -/
def Server.stamped (s : Server) : Instant × Engine := s.endpoint.stamped

/-- The engine moves along a relation and the time stands. -/
def Conducted (R : Engine → Engine → Prop) (s s' : Instant × Engine) : Prop :=
  s'.1 = s.1 ∧ R s.2 s'.2

instance {R : Engine → Engine → Prop} [Std.Refl R] : Std.Refl (Conducted R) :=
  ⟨fun s => ⟨rfl, Std.Refl.refl s.2⟩⟩

instance {R : Engine → Engine → Prop} [IsTrans Engine R] : IsTrans (Instant × Engine) (Conducted R) :=
  ⟨fun _ _ _ first second => ⟨second.1.trans first.1, IsTrans.trans _ _ _ first.2 second.2⟩⟩

theorem supportedGroups_readOnly {config : Config} : ReadOnly (supportedGroups config) :=
  along_ite (fun _ => along_pure) fun _ => along_throw

theorem createCertificate_readOnly {context : Bytes} : ReadOnly (createCertificate context) :=
  along_bind along_get fun _ => along_pure

theorem createCertificateVerify_readOnly {label : String} :
    ReadOnly (createCertificateVerify label) := by
  refine along_bind transcriptHash_readOnly fun _ => along_bind along_get fun e => ?_
  exact along_bind along_liftCrypto fun _ => along_bind along_orThrow fun _ => along_pure

/-- Whether a call runs no handler. -/
def Client.Call.isIdle : Client.Call → Bool
  | .handlePacket _ | .handleTimeout _ => false
  | _ => true

/-- Whether a call runs no handler. -/
def Server.Call.isIdle : Server.Call → Bool
  | .handlePacket _ | .handleTimeout _ => false
  | _ => true

section Endpoints

variable {R : Engine → Engine → Prop} [Std.Refl R] [IsTrans Engine R]

namespace Endpoint

theorem withEngine_conduct {α : Type} {program : EngineM α} (along : Along R program) :
    Along (InvImage (Conducted R) Endpoint.stamped) (withEngine program) :=
  along_zoom along fun _ _ moved => ⟨rfl, moved⟩

/-- A change of other fields. -/
theorem modify_conduct {f : Endpoint → Endpoint} (same : ∀ p, (f p).stamped = p.stamped) :
    Along (InvImage (Conducted R) Endpoint.stamped) (modify f : EndpointM PUnit) := by
  refine along_modify fun p => ?_
  unfold InvImage
  rw [same]
  exact Std.Refl.refl _

theorem pushEvent_conduct {event : LocalEvent} :
    Along (InvImage (Conducted R) Endpoint.stamped) (pushEvent event) :=
  modify_conduct fun _ => rfl

theorem logCheck_conduct {check : Check} : Along (InvImage (Conducted R) Endpoint.stamped) (logCheck check) :=
  modify_conduct fun _ => rfl

theorem startExchange_conduct {kx : SupportedKxGroup} :
    Along (InvImage (Conducted R) Endpoint.stamped) (startExchange kx) := by
  refine along_get_bind fun p => ?_
  dsimp only
  rw [post_bind, post_set]
  have unchanged : InvImage (Conducted R) Endpoint.stamped p
      { p with entropy := (p.entropy.random (2 ^ 64)).2 } := Std.Refl.refl p.stamped
  exact along_liftCrypto.after unchanged

section Conversation

variable (talks : Converses R)

include talks

theorem advance_conduct :
    Along (InvImage (Conducted R) Endpoint.stamped) (withEngine (modify Engine.advancePeerHandshakeSeq)) :=
  withEngine_conduct (along_modify talks.advance)

theorem sendQueued_conduct {epoch : Nat} {queued : List Bytes} : Along R (sendQueued epoch queued) := by
  induction queued with
  | nil => exact along_pure
  | cons data rest inductionHypothesis =>
      exact along_bind talks.sendData fun _ => inductionHypothesis

theorem onKeyUpdate_conduct {handle : KeyUpdateRequest → EndpointM Unit}
    (handles : ∀ request, Along (InvImage (Conducted R) Endpoint.stamped) (handle request)) :
    Along (InvImage (Conducted R) Endpoint.stamped) (onKeyUpdate handle) := by
  refine along_bind (withEngine_conduct talks.nextHandshake) fun found => ?_
  cases found with
  | none => exact along_pure
  | some message =>
      obtain ⟨handshake, buffer⟩ := message
      dsimp only
      split
      · exact handles _
      · exact along_throw

/-- What follows the KeyUpdate that the AEAD limit asks for. -/
theorem sendAndReceive_conduct :
    Along (InvImage (Conducted R) Endpoint.stamped)
      (do sendQueuedData; answerKeyUpdate; onKeyUpdate receiveKeyUpdate) := by
  have sent : Along (InvImage (Conducted R) Endpoint.stamped) sendQueuedData := by
    refine along_get_bind fun p => ?_
    rw [post_bind, post_set]
    have unchanged : InvImage (Conducted R) Endpoint.stamped p { p with queuedData := [] } :=
      Std.Refl.refl p.stamped
    exact (withEngine_conduct (sendQueued_conduct talks)).after unchanged
  have answered : Along (InvImage (Conducted R) Endpoint.stamped) answerKeyUpdate := by
    refine along_bind along_get fun p => along_ite (fun _ => ?_) fun _ => along_pure
    refine along_bind (withEngine_conduct talks.createKeyUpdate) fun _ => ?_
    exact modify_conduct fun _ => rfl
  refine along_bind sent fun _ => along_bind answered fun _ => ?_
  refine onKeyUpdate_conduct talks fun request => ?_
  refine along_bind (withEngine_conduct talks.updateRecvKeys) fun _ => ?_
  refine along_bind (withEngine_conduct talks.sendAck) fun _ => ?_
  exact along_bind (modify_conduct fun _ => rfl) fun _ => advance_conduct talks

theorem halfClosedLocal_conduct : Along (InvImage (Conducted R) Endpoint.stamped) halfClosedLocal := by
  refine along_bind (onKeyUpdate_conduct talks fun _ => ?_) fun _ =>
    along_bind along_get fun _ => along_pure
  exact along_bind (withEngine_conduct talks.updateRecvKeys) fun _ => advance_conduct talks

end Conversation

variable (conduct : Exchanges R)

include conduct

theorem installHandshakeSecrets_conduct {sharedSecret : Bytes} :
    Along (InvImage (Conducted R) Endpoint.stamped) (installHandshakeSecrets sharedSecret) := by
  refine along_bind (withEngine_conduct deriveHandshakeSecrets_readOnly.along) fun secrets => ?_
  refine along_bind (modify_conduct fun _ => rfl) fun _ => ?_
  exact withEngine_conduct conduct.installHandshakeKeys

theorem installApplicationSecrets_conduct :
    Along (InvImage (Conducted R) Endpoint.stamped) installApplicationSecrets := by
  refine along_bind along_get fun p => along_bind along_orThrow fun _ => ?_
  refine along_bind (withEngine_conduct conduct.deriveApplicationSecrets) fun _ => ?_
  exact withEngine_conduct conduct.installApplicationKeys

omit conduct in
theorem takeCertificates_conduct {certificate : Certificate} {buffer : Bytes} :
    Along (InvImage (Conducted R) Endpoint.stamped) (takeCertificates certificate buffer) := by
  refine along_bind (modify_conduct fun _ => rfl) fun _ => along_bind logCheck_conduct fun _ => ?_
  refine along_bind along_get fun p => ?_
  exact along_ite (fun _ => along_pure) fun _ => pushEvent_conduct

theorem checkCertificateVerify_conduct {label : String} {missing : CertificateError}
    {transcript transcriptHash : Bytes} {signed : DigitallySigned} {buffer : Bytes} :
    Along (InvImage (Conducted R) Endpoint.stamped)
      (checkCertificateVerify label missing transcript transcriptHash signed buffer) := by
  refine along_bind along_get fun p => ?_
  dsimp only
  split
  · exact along_throw
  · refine along_bind (withEngine_conduct verifySignature_readOnly.along) fun _ => ?_
    exact along_bind logCheck_conduct fun _ => advance_conduct conduct.toConverses

theorem checkFinished_conduct {failed : SecurityError} {transcript expected verifyData : Bytes} :
    Along (InvImage (Conducted R) Endpoint.stamped) (checkFinished failed transcript expected verifyData) :=
  along_ite (fun _ => along_throw) fun _ =>
    along_bind logCheck_conduct fun _ => advance_conduct conduct.toConverses

omit conduct in
theorem emitKeyingMaterial_conduct : Along (InvImage (Conducted R) Endpoint.stamped) emitKeyingMaterial := by
  refine along_bind along_get fun p => ?_
  split
  · exact along_pure
  · split
    · exact pushEvent_conduct
    · exact along_throw
    · exact along_pure

theorem completeHandshake_conduct : Along (InvImage (Conducted R) Endpoint.stamped) completeHandshake := by
  refine along_bind pushEvent_conduct fun _ => along_bind emitKeyingMaterial_conduct fun _ => ?_
  exact withEngine_conduct (along_modify conduct.release)

omit conduct in
theorem awaitApplicationData_conduct (talks : Converses R)
    (needsUpdate : ∀ e : Engine, R e { e with needsKeyUpdate := false }) :
    Along (InvImage (Conducted R) Endpoint.stamped) awaitApplicationData := by
  have flagged : Along (InvImage (Conducted R) Endpoint.stamped) (withEngine needsKeyUpdate) := by
    refine withEngine_conduct (along_get_bind fun e => ?_)
    rw [post_bind, post_set]
    exact needsUpdate e
  have initiated : Along (InvImage (Conducted R) Endpoint.stamped) initiateKeyUpdate := by
    refine along_bind flagged fun _ => along_bind along_get fun p => ?_
    exact withEngine_conduct (along_runIf fun _ => talks.createKeyUpdate)
  exact along_bind initiated fun _ => sendAndReceive_conduct talks

omit conduct in
theorem pollOutput_conduct (conducts : Idles R) {bufLen : Nat} :
    Along (InvImage (Conducted R) Endpoint.stamped) (pollOutput bufLen) := by
  refine along_get_bind fun p => ?_
  split
  · rename_i event rest queued
    have unchanged : InvImage (Conducted R) Endpoint.stamped p { p with localEvents := rest } :=
      Std.Refl.refl p.stamped
    rw [post_bind, post_set]
    exact intoOutput_readOnly.along.after unchanged
  · exact withEngine_conduct conducts.pollOutput p

omit conduct in
theorem closeWrite_conduct (conducts : Idles R) :
    Along (InvImage (Conducted R) Endpoint.stamped) closeWrite := by
  refine along_bind along_get fun p => along_bind (withEngine_conduct conducts.sendAlert) fun _ => ?_
  exact withEngine_conduct (along_modify conducts.cancelFlights)

end Endpoint

namespace Client

theorem withEndpoint_conduct {α : Type} {program : EndpointM α}
    (along : Along (InvImage (Conducted R) Endpoint.stamped) program) :
    Along (InvImage (Conducted R) Client.stamped) (withEndpoint program) :=
  along_zoom along fun _ _ moved => moved

theorem withEngine_conduct {α : Type} {program : EngineM α} (along : Along R program) :
    Along (InvImage (Conducted R) Client.stamped) (withEngine program) :=
  withEndpoint_conduct (Endpoint.withEngine_conduct along)

theorem modify_conduct {f : Client → Client} (same : ∀ c, (f c).stamped = c.stamped) :
    Along (InvImage (Conducted R) Client.stamped) (modify f : ClientM PUnit) := by
  refine along_modify fun c => ?_
  unfold InvImage
  rw [same]
  exact Std.Refl.refl _

theorem createClientHello_readOnly {random : Random} {group : NamedGroup} {publicKey : Bytes}
    {cookie : Option Bytes} : ReadOnly (createClientHello random group publicKey cookie) :=
  along_bind along_get fun _ => along_bind supportedGroups_readOnly fun _ => along_pure

theorem readRetryExtensions_conduct {buffer : Bytes} {extensions : List Extension} :
    Along (InvImage (Conducted R) Client.stamped) (readRetryExtensions buffer extensions) := by
  induction extensions with
  | nil => exact along_pure
  | cons ext rest inductionHypothesis =>
      refine along_ite (fun _ => ?_) fun _ => along_ite (fun _ => ?_) fun _ => inductionHypothesis
      · exact along_bind (modify_conduct fun _ => rfl) fun _ => inductionHypothesis
      · split
        · exact along_throw
        · exact along_bind (modify_conduct fun _ => rfl) fun _ => inductionHypothesis

theorem readEncryptedExtensions_conduct {buffer : Bytes} {extensions : List Extension} :
    Along (InvImage (Conducted R) Client.stamped) (readEncryptedExtensions buffer extensions) := by
  induction extensions with
  | nil => exact along_pure
  | cons ext rest inductionHypothesis =>
      refine along_ite (fun _ => ?_) fun _ => inductionHypothesis
      split
      · exact along_throw
      · exact along_bind (withEndpoint_conduct (Endpoint.modify_conduct fun _ => rfl)) fun _ =>
          inductionHypothesis

theorem completeExchange_conduct {group : NamedGroup} {publicKey : Bytes} :
    Along (InvImage (Conducted R) Client.stamped) (completeExchange group publicKey) := by
  refine along_get_bind fun c => ?_
  rw [post_bind, post_orThrow]
  have unchanged : InvImage (Conducted R) Client.stamped c { c with activeKeyExchange := none } :=
    Std.Refl.refl c.stamped
  refine ⟨fun exchange _ => ?_, fun _ => Std.Refl.refl c.stamped⟩
  rw [post_bind, post_set]
  exact (along_ite (fun _ => along_throw) fun _ => along_liftCrypto).after unchanged

variable (conduct : Exchanges R)

include conduct

theorem advance_conduct {next : State} : Along (InvImage (Conducted R) Client.stamped) (advance next) :=
  along_bind (withEngine_conduct (along_modify conduct.advance)) fun _ => along_pure

omit conduct in
theorem onHandshake_conduct {wanted : MessageType} {stay : State}
    {handle : Body → Bytes → ClientM State} (reads : Along R (nextHandshake wanted))
    (handles : ∀ body buffer, Along (InvImage (Conducted R) Client.stamped) (handle body buffer)) :
    Along (InvImage (Conducted R) Client.stamped) (onHandshake wanted stay handle) := by
  refine along_bind (withEngine_conduct reads) fun found => ?_
  cases found with
  | none => exact along_pure
  | some message => exact handles _ _

omit conduct in
theorem sendClientHello_conduct (conduct : Greets R) :
    Along (InvImage (Conducted R) Client.stamped) sendClientHello := by
  refine along_bind along_get fun c => along_bind along_orThrow fun random => ?_
  refine along_bind (withEngine_conduct (along_modify conduct.flightBegin)) fun _ => ?_
  refine along_bind ?_ fun group => along_bind along_get fun c => ?_
  · refine along_bind along_get fun c => ?_
    split
    · exact along_pure
    · exact along_orThrow
  · refine along_bind along_orThrow fun kx => ?_
    refine along_bind (withEndpoint_conduct Endpoint.startExchange_conduct) fun exchange => ?_
    refine along_bind (modify_conduct fun _ => rfl) fun _ => along_bind along_get fun c => ?_
    refine along_bind (withEngine_conduct (conduct.createHandshake createClientHello_readOnly))
      fun _ => along_pure

omit conduct in
theorem handleHelloRetryRequest_conduct (conduct : Greets R) {lengthBefore : Nat} {hello : ServerHello}
    {buffer : Bytes} :
    Along (InvImage (Conducted R) Client.stamped) (handleHelloRetryRequest lengthBefore hello buffer) := by
  refine along_bind along_get fun c => along_ite (fun _ => ?_) fun _ => ?_
  · exact along_bind (withEngine_conduct (along_modify fun e => conduct.truncate e _)) fun _ =>
      along_pure
  · refine along_bind readRetryExtensions_conduct fun _ => along_bind along_get fun c => ?_
    refine along_ite (fun _ => along_throw) fun _ => ?_
    refine along_bind (withEngine_conduct (along_modify fun e => conduct.setCipherSuite e _))
      fun _ => ?_
    refine along_ite (fun _ => along_throw) fun _ => ?_
    refine along_bind (withEngine_conduct conduct.replaceTranscript) fun _ => ?_
    refine along_bind (withEngine_conduct (along_modify conduct.advance)) fun _ => ?_
    refine along_bind (withEngine_conduct (along_modify conduct.resetForHelloRetry)) fun _ => ?_
    exact along_bind (modify_conduct fun _ => rfl) fun _ => along_pure

theorem handleServerHello_conduct {hello : ServerHello} {buffer : Bytes} :
    Along (InvImage (Conducted R) Client.stamped) (handleServerHello hello buffer) := by
  refine along_bind along_get fun c => ?_
  split
  · exact along_throw
  · refine along_bind (withEngine_conduct (along_modify fun e => conduct.setCipherSuite e _))
      fun _ => ?_
    refine along_bind (modify_conduct fun _ => rfl) fun _ => ?_
    split
    · exact along_throw
    · split
      · exact along_throw
      · exact along_throw
      · refine along_bind completeExchange_conduct fun sharedSecret => ?_
        refine along_bind
          (withEndpoint_conduct (Endpoint.installHandshakeSecrets_conduct conduct)) fun _ => ?_
        refine along_bind (withEngine_conduct conduct.enablePeerEncryption) fun _ => ?_
        exact advance_conduct conduct

omit conduct in
theorem awaitServerHello_conduct (conduct : Handles R) :
    Along (InvImage (Conducted R) Client.stamped) awaitServerHello := by
  refine along_bind along_get fun c => onHandshake_conduct conduct.nextHandshake fun body buffer => ?_
  split
  · exact along_ite (fun _ => handleHelloRetryRequest_conduct conduct.toGreets) fun _ =>
      handleServerHello_conduct conduct.toExchanges
  · exact along_throw

theorem awaitEncryptedExtensions_conduct :
    Along (InvImage (Conducted R) Client.stamped) awaitEncryptedExtensions := by
  refine onHandshake_conduct conduct.nextHandshake fun body buffer => ?_
  split
  · exact along_bind readEncryptedExtensions_conduct fun _ => advance_conduct conduct
  · exact along_throw

theorem awaitCertificateRequest_conduct :
    Along (InvImage (Conducted R) Client.stamped) awaitCertificateRequest := by
  refine along_bind along_get fun c => along_ite (fun _ => along_pure) fun _ => ?_
  refine onHandshake_conduct conduct.nextHandshake fun body buffer => ?_
  split
  · split
    · exact along_throw
    · exact along_bind (modify_conduct fun _ => rfl) fun _ => advance_conduct conduct
  · exact along_throw

theorem awaitCertificate_conduct : Along (InvImage (Conducted R) Client.stamped) awaitCertificate := by
  refine onHandshake_conduct conduct.nextHandshake fun body buffer => ?_
  split
  · refine along_ite (fun _ => along_throw) fun _ => along_ite (fun _ => along_throw) fun _ => ?_
    refine along_bind (withEndpoint_conduct Endpoint.takeCertificates_conduct) fun _ => ?_
    exact advance_conduct conduct
  · exact along_throw

theorem awaitCertificateVerify_conduct :
    Along (InvImage (Conducted R) Client.stamped) awaitCertificateVerify := by
  refine along_bind along_get fun c => ?_
  refine along_bind (withEngine_conduct transcriptHash_readOnly.along) fun _ => ?_
  refine onHandshake_conduct conduct.nextHandshake fun body buffer => ?_
  split
  · exact along_bind
      (withEndpoint_conduct (Endpoint.checkCertificateVerify_conduct conduct)) fun _ => along_pure
  · exact along_throw

theorem awaitFinished_conduct : Along (InvImage (Conducted R) Client.stamped) awaitFinished := by
  refine along_bind along_get fun c => along_bind along_get fun c => ?_
  refine along_bind along_orThrow fun secret => ?_
  refine along_bind (withEngine_conduct computeVerifyData_readOnly.along) fun _ => ?_
  refine onHandshake_conduct conduct.nextHandshake fun body buffer => ?_
  split
  · refine along_bind (withEndpoint_conduct (Endpoint.checkFinished_conduct conduct)) fun _ => ?_
    refine along_bind (withEndpoint_conduct (Endpoint.installApplicationSecrets_conduct conduct))
      fun _ => ?_
    exact along_bind along_get fun _ => along_pure
  · exact along_throw

theorem sendCertificate_conduct : Along (InvImage (Conducted R) Client.stamped) sendCertificate := by
  refine along_bind (withEngine_conduct (along_modify conduct.flightBegin)) fun _ => ?_
  refine along_bind along_get fun c => along_bind along_get fun c => along_ite (fun _ => ?_) fun _ => ?_
  · exact along_bind (withEngine_conduct (conduct.createHandshake along_pure)) fun _ => along_pure
  · exact along_bind (withEngine_conduct (conduct.createHandshake createCertificate_readOnly))
      fun _ => along_pure

theorem sendCertificateVerify_conduct :
    Along (InvImage (Conducted R) Client.stamped) sendCertificateVerify :=
  along_bind (withEngine_conduct (conduct.createHandshake createCertificateVerify_readOnly))
    fun _ => along_pure

theorem sendFinished_conduct : Along (InvImage (Conducted R) Client.stamped) sendFinished := by
  refine along_bind along_get fun c => ?_
  refine along_bind (withEngine_conduct (along_runIf fun _ => along_modify conduct.flightBegin))
    fun _ => ?_
  refine along_bind along_get fun c => along_bind along_orThrow fun secret => ?_
  refine along_bind (withEngine_conduct (conduct.createHandshake computeVerifyData_readOnly))
    fun _ => ?_
  exact along_bind (withEndpoint_conduct (Endpoint.completeHandshake_conduct conduct)) fun _ =>
    along_pure

/-- Whether a handler waits for an answer to the hello of the client or sends it. -/
def State.greeting : State → Bool
  | .sendClientHello | .awaitServerHello => true
  | _ => false

/-- Every handler of a client but those of the hellos and that of application data. -/
theorem handlers_behind {state : State} (late : state.greeting = false)
    (other : state ≠ .awaitApplicationData) :
    Along (InvImage (Conducted R) Client.stamped) state.makeProgress := by
  cases state with
  | sendClientHello => cases late
  | awaitServerHello => cases late
  | awaitEncryptedExtensions => exact awaitEncryptedExtensions_conduct conduct
  | awaitCertificateRequest => exact awaitCertificateRequest_conduct conduct
  | awaitCertificate => exact awaitCertificate_conduct conduct
  | awaitCertificateVerify => exact awaitCertificateVerify_conduct conduct
  | awaitFinished => exact awaitFinished_conduct conduct
  | sendCertificate => exact sendCertificate_conduct conduct
  | sendCertificateVerify => exact sendCertificateVerify_conduct conduct
  | sendFinished => exact sendFinished_conduct conduct
  | awaitApplicationData => exact absurd rfl other
  | halfClosedLocal =>
      exact along_bind (withEndpoint_conduct (Endpoint.halfClosedLocal_conduct conduct.toConverses))
        fun _ => along_pure
  | closed => exact along_pure

omit conduct in
/-- Every handler of a client but that of application data. -/
theorem handlers_other (conduct : Handles R) {state : State} (other : state ≠ .awaitApplicationData) :
    Along (InvImage (Conducted R) Client.stamped) state.makeProgress := by
  cases isGreeting : state.greeting with
  | false => exact handlers_behind conduct.toExchanges isGreeting other
  | true =>
      cases state with
      | sendClientHello => exact sendClientHello_conduct conduct.toGreets
      | awaitServerHello => exact awaitServerHello_conduct conduct
      | _ => cases isGreeting

omit conduct in
/-- Every handler of a client. -/
theorem handlers_conduct (conduct : Conduct R) (state : State) :
    Along (InvImage (Conducted R) Client.stamped) state.makeProgress := by
  by_cases connected : state = .awaitApplicationData
  · rw [connected]
    have connects := Endpoint.awaitApplicationData_conduct conduct.toConverses conduct.needsKeyUpdate
    exact along_bind (withEndpoint_conduct connects) fun _ => along_pure
  · exact handlers_other conduct.toHandles connected

omit conduct in
/-- `make_progress` of a client. -/
theorem makeProgress_conduct (conduct : Conduct R) :
    Along (InvImage (Conducted R) Client.stamped) makeProgress := by
  have loop : ∀ fuel, Along (InvImage (Conducted R) Client.stamped) (progressLoop fuel) := by
    intro fuel
    induction fuel with
    | zero => exact along_throw
    | succ fuel inductionHypothesis =>
        refine along_bind along_get fun c => along_bind (handlers_conduct conduct c.state) fun next => ?_
        refine along_ite (fun _ => along_pure) fun _ => ?_
        exact along_bind (modify_conduct fun _ => rfl) fun _ => inductionHypothesis
  exact loop 20

omit conduct in
/-- Every call that runs no handler. -/
theorem idle_conduct (serves : Idles R) {call : Call} (idle : call.isIdle = true) :
    Along (InvImage (Conducted R) Client.stamped) call.program := by
  have closed : ∀ state, Along (InvImage (Conducted R) Client.stamped)
      (modify fun (c : Client) => { c with state } : ClientM PUnit) := fun _ => modify_conduct fun _ => rfl
  cases call with
  | handlePacket packet => cases idle
  | handleTimeout now => cases idle
  | pollOutput bufLen =>
      exact along_bind (withEndpoint_conduct (Endpoint.pollOutput_conduct serves)) fun _ => along_pure
  | sendApplicationData data =>
      refine along_bind along_get fun c => along_ite (fun _ => along_throw) fun _ => ?_
      refine along_ite (fun _ => ?_) fun _ => ?_
      · exact withEndpoint_conduct (Endpoint.modify_conduct fun _ => rfl)
      · exact withEndpoint_conduct (along_bind along_get fun _ => Endpoint.withEngine_conduct serves.sendData)
  | close =>
      refine along_bind along_get fun c => along_ite (fun _ => along_pure) fun _ => ?_
      refine along_ite (fun _ => ?_) fun _ => ?_
      · exact along_bind (withEngine_conduct (along_modify serves.abort)) fun _ => closed _
      · exact along_bind (withEndpoint_conduct (Endpoint.closeWrite_conduct serves)) fun _ => closed _

omit conduct in
/-- Every call but a timeout. -/
theorem call_conduct (conducts : Conducts R) {call : Call} (noTimeout : call.tick = none) :
    Along (InvImage (Conducted R) Client.stamped) call.program := by
  have progress := makeProgress_conduct conducts.toConduct
  cases call with
  | handlePacket packet =>
      refine along_publicResult (along_bind (withEngine_conduct conducts.receivePacket) fun _ => ?_)
      exact progress
  | handleTimeout now => cases noTimeout
  | pollOutput | sendApplicationData | close => exact idle_conduct conducts.toIdles rfl

end Client

namespace Server

theorem withEndpoint_conduct {α : Type} {program : EndpointM α}
    (along : Along (InvImage (Conducted R) Endpoint.stamped) program) :
    Along (InvImage (Conducted R) Server.stamped) (withEndpoint program) :=
  along_zoom along fun _ _ moved => moved

theorem withEngine_conduct {α : Type} {program : EngineM α} (along : Along R program) :
    Along (InvImage (Conducted R) Server.stamped) (withEngine program) :=
  withEndpoint_conduct (Endpoint.withEngine_conduct along)

theorem modify_conduct {f : Server → Server} (same : ∀ s, (f s).stamped = s.stamped) :
    Along (InvImage (Conducted R) Server.stamped) (modify f : ServerM PUnit) := by
  refine along_modify fun s => ?_
  unfold InvImage
  rw [same]
  exact Std.Refl.refl _

theorem computeCookie_conduct {random : Random} :
    Along (InvImage (Conducted R) Server.stamped) (computeCookie random) := by
  refine along_bind along_get fun s => ?_
  split
  · exact along_pure
  · exact along_throw

theorem checkCookie_conduct {random : Random} {cookie : Option Bytes} :
    Along (InvImage (Conducted R) Server.stamped) (checkCookie random cookie) := by
  refine along_bind along_get fun s => along_ite (fun _ => ?_) fun _ => along_pure
  refine along_bind computeCookie_conduct fun expected => ?_
  cases cookie with
  | some cookie => exact along_ite (fun _ => along_throw) fun _ => along_pure
  | none => exact along_pure

theorem createServerHello_readOnly {random : Random} {sessionId : Bytes} {share : KeyShareEntry}
    {extensionData : Bytes} :
    ReadOnly (createServerHello random sessionId share extensionData) := by
  refine along_bind along_get fun e => along_bind along_orThrow fun suite => ?_
  exact along_ite (fun _ => along_throw) fun _ => along_pure

variable (conduct : Exchanges R)

include conduct

theorem advance_conduct {next : State} : Along (InvImage (Conducted R) Server.stamped) (advance next) :=
  along_bind (withEngine_conduct (along_modify conduct.advance)) fun _ => along_pure

omit conduct in
theorem onMessage_conduct {message : EngineM (Option (Handshake × Bytes))} {stay : State}
    {handle : Body → Bytes → ServerM State} (reads : Along R message)
    (handles : ∀ body buffer, Along (InvImage (Conducted R) Server.stamped) (handle body buffer)) :
    Along (InvImage (Conducted R) Server.stamped) (onMessage message stay handle) := by
  refine along_bind (withEngine_conduct reads) fun found => ?_
  cases found with
  | none => exact along_pure
  | some message => exact handles _ _

omit conduct in
theorem retryHello_conduct (conduct : Greets R) {suite : Dtls13CipherSuite} {random : Random}
    {group : Option NamedGroup} :
    Along (InvImage (Conducted R) Server.stamped) (retryHello suite random group) := by
  refine along_bind (withEngine_conduct (along_modify fun e => conduct.setCipherSuite e _))
    fun _ => ?_
  refine along_bind along_get fun s => ?_
  refine along_bind (withEngine_conduct conduct.replaceTranscript) fun _ => ?_
  refine along_bind computeCookie_conduct fun cookie => ?_
  refine along_bind ?_ fun _ => ?_
  · refine along_bind along_get fun s => ?_
    refine along_bind (withEngine_conduct (along_modify conduct.flightBegin)) fun _ => ?_
    exact withEngine_conduct (conduct.createHandshake along_pure)
  · refine along_bind (withEngine_conduct (along_modify conduct.advance)) fun _ => ?_
    refine along_bind (withEngine_conduct (along_modify conduct.resetForHelloRetry)) fun _ => ?_
    exact along_bind (withEndpoint_conduct (Endpoint.modify_conduct fun _ => rfl)) fun _ =>
      along_pure

omit conduct in
theorem acceptShare_conduct (conduct : Greets R) {suite : Dtls13CipherSuite} {share : KeyShareEntry}
    {profiles : Option (List SrtpProfile)} {buffer : Bytes} :
    Along (InvImage (Conducted R) Server.stamped) (acceptShare suite share profiles buffer) := by
  refine along_bind along_get fun s => along_bind along_orThrow fun kx => ?_
  refine along_bind (withEndpoint_conduct Endpoint.startExchange_conduct) fun exchange => ?_
  refine along_bind (modify_conduct fun _ => rfl) fun _ => along_bind along_liftCrypto fun _ => ?_
  refine along_bind (modify_conduct fun _ => rfl) fun _ => ?_
  refine along_bind (withEngine_conduct (along_modify fun e => conduct.setCipherSuite e _))
    fun _ => ?_
  refine along_bind (modify_conduct fun _ => rfl) fun _ => ?_
  exact along_bind (withEngine_conduct (along_modify conduct.advance)) fun _ => along_pure

omit conduct in
theorem selectShare_conduct (conduct : Greets R) {suite : Dtls13CipherSuite} {random : Random}
    {groups : List NamedGroup} {found : HelloExtensions} {buffer : Bytes} :
    Along (InvImage (Conducted R) Server.stamped) (selectShare suite random groups found buffer) := by
  unfold selectShare
  split
  · exact acceptShare_conduct conduct
  · split
    · exact along_throw
    · refine along_bind along_get fun s => along_ite (fun _ => along_throw) fun _ => ?_
      exact retryHello_conduct conduct

omit conduct in
theorem acceptClientHello_conduct (conduct : Greets R) {lengthBefore : Nat} {hello : ClientHello}
    {found : HelloExtensions} {buffer : Bytes} :
    Along (InvImage (Conducted R) Server.stamped) (acceptClientHello lengthBefore hello found buffer) := by
  refine along_bind along_get fun s => along_bind along_orThrow fun suite => ?_
  refine along_bind (modify_conduct fun _ => rfl) fun _ => ?_
  refine along_bind (withEngine_conduct supportedGroups_readOnly.along) fun groups => ?_
  refine along_bind checkCookie_conduct fun passes => along_ite (fun _ => ?_) fun _ => ?_
  · exact selectShare_conduct conduct
  · refine along_bind along_get fun s => along_ite (fun _ => ?_) fun _ => retryHello_conduct conduct
    exact along_bind (withEngine_conduct (along_modify fun e => conduct.truncate e _)) fun _ =>
      along_pure

omit conduct in
theorem awaitClientHello_conduct (conduct : Greets R) :
    Along (InvImage (Conducted R) Server.stamped) awaitClientHello := by
  refine along_bind along_get fun s => onMessage_conduct ?_ fun body buffer => ?_
  · split <;> exact conduct.nextHandshake
  · split
    · unfold handleClientHello
      split
      · exact along_throw
      · refine along_bind ?_ fun found => ?_
        · unfold ofExcept
          split
          · exact along_pure
          · exact along_throw
        · refine along_ite (fun _ => ?_) fun _ => acceptClientHello_conduct conduct
          exact along_bind along_get fun s => along_ite (fun _ => along_throw) fun _ => along_throw
    · exact along_throw

theorem sendServerHello_conduct : Along (InvImage (Conducted R) Server.stamped) sendServerHello := by
  refine along_get_bind fun s => ?_
  rw [post_bind, post_orThrow]
  refine ⟨fun random _ => ?_, fun _ => Std.Refl.refl s.stamped⟩
  rw [post_bind, post_orThrow]
  refine ⟨fun stored _ => ?_, fun _ => Std.Refl.refl s.stamped⟩
  rw [post_bind, post_set]
  have unchanged : InvImage (Conducted R) Server.stamped s { s with extensionData := stored.2 } :=
    Std.Refl.refl s.stamped
  refine Along.after ?_ unchanged
  refine along_bind (withEngine_conduct (along_modify conduct.flightBegin)) fun _ => ?_
  refine along_bind (withEngine_conduct (conduct.createHandshake createServerHello_readOnly))
    fun _ => ?_
  refine along_bind along_get fun s => along_bind along_orThrow fun sharedSecret => ?_
  refine along_bind (modify_conduct fun _ => rfl) fun _ => ?_
  exact along_bind (withEndpoint_conduct (Endpoint.installHandshakeSecrets_conduct conduct))
    fun _ => along_pure

theorem sendFinished_conduct : Along (InvImage (Conducted R) Server.stamped) sendFinished := by
  refine along_bind along_get fun s => along_bind along_orThrow fun secret => ?_
  refine along_bind (withEngine_conduct (conduct.createHandshake computeVerifyData_readOnly))
    fun _ => ?_
  refine along_bind (withEndpoint_conduct (Endpoint.installApplicationSecrets_conduct conduct))
    fun _ => ?_
  refine along_bind (withEngine_conduct conduct.enablePeerEncryption) fun _ => ?_
  exact along_bind along_get fun _ => along_pure

theorem awaitCertificate_conduct : Along (InvImage (Conducted R) Server.stamped) awaitCertificate := by
  have stops : Along (InvImage (Conducted R) Server.stamped) (withEngine (modify Engine.flightStopResendTimers)) :=
    withEngine_conduct (along_modify conduct.flightStop)
  refine onMessage_conduct conduct.nextHandshake fun body buffer => ?_
  split
  · refine along_ite (fun _ => ?_) fun _ => ?_
    · refine along_bind (withEngine_conduct (along_modify conduct.advance)) fun _ => ?_
      exact along_bind stops fun _ => along_pure
    · refine along_bind (withEndpoint_conduct Endpoint.takeCertificates_conduct) fun _ => ?_
      exact along_bind stops fun _ => advance_conduct conduct
  · exact along_throw

theorem awaitCertificateVerify_conduct :
    Along (InvImage (Conducted R) Server.stamped) awaitCertificateVerify := by
  refine along_bind along_get fun s => ?_
  refine along_bind (withEngine_conduct transcriptHash_readOnly.along) fun _ => ?_
  refine onMessage_conduct conduct.nextHandshake fun body buffer => ?_
  split
  · exact along_bind
      (withEndpoint_conduct (Endpoint.checkCertificateVerify_conduct conduct)) fun _ => along_pure
  · exact along_throw

theorem awaitFinished_conduct : Along (InvImage (Conducted R) Server.stamped) awaitFinished := by
  refine along_bind along_get fun s => along_bind along_get fun s => ?_
  refine along_bind along_orThrow fun secret => ?_
  refine along_bind (withEngine_conduct computeVerifyData_readOnly.along) fun _ => ?_
  refine onMessage_conduct conduct.nextHandshake fun body buffer => ?_
  split
  · refine along_bind (withEndpoint_conduct (Endpoint.checkFinished_conduct conduct)) fun _ => ?_
    refine along_bind (withEngine_conduct conduct.sendAck) fun _ => ?_
    refine along_bind (withEngine_conduct (along_modify conduct.flightStop)) fun _ => ?_
    exact along_bind (withEndpoint_conduct (Endpoint.completeHandshake_conduct conduct)) fun _ =>
      along_pure
  · exact along_throw

/-- Every handler of a server but that of the ClientHello and that of application data. -/
theorem handlers_behind {state : State} (late : state ≠ .awaitClientHello)
    (other : state ≠ .awaitApplicationData) :
    Along (InvImage (Conducted R) Server.stamped) state.makeProgress := by
  cases state with
  | awaitClientHello => exact absurd rfl late
  | sendServerHello => exact sendServerHello_conduct conduct
  | sendEncryptedExtensions =>
      refine along_bind along_get fun s => ?_
      refine along_bind (withEngine_conduct (conduct.createHandshake along_pure)) fun _ => ?_
      exact along_bind along_get fun _ => along_pure
  | sendCertificateRequest =>
      refine along_bind (withEngine_conduct (conduct.createHandshake along_pure)) fun _ => ?_
      exact along_bind (withEndpoint_conduct (Endpoint.modify_conduct fun _ => rfl)) fun _ =>
        along_pure
  | sendCertificate =>
      exact along_bind (withEngine_conduct (conduct.createHandshake createCertificate_readOnly))
        fun _ => along_pure
  | sendCertificateVerify =>
      exact along_bind
        (withEngine_conduct (conduct.createHandshake createCertificateVerify_readOnly))
        fun _ => along_pure
  | sendFinished => exact sendFinished_conduct conduct
  | awaitCertificate => exact awaitCertificate_conduct conduct
  | awaitCertificateVerify => exact awaitCertificateVerify_conduct conduct
  | awaitFinished => exact awaitFinished_conduct conduct
  | awaitApplicationData => exact absurd rfl other
  | halfClosedLocal =>
      exact along_bind (withEndpoint_conduct (Endpoint.halfClosedLocal_conduct conduct.toConverses))
        fun _ => along_pure
  | closed => exact along_pure

omit conduct in
/-- Every handler of a server but that of application data. -/
theorem handlers_other (conduct : Handles R) {state : State} (other : state ≠ .awaitApplicationData) :
    Along (InvImage (Conducted R) Server.stamped) state.makeProgress := by
  by_cases early : state = .awaitClientHello
  · rw [early]
    exact awaitClientHello_conduct conduct.toGreets
  · exact handlers_behind conduct.toExchanges early other

omit conduct in
/-- Every handler of a server. -/
theorem handlers_conduct (conduct : Conduct R) (state : State) :
    Along (InvImage (Conducted R) Server.stamped) state.makeProgress := by
  by_cases connected : state = .awaitApplicationData
  · rw [connected]
    have connects := Endpoint.awaitApplicationData_conduct conduct.toConverses conduct.needsKeyUpdate
    exact along_bind (withEndpoint_conduct connects) fun _ => along_pure
  · exact handlers_other conduct.toHandles connected

omit conduct in
/-- `make_progress` of a server. -/
theorem makeProgress_conduct (conduct : Conduct R) :
    Along (InvImage (Conducted R) Server.stamped) makeProgress := by
  have loop : ∀ fuel, Along (InvImage (Conducted R) Server.stamped) (progressLoop fuel) := by
    intro fuel
    induction fuel with
    | zero => exact along_throw
    | succ fuel inductionHypothesis =>
        refine along_bind along_get fun s => along_bind (handlers_conduct conduct s.state) fun next => ?_
        refine along_ite (fun _ => along_pure) fun _ => ?_
        exact along_bind (modify_conduct fun _ => rfl) fun _ => inductionHypothesis
  exact loop 20

omit conduct in
/-- Every call that runs no handler. -/
theorem idle_conduct (serves : Idles R) {call : Call} (idle : call.isIdle = true) :
    Along (InvImage (Conducted R) Server.stamped) call.program := by
  have closed : ∀ state, Along (InvImage (Conducted R) Server.stamped)
      (modify fun (s : Server) => { s with state } : ServerM PUnit) := fun _ => modify_conduct fun _ => rfl
  cases call with
  | handlePacket packet => cases idle
  | handleTimeout now => cases idle
  | pollOutput bufLen =>
      exact along_bind (withEndpoint_conduct (Endpoint.pollOutput_conduct serves)) fun _ => along_pure
  | sendApplicationData data =>
      refine along_bind along_get fun s => along_ite (fun _ => along_throw) fun _ => ?_
      refine along_ite (fun _ => ?_) fun _ => ?_
      · exact withEndpoint_conduct (Endpoint.modify_conduct fun _ => rfl)
      · exact withEndpoint_conduct (along_bind along_get fun _ => Endpoint.withEngine_conduct serves.sendData)
  | close =>
      refine along_bind along_get fun s => along_ite (fun _ => along_pure) fun _ => ?_
      refine along_ite (fun _ => ?_) fun _ => ?_
      · exact along_bind (withEngine_conduct (along_modify serves.abort)) fun _ => closed _
      · exact along_bind (withEndpoint_conduct (Endpoint.closeWrite_conduct serves)) fun _ => closed _

omit conduct in
/-- Every call but a timeout. -/
theorem call_conduct (conducts : Conducts R) {call : Call} (noTimeout : call.tick = none) :
    Along (InvImage (Conducted R) Server.stamped) call.program := by
  have progress := makeProgress_conduct conducts.toConduct
  cases call with
  | handlePacket packet =>
      have committed : ∀ s : Server, s.commitVersion.stamped = s.stamped := by
        intro s
        unfold commitVersion
        split <;> rfl
      refine along_bind (along_get_bind fun s => ?_) fun _ => along_publicResult ?_
      · have same : Conducted R s.stamped s.stamped := Std.Refl.refl s.stamped
        rw [post_ite, post_ite]
        exact ⟨fun _ => ⟨fun _ => same, fun _ => same⟩, fun _ => same⟩
      · refine along_bind (withEngine_conduct conducts.receivePacket) fun _ => ?_
        exact along_bind progress fun _ => modify_conduct committed
  | handleTimeout now => cases noTimeout
  | pollOutput | sendApplicationData | close => exact idle_conduct conducts.toIdles rfl

end Server

section Timeouts

variable (timeout : ∀ {now}, Along R (Engine.handleTimeout now)) (random : ∀ (e : Engine) rng, R e { e with rng })

include timeout random

/-- A timeout call up to the handlers. -/
theorem Endpoint.handleTimeout_conduct {now : Instant} :
    Along (InvImage R Endpoint.engine) (Endpoint.handleTimeout now) := by
  have onEngine : ∀ {α : Type} {program : EngineM α}, Along R program →
      Along (InvImage R Endpoint.engine) (withEngine program) :=
    fun along => along_zoom along fun _ _ moved => moved
  have noted : ∀ f : Endpoint → Endpoint, (∀ p, (f p).engine = p.engine) →
      Along (InvImage R Endpoint.engine) (modify f : EndpointM PUnit) := by
    intro f same
    refine along_modify fun p => ?_
    unfold InvImage
    rw [same]
    exact Std.Refl.refl _
  refine along_bind (noted _ fun _ => rfl) fun _ => along_bind ?_ fun _ => onEngine timeout
  refine along_bind along_get fun p => ?_
  split
  · exact along_pure
  · refine along_bind (onEngine ?_) fun _ => noted _ fun _ => rfl
    refine along_bind (along_get_bind fun e => ?_) fun _ => along_pure
    rw [post_bind, post_set]
    exact random e _

/-- Every call on a client moves its engine along the relation. -/
theorem Client.exec_conduct (conducts : Conducts R) {c : Client} {call : Client.Call} :
    R c.engine (c.exec call).engine := by
  cases isTick : call.tick with
  | none => exact ((Client.call_conduct conducts isTick).finalState c).2
  | some now =>
      cases call with
      | handleTimeout now' =>
          have timed : Along (InvImage R Client.engine) (Client.handleTimeout now') := by
            have engines := @Endpoint.handleTimeout_conduct R _ _ timeout random now'
            refine along_bind (along_zoom engines fun _ _ moved => moved) fun _ => ?_
            have progress := Client.makeProgress_conduct conducts.toConduct
            exact along_publicResult (progress.mono fun _ _ moved => moved.2)
          exact timed.finalState c
      | _ => cases isTick

/-- Every call on a server moves its engine along the relation. -/
theorem Server.exec_conduct (conducts : Conducts R) {s : Server} {call : Server.Call} :
    R s.engine (s.exec call).engine := by
  cases isTick : call.tick with
  | none => exact ((Server.call_conduct conducts isTick).finalState s).2
  | some now =>
      cases call with
      | handleTimeout now' =>
          have timed : Along (InvImage R Server.engine) (Server.handleTimeout now') := by
            have engines := @Endpoint.handleTimeout_conduct R _ _ timeout random now'
            refine along_bind (along_zoom engines fun _ _ moved => moved) fun _ => ?_
            have progress := Server.makeProgress_conduct conducts.toConduct
            exact along_publicResult (progress.mono fun _ _ moved => moved.2)
          exact timed.finalState s
      | _ => cases isTick

end Timeouts

end Endpoints

end Dimpl.Dtls13
