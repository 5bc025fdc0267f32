import Dimpl.Dtls12.ClientInv
import Dimpl.Dtls12.ServerInv

/-!
# What handlers do to their engine

A handler of a client or a server touches its engine only through the functions of the
engine. What they all keep, every handler keeps.
-/

set_option linter.unusedSectionVars false

namespace Dimpl.Dtls12

open Nom Program

/-- The functions of the engine that handlers call move it along a relation. -/
structure Conduct (R : Engine → Engine → Prop) : Prop where
  nextHandshake : ∀ {wanted}, Along R (nextHandshake wanted)
  nextRecord : ∀ {contentType}, Along R (nextRecord contentType)
  dropPendingCcs : Along R dropPendingCcs
  enablePeerEncryption : Along R enablePeerEncryption
  flightBegin : ∀ e : Engine, R e e.flightBegin
  flightStop : ∀ e : Engine, R e e.flightStopResendTimers
  createHandshake : ∀ {type build}, Along R build → Along R (createHandshake type build)
  createRecord : ∀ {contentType epoch saveFragment fragment},
    Along R (createRecord contentType epoch saveFragment fragment)
  resetClient : ∀ e : Engine, R e e.resetClientForHelloVerifyRequest
  resetServer : ∀ e : Engine, R e e.resetServerForHelloVerifyRequest
  setCipherSuite : ∀ {suite}, Along R (setCipherSuite suite)
  context : ∀ (e : Engine) cryptoContext, R e { e with cryptoContext }
  random : ∀ (e : Engine) rng, R e { e with rng }
  discard : ∀ e : Engine, R e e.discardPendingWrites
  release : ∀ e : Engine, R e e.releaseApplicationData

/-- The functions of the engine that calls other than a timeout make move it along a
relation. -/
structure Conducts (R : Engine → Engine → Prop) : Prop extends Conduct R where
  receivePacket : ∀ {datagram}, Along R (receivePacket datagram)
  pollOutput : ∀ {bufLen now}, Along R (Engine.pollOutput bufLen now)
  abort : ∀ e : Engine, R e e.abort

/-- The time of the last timeout call and the engine. -/
def Client.stamped (c : Client) : Instant × Engine := (c.lastNow, c.engine)

/-- The time of the last timeout call and the engine. -/
def Server.stamped (s : Server) : Instant × Engine := (s.lastNow, s.engine)

/-- The engine moves along a relation and the time stands. -/
def Conducted (R : Engine → Engine → Prop) (s s' : Instant × Engine) : Prop :=
  s'.1 = s.1 ∧ R s.2 s'.2

instance {R : Engine → Engine → Prop} [Std.Refl R] : Std.Refl (Conducted R) :=
  ⟨fun s => ⟨rfl, Std.Refl.refl s.2⟩⟩

instance {R : Engine → Engine → Prop} [IsTrans Engine R] : IsTrans (Instant × Engine) (Conducted R) :=
  ⟨fun _ _ _ first second => ⟨second.1.trans first.1, IsTrans.trans _ _ _ first.2 second.2⟩⟩

section Endpoints

variable {R : Engine → Engine → Prop} [Std.Refl R] [IsTrans Engine R]

section Engines

variable (conduct : Conduct R)

include conduct

theorem withContext_conduct {α : Type} {program : ContextM α} : Along R (withContext program) := by
  intro e
  unfold withContext
  rw [post_zoom]
  exact post_state.mpr (conduct.context e _)

theorem randomArr_conduct {count : Nat} : Along R (randomArr count) := by
  refine along_get_bind fun e => ?_
  rw [post_bind, post_set]
  exact conduct.random e _

theorem sendQueued_conduct {queued : List Bytes} : Along R (sendQueued queued) := by
  induction queued with
  | nil => exact along_pure
  | cons data rest inductionHypothesis =>
      exact along_bind conduct.createRecord fun _ => inductionHypothesis

theorem deriveSessionKeys_conduct {suite : Dtls12CipherSuite} {sessionHash : Bytes}
    {clientRandom serverRandom : Random} :
    Along R (deriveSessionKeys suite sessionHash clientRandom serverRandom) := by
  refine along_bind along_get fun e => along_bind (withContext_conduct conduct) fun _ => ?_
  exact withContext_conduct conduct

end Engines

namespace Client

theorem withEngine_conduct {α : Type} {program : EngineM α} (along : Along R program) :
    Along (InvImage (Conducted R) Client.stamped) (withEngine program) :=
  along_zoom along fun _ _ moved => ⟨rfl, moved⟩

/-- A change of other fields. -/
theorem modify_conduct {f : Client → Client} (same : ∀ c, (f c).stamped = c.stamped) :
    Along (InvImage (Conducted R) Client.stamped) (modify f : ClientM PUnit) := by
  refine along_modify fun c => ?_
  unfold InvImage
  rw [same]
  exact Std.Refl.refl _

theorem logCheck_conduct {check : Check} : Along (InvImage (Conducted R) Client.stamped) (logCheck check) :=
  modify_conduct fun _ => rfl

theorem handleExtensions_conduct {buffer : Bytes} {extensions : List Extension} {found : Bool} :
    Along (InvImage (Conducted R) Client.stamped) (handleExtensions buffer extensions found) := by
  induction extensions generalizing found with
  | nil => exact along_pure
  | cons ext rest inductionHypothesis =>
      refine along_ite (fun _ => ?_) fun _ => inductionHypothesis
      split
      · exact along_throw
      · exact along_bind (modify_conduct fun _ => rfl) fun _ => inductionHypothesis

theorem emitKeyingMaterial_conduct : Along (InvImage (Conducted R) Client.stamped) emitKeyingMaterial := by
  refine along_get_bind fun c => ?_
  have same : Conducted R c.stamped c.stamped := Std.Refl.refl c.stamped
  split
  · exact same
  · rw [post_bind, post_orThrow]
    exact ⟨fun _ _ => same, fun _ => same⟩

variable (conduct : Conduct R)

include conduct

theorem onHandshake_conduct {wanted : MessageType} {stay : State}
    {handle : Body → Bytes → ClientM State}
    (handles : ∀ body buffer, Along (InvImage (Conducted R) Client.stamped) (handle body buffer)) :
    Along (InvImage (Conducted R) Client.stamped) (onHandshake wanted stay handle) := by
  refine along_bind (withEngine_conduct conduct.nextHandshake) fun found => ?_
  cases found with
  | none => exact along_pure
  | some message => exact handles _ _

theorem sendClientHello_conduct : Along (InvImage (Conducted R) Client.stamped) sendClientHello := by
  refine along_bind along_get fun c => along_bind along_orThrow fun random => ?_
  refine along_bind (withEngine_conduct (along_modify conduct.flightBegin)) fun _ => ?_
  exact along_bind (withEngine_conduct (conduct.createHandshake createClientHello_readOnly.along))
    fun _ => along_pure

theorem awaitHelloVerifyRequest_conduct :
    Along (InvImage (Conducted R) Client.stamped) awaitHelloVerifyRequest := by
  refine along_bind along_get fun c => along_ite (fun _ => along_pure) fun _ => ?_
  refine onHandshake_conduct conduct fun body _ => ?_
  split
  · refine along_ite (fun _ => along_throw) fun _ => ?_
    refine along_bind (modify_conduct fun _ => rfl) fun _ => ?_
    exact along_bind (withEngine_conduct (along_modify conduct.resetClient)) fun _ => along_pure
  · exact along_throw

theorem awaitServerHello_conduct : Along (InvImage (Conducted R) Client.stamped) awaitServerHello := by
  refine onHandshake_conduct conduct fun body buffer => ?_
  split
  · refine along_bind along_get fun c => ?_
    split
    · exact along_throw
    · refine along_bind (withEngine_conduct conduct.setCipherSuite) fun _ => ?_
      refine along_bind (modify_conduct fun _ => rfl) fun _ => ?_
      split
      · exact along_throw
      · refine along_bind handleExtensions_conduct fun _ => ?_
        exact along_ite (fun _ => along_throw) fun _ => along_pure
  · exact along_throw

theorem awaitCertificate_conduct : Along (InvImage (Conducted R) Client.stamped) awaitCertificate := by
  refine onHandshake_conduct conduct fun body buffer => ?_
  split
  · refine along_ite (fun _ => along_throw) fun _ => ?_
    exact along_bind (modify_conduct fun _ => rfl) fun _ => along_pure
  · exact along_throw

theorem handleSignedParams_conduct {params : EcdhParams} {signed : DigitallySigned}
    {buffer : Bytes} :
    Along (InvImage (Conducted R) Client.stamped) (handleSignedParams params signed buffer) := by
  refine along_bind along_get fun c => along_bind along_orThrow fun _ => ?_
  refine along_bind along_orThrow fun _ => ?_
  refine along_bind (withEngine_conduct selectedCipherSuite_readOnly.along) fun suite => ?_
  split
  · exact along_throw
  · refine along_bind along_orThrow fun _ => along_bind along_liftCrypto fun _ => ?_
    refine along_bind logCheck_conduct fun _ => along_bind logCheck_conduct fun _ => ?_
    exact along_bind (withEngine_conduct (withContext_conduct conduct)) fun _ => along_pure

theorem awaitServerKeyExchange_conduct :
    Along (InvImage (Conducted R) Client.stamped) awaitServerKeyExchange := by
  refine along_bind (withEngine_conduct selectedCipherSuite_readOnly.along) fun suite => ?_
  refine along_ite (fun _ => ?_) fun _ => ?_
  · refine along_bind along_get fun c => along_ite (fun _ => along_pure) fun _ => ?_
    refine onHandshake_conduct conduct fun body _ => ?_
    split
    · exact along_pure
    · exact along_throw
    · exact along_throw
  · refine onHandshake_conduct conduct fun body buffer => ?_
    split
    · split
      · split
        · exact handleSignedParams_conduct conduct
        · exact along_throw
      · exact along_throw
    · exact along_throw

theorem awaitCertificateRequest_conduct :
    Along (InvImage (Conducted R) Client.stamped) awaitCertificateRequest := by
  refine along_bind along_get fun c => along_ite (fun _ => along_pure) fun _ => ?_
  refine onHandshake_conduct conduct fun body _ => ?_
  split
  · refine along_bind along_get fun c => along_bind along_orThrow fun hash => ?_
    refine along_ite (fun _ => along_throw) fun _ => ?_
    exact along_bind (modify_conduct fun _ => rfl) fun _ => along_pure
  · exact along_throw

theorem awaitServerHelloDone_conduct : Along (InvImage (Conducted R) Client.stamped) awaitServerHelloDone := by
  refine onHandshake_conduct conduct fun body _ => ?_
  split
  · refine along_bind (withEngine_conduct selectedCipherSuite_readOnly.along) fun suite => ?_
    refine along_get_bind fun c => ?_
    have same : Conducted R c.stamped c.stamped := Std.Refl.refl c.stamped
    rw [post_ite]
    refine ⟨fun _ => same, fun _ => ?_⟩
    rw [post_ite]
    refine ⟨fun _ => same, fun _ => ?_⟩
    rw [post_bind, post_set]
    exact same
  · exact along_throw

theorem createClientKeyExchange_conduct : Along R createClientKeyExchange := by
  refine along_bind selectedCipherSuite_readOnly.along fun suite => along_bind along_get fun e => ?_
  split
  · refine along_bind along_orThrow fun _ => ?_
    exact along_bind (withContext_conduct conduct) fun _ => along_pure
  · refine along_bind along_orThrow fun _ => along_bind along_orThrow fun _ => ?_
    refine along_bind along_orThrow fun _ => along_bind (withContext_conduct conduct) fun _ => ?_
    exact along_bind (withContext_conduct conduct) fun _ => along_pure
  · exact along_throw

theorem sendClientKeyExchange_conduct :
    Along (InvImage (Conducted R) Client.stamped) sendClientKeyExchange := by
  refine along_bind along_get fun c => ?_
  refine along_bind (withEngine_conduct (along_runIf fun _ => along_modify conduct.flightBegin))
    fun _ => ?_
  refine along_bind
    (withEngine_conduct (conduct.createHandshake (createClientKeyExchange_conduct conduct)))
    fun _ => ?_
  refine along_bind (withEngine_conduct selectedCipherSuite_readOnly.along) fun suite => ?_
  exact along_bind (modify_conduct fun _ => rfl) fun _ => along_pure

theorem createCertificateVerify_conduct : Along R createCertificateVerify := by
  refine along_bind along_get fun e => along_bind along_orThrow fun _ => ?_
  refine along_bind along_orThrow fun _ => ?_
  exact along_bind (withContext_conduct conduct) fun _ => along_pure

theorem sendChangeCipherSpec_conduct : Along (InvImage (Conducted R) Client.stamped) sendChangeCipherSpec := by
  have derived : Along (InvImage (Conducted R) Client.stamped) deriveKeys := by
    refine along_bind (withEngine_conduct selectedCipherSuite_readOnly.along) fun suite => ?_
    refine along_bind along_get fun c => along_bind along_orThrow fun _ => ?_
    refine along_bind along_orThrow fun _ => along_bind along_orThrow fun _ => ?_
    exact withEngine_conduct (deriveSessionKeys_conduct conduct)
  exact along_bind derived fun _ =>
    along_bind (withEngine_conduct conduct.createRecord) fun _ => along_pure

theorem awaitChangeCipherSpec_conduct : Along (InvImage (Conducted R) Client.stamped) awaitChangeCipherSpec := by
  refine along_bind (withEngine_conduct conduct.nextRecord) fun found => ?_
  cases found with
  | none => exact along_pure
  | some r =>
      refine along_bind (withEngine_conduct conduct.dropPendingCcs) fun _ => ?_
      exact along_bind (withEngine_conduct conduct.enablePeerEncryption) fun _ => along_pure

theorem awaitNewSessionTicket_conduct : Along (InvImage (Conducted R) Client.stamped) awaitNewSessionTicket := by
  refine along_bind along_get fun c => along_ite (fun _ => along_pure) fun _ => ?_
  refine onHandshake_conduct conduct fun body _ => ?_
  split
  · exact along_pure
  · exact along_throw

theorem awaitFinished_conduct : Along (InvImage (Conducted R) Client.stamped) awaitFinished := by
  refine along_bind along_get fun c => ?_
  refine along_bind (withEngine_conduct generateVerifyData_readOnly.along) fun expected => ?_
  refine onHandshake_conduct conduct fun body buffer => ?_
  split
  · refine along_ite (fun _ => along_throw) fun _ => along_bind logCheck_conduct fun _ => ?_
    refine along_bind (withEngine_conduct (along_modify conduct.flightStop)) fun _ => ?_
    refine along_bind (modify_conduct fun _ => rfl) fun _ => ?_
    refine along_bind emitKeyingMaterial_conduct fun _ => ?_
    exact along_bind (withEngine_conduct (along_modify conduct.release)) fun _ => along_pure
  · exact along_throw

theorem awaitApplicationData_conduct : Along (InvImage (Conducted R) Client.stamped) awaitApplicationData := by
  refine along_get_bind fun c => ?_
  have unchanged : InvImage (Conducted R) Client.stamped c { c with queuedData := [] } := Std.Refl.refl c.stamped
  rw [post_ite]
  refine ⟨fun _ => ?_, fun _ => ?_⟩
  · have closing : Along (InvImage (Conducted R) Client.stamped) (do
        withEngine (modify Engine.discardPendingWrites)
        withEngine (createRecord .alert 1 false closeNotifyAlert)
        return State.closed) := by
      refine along_bind (withEngine_conduct (along_modify conduct.discard)) fun _ => ?_
      exact along_bind (withEngine_conduct conduct.createRecord) fun _ => along_pure
    exact closing c
  · rw [post_bind, post_set]
    refine Along.after ?_ unchanged
    exact along_bind (withEngine_conduct (sendQueued_conduct conduct)) fun _ => along_pure

/-- Every handler of a client. -/
theorem handlers_conduct (state : State) : Along (InvImage (Conducted R) Client.stamped) state.makeProgress := by
  cases state with
  | sendClientHello => exact sendClientHello_conduct conduct
  | awaitHelloVerifyRequest => exact awaitHelloVerifyRequest_conduct conduct
  | awaitServerHello => exact awaitServerHello_conduct conduct
  | awaitCertificate => exact awaitCertificate_conduct conduct
  | awaitServerKeyExchange => exact awaitServerKeyExchange_conduct conduct
  | awaitCertificateRequest => exact awaitCertificateRequest_conduct conduct
  | awaitServerHelloDone => exact awaitServerHelloDone_conduct conduct
  | sendCertificate =>
      refine along_bind (withEngine_conduct (along_modify conduct.flightBegin)) fun _ => ?_
      exact along_bind (withEngine_conduct (conduct.createHandshake (withContext_conduct conduct)))
        fun _ => along_pure
  | sendClientKeyExchange => exact sendClientKeyExchange_conduct conduct
  | sendCertificateVerify =>
      exact along_bind
        (withEngine_conduct (conduct.createHandshake (createCertificateVerify_conduct conduct)))
        fun _ => along_pure
  | sendChangeCipherSpec => exact sendChangeCipherSpec_conduct conduct
  | sendFinished =>
      exact along_bind
        (withEngine_conduct (conduct.createHandshake generateVerifyData_readOnly.along))
        fun _ => along_pure
  | awaitChangeCipherSpec => exact awaitChangeCipherSpec_conduct conduct
  | awaitNewSessionTicket => exact awaitNewSessionTicket_conduct conduct
  | awaitFinished => exact awaitFinished_conduct conduct
  | awaitApplicationData => exact awaitApplicationData_conduct conduct
  | closed => exact along_pure

/-- `make_progress` of a client. -/
theorem makeProgress_conduct : Along (InvImage (Conducted R) Client.stamped) makeProgress := by
  have loop : ∀ fuel, Along (InvImage (Conducted R) Client.stamped) (progressLoop fuel) := by
    intro fuel
    induction fuel with
    | zero => exact along_throw
    | succ fuel inductionHypothesis =>
        refine along_bind along_get fun c => along_bind (handlers_conduct conduct c.state) fun next => ?_
        refine along_ite (fun _ => along_pure) fun _ => ?_
        exact along_bind (modify_conduct fun _ => rfl) fun _ => inductionHypothesis
  exact loop 20

omit conduct in
theorem pollOutput_conduct (conducts : Conducts R) {bufLen : Nat} :
    Along (InvImage (Conducted R) Client.stamped) (pollOutput bufLen) := by
  refine along_get_bind fun c => ?_
  split
  · rename_i event rest queued
    have unchanged : InvImage (Conducted R) Client.stamped c { c with localEvents := rest } :=
      Std.Refl.refl c.stamped
    rw [post_bind, post_set]
    exact LocalEvent.intoOutput_readOnly.along.after unchanged
  · exact withEngine_conduct conducts.pollOutput c

omit conduct in
/-- Every call but a timeout. -/
theorem call_conduct (conducts : Conducts R) {call : Call} (noTimeout : call.tick = none) :
    Along (InvImage (Conducted R) Client.stamped) call.program := by
  cases call with
  | handlePacket packet =>
      refine along_publicResult (along_bind (withEngine_conduct conducts.receivePacket) fun _ => ?_)
      exact makeProgress_conduct conducts.toConduct
  | handleTimeout now => cases noTimeout
  | pollOutput bufLen => exact along_bind (pollOutput_conduct conducts) fun _ => along_pure
  | sendApplicationData data =>
      refine along_get_bind fun c => ?_
      have same : Conducted R c.stamped c.stamped := Std.Refl.refl c.stamped
      rw [post_ite, post_ite]
      refine ⟨fun _ => same, fun _ => ⟨fun _ => same, fun _ => ?_⟩⟩
      exact withEngine_conduct conducts.createRecord c
  | close =>
      refine along_get_bind fun c => ?_
      have same : Conducted R c.stamped c.stamped := Std.Refl.refl c.stamped
      rw [post_ite, post_ite]
      refine ⟨fun _ => same, fun _ => ⟨fun _ => ⟨rfl, conducts.abort c.engine⟩, fun _ => ?_⟩⟩
      have sent : Along (InvImage (Conducted R) Client.stamped) (do
          withEngine (createRecord .alert 1 false closeNotifyAlert)
          modify fun (c : Client) => { c with state := .closed }) :=
        along_bind (withEngine_conduct conducts.createRecord) fun _ => modify_conduct fun _ => rfl
      exact sent c

end Client

namespace Server

theorem withEngine_conduct {α : Type} {program : EngineM α} (along : Along R program) :
    Along (InvImage (Conducted R) Server.stamped) (withEngine program) :=
  along_zoom along fun _ _ moved => ⟨rfl, moved⟩

theorem modify_conduct {f : Server → Server} (same : ∀ s, (f s).stamped = s.stamped) :
    Along (InvImage (Conducted R) Server.stamped) (modify f : ServerM PUnit) := by
  refine along_modify fun s => ?_
  unfold InvImage
  rw [same]
  exact Std.Refl.refl _

theorem logCheck_conduct {check : Check} : Along (InvImage (Conducted R) Server.stamped) (logCheck check) :=
  modify_conduct fun _ => rfl

theorem emitKeyingMaterial_conduct : Along (InvImage (Conducted R) Server.stamped) emitKeyingMaterial := by
  refine along_get_bind fun s => ?_
  have same : Conducted R s.stamped s.stamped := Std.Refl.refl s.stamped
  split
  · exact same
  · rw [post_bind, post_orThrow]
    exact ⟨fun _ _ => same, fun _ => same⟩

variable (conduct : Conduct R)

include conduct

theorem onHandshake_conduct {wanted : MessageType} {stay : State}
    {handle : Body → Bytes → ServerM State}
    (handles : ∀ body buffer, Along (InvImage (Conducted R) Server.stamped) (handle body buffer)) :
    Along (InvImage (Conducted R) Server.stamped) (onHandshake wanted stay handle) := by
  refine along_bind (withEngine_conduct conduct.nextHandshake) fun found => ?_
  cases found with
  | none => exact along_pure
  | some message => exact handles _ _

theorem sendHelloVerifyRequest_conduct {clientRandom : Random} :
    Along (InvImage (Conducted R) Server.stamped) (sendHelloVerifyRequest clientRandom) := by
  refine along_bind along_get fun s => along_bind along_liftCrypto fun cookie => ?_
  refine along_bind (withEngine_conduct (along_modify conduct.flightBegin)) fun _ => ?_
  refine along_bind (withEngine_conduct (conduct.createHandshake along_pure)) fun _ => ?_
  exact along_bind (withEngine_conduct (along_modify conduct.resetServer)) fun _ => along_pure

theorem acceptClientHello_conduct {hello : ClientHello} {buffer : Bytes} :
    Along (InvImage (Conducted R) Server.stamped) (acceptClientHello hello buffer) := by
  refine along_bind along_get fun s => along_bind along_orThrow fun suite => ?_
  refine along_bind (withEngine_conduct conduct.setCipherSuite) fun _ => ?_
  refine along_bind (modify_conduct fun _ => rfl) fun _ => ?_
  split
  · exact along_throw
  · refine along_ite (fun _ => along_throw) fun _ => ?_
    exact along_bind (modify_conduct fun _ => rfl) fun _ => along_pure

theorem awaitClientHello_conduct : Along (InvImage (Conducted R) Server.stamped) awaitClientHello := by
  refine onHandshake_conduct conduct fun body buffer => ?_
  split
  · refine along_bind along_get fun s => along_ite (fun _ => along_throw) fun _ => ?_
    refine along_ite (fun _ => along_throw) fun _ => along_ite (fun _ => ?_) fun _ => ?_
    · exact sendHelloVerifyRequest_conduct conduct
    · exact acceptClientHello_conduct conduct
  · exact along_throw

theorem sendServerHello_conduct : Along (InvImage (Conducted R) Server.stamped) sendServerHello := by
  refine along_bind (withEngine_conduct (along_modify conduct.flightBegin)) fun _ => ?_
  refine along_bind along_get fun s => along_bind along_orThrow fun random => ?_
  refine along_bind (withEngine_conduct (conduct.createHandshake createServerHello_readOnly.along))
    fun _ => ?_
  exact along_bind (withEngine_conduct selectedCipherSuite_readOnly.along) fun _ => along_pure

theorem createServerKeyExchange_conduct {clientRandom serverRandom : Random} {group : NamedGroup}
    {algorithm : SignatureAndHashAlgorithm} :
    Along R (createServerKeyExchange clientRandom serverRandom group algorithm) := by
  refine along_bind selectedCipherSuite_readOnly.along fun suite => ?_
  split
  · refine along_bind along_get fun e => along_bind (withContext_conduct conduct) fun _ => ?_
    exact along_bind (withContext_conduct conduct) fun _ => along_pure
  · exact along_throw

theorem sendServerKeyExchange_conduct :
    Along (InvImage (Conducted R) Server.stamped) sendServerKeyExchange := by
  refine along_bind (withEngine_conduct selectedCipherSuite_readOnly.along) fun suite => ?_
  refine along_ite (fun _ => ?_) fun _ => ?_
  · refine along_bind along_get fun s => ?_
    split
    · exact along_pure
    · exact along_bind (withEngine_conduct (conduct.createHandshake along_pure)) fun _ => along_pure
  · refine along_bind along_get fun s => along_bind along_orThrow fun _ => ?_
    refine along_bind along_orThrow fun _ => along_bind along_orThrow fun _ => ?_
    refine along_bind along_orThrow fun _ => along_bind along_orThrow fun _ => ?_
    exact along_bind
      (withEngine_conduct (conduct.createHandshake (createServerKeyExchange_conduct conduct)))
      fun _ => along_pure

theorem sendServerHelloDone_conduct : Along (InvImage (Conducted R) Server.stamped) sendServerHelloDone := by
  refine along_bind (withEngine_conduct (conduct.createHandshake along_pure)) fun _ => ?_
  refine along_bind (withEngine_conduct selectedCipherSuite_readOnly.along) fun _ => ?_
  exact along_bind along_get fun _ => along_pure

theorem awaitCertificate_conduct : Along (InvImage (Conducted R) Server.stamped) awaitCertificate := by
  refine onHandshake_conduct conduct fun body buffer => ?_
  split
  · refine along_bind (modify_conduct fun s => ?_) fun _ => along_pure
    split <;> rfl
  · exact along_throw

theorem resolvePsk_conduct {identity : Bytes} :
    Along (InvImage (Conducted R) Server.stamped) (resolvePsk identity) := by
  refine along_bind along_get fun s => along_bind along_orThrow fun resolve => ?_
  split
  · refine along_bind (modify_conduct fun _ => rfl) fun _ => ?_
    exact withEngine_conduct (withContext_conduct conduct)
  · refine along_bind (withEngine_conduct (randomArr_conduct conduct)) fun dummy => ?_
    refine along_bind (modify_conduct fun _ => rfl) fun _ => ?_
    exact withEngine_conduct (withContext_conduct conduct)

theorem agreeOnSecret_conduct {suite : Dtls12CipherSuite} {exchange : ClientKeyExchange}
    {buffer : Bytes} : Along (InvImage (Conducted R) Server.stamped) (agreeOnSecret suite exchange buffer) := by
  refine along_ite (fun _ => ?_) fun _ => ?_
  · cases exchange with
    | psk identityRange =>
        refine along_bind (resolvePsk_conduct conduct) fun _ => ?_
        exact withEngine_conduct (withContext_conduct conduct)
    | ecdh publicKeyRange => exact along_throw
  · cases exchange with
    | psk identityRange => exact along_throw
    | ecdh publicKeyRange => exact withEngine_conduct (withContext_conduct conduct)

theorem awaitClientKeyExchange_conduct :
    Along (InvImage (Conducted R) Server.stamped) awaitClientKeyExchange := by
  refine onHandshake_conduct conduct fun body buffer => ?_
  split
  · refine along_bind (withEngine_conduct selectedCipherSuite_readOnly.along) fun suite => ?_
    refine along_bind (agreeOnSecret_conduct conduct) fun _ => ?_
    refine along_bind (modify_conduct fun _ => rfl) fun _ => along_bind along_get fun s => ?_
    refine along_bind along_orThrow fun _ => along_bind along_orThrow fun _ => ?_
    refine along_bind along_orThrow fun _ => ?_
    exact along_bind (withEngine_conduct (deriveSessionKeys_conduct conduct)) fun _ => along_pure
  · exact along_throw

theorem awaitCertificateVerify_conduct :
    Along (InvImage (Conducted R) Server.stamped) awaitCertificateVerify := by
  refine along_bind along_get fun s => onHandshake_conduct conduct fun body buffer => ?_
  split
  · refine along_bind along_get fun s => along_bind along_orThrow fun _ => ?_
    exact along_bind along_liftCrypto fun _ => along_bind logCheck_conduct fun _ => along_pure
  · exact along_throw

theorem awaitChangeCipherSpec_conduct : Along (InvImage (Conducted R) Server.stamped) awaitChangeCipherSpec := by
  refine along_bind (withEngine_conduct conduct.nextRecord) fun found => ?_
  cases found with
  | none => exact along_pure
  | some r =>
      refine along_bind (withEngine_conduct conduct.dropPendingCcs) fun _ => ?_
      exact along_bind (withEngine_conduct conduct.enablePeerEncryption) fun _ => along_pure

theorem awaitFinished_conduct : Along (InvImage (Conducted R) Server.stamped) awaitFinished := by
  refine along_bind along_get fun s => ?_
  refine along_bind (withEngine_conduct generateVerifyData_readOnly.along) fun expected => ?_
  refine onHandshake_conduct conduct fun body buffer => ?_
  split
  · refine along_ite (fun _ => along_throw) fun _ => along_bind logCheck_conduct fun _ => ?_
    refine along_bind along_get fun s => along_ite (fun _ => along_throw) fun _ => ?_
    exact along_ite (fun _ => along_throw) fun _ => along_pure
  · exact along_throw

theorem sendFinished_conduct : Along (InvImage (Conducted R) Server.stamped) sendFinished := by
  refine along_bind
    (withEngine_conduct (conduct.createHandshake generateVerifyData_readOnly.along)) fun _ => ?_
  refine along_bind (withEngine_conduct (along_modify conduct.flightStop)) fun _ => ?_
  refine along_bind (modify_conduct fun _ => rfl) fun _ => ?_
  refine along_bind emitKeyingMaterial_conduct fun _ => ?_
  exact along_bind (withEngine_conduct (along_modify conduct.release)) fun _ => along_pure

theorem awaitApplicationData_conduct : Along (InvImage (Conducted R) Server.stamped) awaitApplicationData := by
  refine along_get_bind fun s => ?_
  have unchanged : InvImage (Conducted R) Server.stamped s { s with queuedData := [] } := Std.Refl.refl s.stamped
  rw [post_ite]
  refine ⟨fun _ => ?_, fun _ => ?_⟩
  · have closing : Along (InvImage (Conducted R) Server.stamped) (do
        withEngine (modify Engine.discardPendingWrites)
        withEngine (createRecord .alert 1 false closeNotifyAlert)
        return State.closed) := by
      refine along_bind (withEngine_conduct (along_modify conduct.discard)) fun _ => ?_
      exact along_bind (withEngine_conduct conduct.createRecord) fun _ => along_pure
    exact closing s
  · rw [post_bind, post_set]
    refine Along.after ?_ unchanged
    exact along_bind (withEngine_conduct (sendQueued_conduct conduct)) fun _ => along_pure

/-- Every handler of a server. -/
theorem handlers_conduct (state : State) : Along (InvImage (Conducted R) Server.stamped) state.makeProgress := by
  cases state with
  | awaitClientHello => exact awaitClientHello_conduct conduct
  | sendServerHello => exact sendServerHello_conduct conduct
  | sendCertificate =>
      exact along_bind (withEngine_conduct (conduct.createHandshake (withContext_conduct conduct)))
        fun _ => along_pure
  | sendServerKeyExchange => exact sendServerKeyExchange_conduct conduct
  | sendCertificateRequest =>
      refine along_bind along_get fun s => ?_
      exact along_bind (withEngine_conduct (conduct.createHandshake along_pure)) fun _ => along_pure
  | sendServerHelloDone => exact sendServerHelloDone_conduct conduct
  | awaitCertificate => exact awaitCertificate_conduct conduct
  | awaitClientKeyExchange => exact awaitClientKeyExchange_conduct conduct
  | awaitCertificateVerify => exact awaitCertificateVerify_conduct conduct
  | awaitChangeCipherSpec => exact awaitChangeCipherSpec_conduct conduct
  | awaitFinished => exact awaitFinished_conduct conduct
  | sendChangeCipherSpec =>
      refine along_bind (withEngine_conduct (along_modify conduct.flightBegin)) fun _ => ?_
      exact along_bind (withEngine_conduct conduct.createRecord) fun _ => along_pure
  | sendFinished => exact sendFinished_conduct conduct
  | awaitApplicationData => exact awaitApplicationData_conduct conduct
  | closed => exact along_pure

/-- `make_progress` of a server. -/
theorem makeProgress_conduct : Along (InvImage (Conducted R) Server.stamped) makeProgress := by
  have loop : ∀ fuel, Along (InvImage (Conducted R) Server.stamped) (progressLoop fuel) := by
    intro fuel
    induction fuel with
    | zero => exact along_throw
    | succ fuel inductionHypothesis =>
        refine along_bind along_get fun s => along_bind (handlers_conduct conduct s.state) fun next => ?_
        refine along_ite (fun _ => along_pure) fun _ => ?_
        exact along_bind (modify_conduct fun _ => rfl) fun _ => inductionHypothesis
  exact loop 20

omit conduct in
theorem pollOutput_conduct (conducts : Conducts R) {bufLen : Nat} :
    Along (InvImage (Conducted R) Server.stamped) (pollOutput bufLen) := by
  refine along_get_bind fun s => ?_
  split
  · rename_i event rest queued
    have unchanged : InvImage (Conducted R) Server.stamped s { s with localEvents := rest } :=
      Std.Refl.refl s.stamped
    rw [post_bind, post_set]
    exact LocalEvent.intoOutput_readOnly.along.after unchanged
  · exact withEngine_conduct conducts.pollOutput s

omit conduct in
/-- Every call but a timeout. -/
theorem call_conduct (conducts : Conducts R) {call : Call} (noTimeout : call.tick = none) :
    Along (InvImage (Conducted R) Server.stamped) call.program := by
  cases call with
  | handlePacket packet =>
      refine along_publicResult (along_bind (withEngine_conduct conducts.receivePacket) fun _ => ?_)
      exact makeProgress_conduct conducts.toConduct
  | handleTimeout now => cases noTimeout
  | pollOutput bufLen => exact along_bind (pollOutput_conduct conducts) fun _ => along_pure
  | sendApplicationData data =>
      refine along_get_bind fun s => ?_
      have same : Conducted R s.stamped s.stamped := Std.Refl.refl s.stamped
      rw [post_ite, post_ite]
      refine ⟨fun _ => same, fun _ => ⟨fun _ => same, fun _ => ?_⟩⟩
      exact withEngine_conduct conducts.createRecord s
  | close =>
      refine along_get_bind fun s => ?_
      have same : Conducted R s.stamped s.stamped := Std.Refl.refl s.stamped
      rw [post_ite, post_ite]
      refine ⟨fun _ => same, fun _ => ⟨fun _ => ⟨rfl, conducts.abort s.engine⟩, fun _ => ?_⟩⟩
      have sent : Along (InvImage (Conducted R) Server.stamped) (do
          withEngine (createRecord .alert 1 false closeNotifyAlert)
          modify fun (s : Server) => { s with state := .closed }) :=
        along_bind (withEngine_conduct conducts.createRecord) fun _ => modify_conduct fun _ => rfl
      exact sent s

end Server

section Timeouts

variable (timeout : ∀ {now}, Along R (Engine.handleTimeout now))

include timeout

/-- Every call on a client moves its engine along the relation. -/
theorem Client.exec_conduct (conducts : Conducts R) {c : Client} {call : Client.Call} :
    R c.engine (c.exec call).engine := by
  cases isTick : call.tick with
  | none => exact ((Client.call_conduct conducts isTick).finalState c).2
  | some now =>
      cases call with
      | handleTimeout now' =>
          have onEngine : ∀ {α : Type} {program : EngineM α}, Along R program →
              Along (InvImage R Client.engine) (Client.withEngine program) :=
            fun along => along_zoom along fun _ _ moved => moved
          have noted : ∀ f : Client → Client, (∀ c, (f c).engine = c.engine) →
              Along (InvImage R Client.engine) (modify f : ClientM PUnit) := by
            intro f same
            refine along_modify fun c => ?_
            unfold InvImage
            rw [same]
            exact Std.Refl.refl _
          have drawn : Along (InvImage R Client.engine) (Client.initRandom now') := by
            refine along_bind along_get fun c => ?_
            split
            · exact along_pure
            · refine along_bind (onEngine ?_) fun _ => noted _ fun _ => rfl
              exact along_bind (randomArr_conduct conducts.toConduct) fun _ => along_pure
          have timed : Along (InvImage R Client.engine) (Client.handleTimeout now') := by
            refine along_bind (noted _ fun _ => rfl) fun _ => along_bind drawn fun _ => ?_
            refine along_bind (onEngine timeout) fun _ => ?_
            have progress := Client.makeProgress_conduct conducts.toConduct
            exact along_publicResult (progress.mono fun _ _ moved => moved.2)
          exact timed.finalState c
      | _ => cases isTick

/-- Every call on a server moves its engine along the relation. -/
theorem Server.exec_conduct (conducts : Conducts R) {s : Server} {call : Server.Call} :
    R s.engine (s.exec call).engine := by
  cases isTick : call.tick with
  | none => exact ((Server.call_conduct conducts isTick).finalState s).2
  | some now =>
      cases call with
      | handleTimeout now' =>
          have onEngine : ∀ {α : Type} {program : EngineM α}, Along R program →
              Along (InvImage R Server.engine) (Server.withEngine program) :=
            fun along => along_zoom along fun _ _ moved => moved
          have noted : ∀ f : Server → Server, (∀ s, (f s).engine = s.engine) →
              Along (InvImage R Server.engine) (modify f : ServerM PUnit) := by
            intro f same
            refine along_modify fun s => ?_
            unfold InvImage
            rw [same]
            exact Std.Refl.refl _
          have drawn : Along (InvImage R Server.engine) (Server.initRandom now') := by
            refine along_bind along_get fun s => ?_
            split
            · exact along_pure
            · refine along_bind (onEngine ?_) fun _ => noted _ fun _ => rfl
              exact along_bind (randomArr_conduct conducts.toConduct) fun _ => along_pure
          have timed : Along (InvImage R Server.engine) (Server.handleTimeout now') := by
            refine along_bind (noted _ fun _ => rfl) fun _ => along_bind drawn fun _ => ?_
            refine along_bind (onEngine timeout) fun _ => ?_
            have progress := Server.makeProgress_conduct conducts.toConduct
            exact along_publicResult (progress.mono fun _ _ moved => moved.2)
          exact timed.finalState s
      | _ => cases isTick

end Timeouts

end Endpoints

end Dimpl.Dtls12
