import Dimpl.Dtls13.ServerRun

/-!
# What is settled stays

The settings and the certificate of an endpoint never change. The suite and the profile of
a server are those of the hello it accepted: all handlers behind that of the hello keep
them.
-/

set_option linter.unusedSectionVars false

namespace Dimpl.Dtls13

open Nom Program

/-- What an engine is set up with, and its suite. -/
structure Ground where
  config : Config
  certificate : DtlsCertificate
  cipherSuite : Option Dtls13CipherSuite

/-- The ground of an engine. -/
def Engine.ground (e : Engine) : Ground := ⟨e.config, e.certificate, e.cipherSuite⟩

/-- What is settled between the endpoints. -/
structure Terms where
  ground : Ground
  profile : Option SrtpProfile

section Engines

variable {busy : Prop}

theorem Frame.ground {e e' : Engine} (frame : Frame busy e e') : e'.ground = e.ground :=
  congrArg (fun fixed : Fixed => (⟨fixed.config, fixed.certificate, fixed.cipherSuite⟩ : Ground))
    frame.fixed

theorem ground_of_frame {α : Type} {program : EngineM α} (framed : Along (Frame busy) program) :
    Along (Keeps Engine.ground) program :=
  framed.mono fun _ _ frame => frame.ground

end Engines

/-- A check that keeps to what was offered: a signature is of one of the schemes. -/
def Check.Offered : Check → Prop
  | .signature _ _ _ _ scheme => scheme.isSupported = true
  | _ => True

namespace Endpoint

/-- The terms of an endpoint. -/
def terms (p : Endpoint) : Terms := ⟨p.engine.ground, p.negotiatedSrtpProfile⟩

/-- What a relation of endpoints has to allow, to hold along programs that settle nothing. -/
structure Regards (R : Endpoint → Endpoint → Prop) : Prop where
  still : ∀ {p p' : Endpoint}, p'.terms = p.terms → p'.log = p.log → R p p'
  checked : ∀ {p : Endpoint} {check : Check}, check.Offered → R p { p with log := p.log ++ [check] }

theorem terms_regards : Regards (Keeps terms) := ⟨fun same _ => same, fun _ => rfl⟩

section Regards

variable {R : Endpoint → Endpoint → Prop} [Std.Refl R] [IsTrans Endpoint R] (regards : Regards R)

include regards

theorem withEngine_regards {α : Type} {program : EngineM α} (keeps : Along (Keeps Engine.ground) program) :
    Along R (withEngine program) :=
  along_zoom keeps fun p engine same => by
    have isSame : engine.ground = p.engine.ground := same
    exact regards.still (by simp [terms, isSame]) rfl

/-- A program over the frame of the engine. -/
theorem framed_regards {α : Type} {program : EngineM α} (framed : Along (Frame True) program) :
    Along R (withEngine program) :=
  withEngine_regards regards (ground_of_frame framed)

theorem modify_regards {f : Endpoint → Endpoint} (same : ∀ p, (f p).terms = p.terms)
    (log : ∀ p, (f p).log = p.log) : Along R (modify f : EndpointM PUnit) :=
  along_modify fun p => regards.still (same p) (log p)

theorem logCheck_regards {check : Check} (offered : check.Offered) : Along R (logCheck check) :=
  along_modify fun _ => regards.checked offered

theorem advance_regards : Along R (withEngine (modify Engine.advancePeerHandshakeSeq)) :=
  withEngine_regards regards (along_modify fun _ => rfl)

theorem startExchange_regards {kx : SupportedKxGroup} : Along R (startExchange kx) := by
  refine along_get_bind fun p => ?_
  dsimp only
  rw [post_bind, post_set]
  exact along_liftCrypto.after (regards.still rfl rfl)

theorem installHandshakeSecrets_regards {sharedSecret : Bytes} :
    Along R (installHandshakeSecrets sharedSecret) := by
  refine along_bind (withEngine_regards regards deriveHandshakeSecrets_readOnly.along) fun secrets => ?_
  exact along_bind (modify_regards regards (fun _ => rfl) fun _ => rfl) fun _ =>
    framed_regards regards installHandshakeKeys_frame

theorem installApplicationSecrets_regards : Along R installApplicationSecrets := by
  refine along_bind along_get fun p => along_bind along_orThrow fun _ => ?_
  refine along_bind (framed_regards regards deriveApplicationSecrets_frame) fun _ => ?_
  exact framed_regards regards installApplicationKeys_frame

theorem takeCertificates_regards {certificate : Certificate} {buffer : Bytes} :
    Along R (takeCertificates certificate buffer) := by
  refine along_bind (modify_regards regards (fun _ => rfl) fun _ => rfl) fun _ => ?_
  refine along_bind (logCheck_regards regards trivial) fun _ => ?_
  exact along_bind along_get fun _ => along_ite (fun _ => along_pure) fun _ =>
    modify_regards regards (fun _ => rfl) fun _ => rfl

/-- A signature that is accepted is of a scheme that was offered. -/
theorem checkCertificateVerify_regards {label : String} {missing : CertificateError}
    {transcript transcriptHash : Bytes} {signed : DigitallySigned} {buffer : Bytes} :
    Along R (checkCertificateVerify label missing transcript transcriptHash signed buffer) := by
  refine along_bind along_get fun p => ?_
  dsimp only
  split
  · exact along_throw
  · rename_i passes
    have supported : signed.scheme.isSupported = true := by
      unfold refuseSignature at passes
      split_ifs at passes with refused
      all_goals simpa using refused
    refine along_bind (withEngine_regards regards verifySignature_readOnly.along) fun _ => ?_
    exact along_bind (logCheck_regards regards supported) fun _ => advance_regards regards

theorem checkFinished_regards {failed : SecurityError} {transcript expected verifyData : Bytes} :
    Along R (checkFinished failed transcript expected verifyData) :=
  along_ite (fun _ => along_throw) fun _ =>
    along_bind (logCheck_regards regards trivial) fun _ => advance_regards regards

theorem completeHandshake_regards : Along R completeHandshake := by
  have pushes : ∀ event, Along R (pushEvent event) := fun _ =>
    modify_regards regards (fun _ => rfl) fun _ => rfl
  refine along_bind (pushes _) fun _ => along_bind ?_ fun _ =>
    withEngine_regards regards (along_modify fun _ => rfl)
  refine along_bind along_get fun p => ?_
  split
  · exact along_pure
  · split
    · exact pushes _
    · exact along_throw
    · exact along_pure

theorem onKeyUpdate_regards {handle : KeyUpdateRequest → EndpointM Unit}
    (handles : ∀ request, Along R (handle request)) : Along R (onKeyUpdate handle) := by
  refine along_bind (framed_regards regards nextHandshakeWithOptions_frame) fun found => ?_
  cases found with
  | none => exact along_pure
  | some message =>
      dsimp only
      split
      · exact handles _
      · exact along_throw

theorem awaitApplicationData_regards : Along R awaitApplicationData := by
  have needed : Along R (withEngine needsKeyUpdate) := by
    refine framed_regards regards (along_get_bind fun e => ?_)
    rw [post_bind, post_set]
    exact .of_same rfl rfl rfl
  have queued : Along R sendQueuedData := by
    refine along_get_bind fun p => ?_
    rw [post_bind, post_set]
    exact (framed_regards regards sendQueued_frame).after (regards.still rfl rfl)
  refine along_bind (along_bind needed fun _ => along_bind along_get fun _ => ?_) fun _ =>
    along_bind queued fun _ => along_bind ?_ fun _ => onKeyUpdate_regards regards fun _ => ?_
  · exact framed_regards regards (along_runIf fun _ => createKeyUpdate_frame)
  · refine along_bind along_get fun p => along_ite (fun _ => ?_) fun _ => along_pure
    exact along_bind (framed_regards regards createKeyUpdate_frame) fun _ =>
      modify_regards regards (fun _ => rfl) fun _ => rfl
  · refine along_bind (framed_regards regards updateRecvKeys_frame) fun _ => ?_
    refine along_bind (framed_regards regards sendAck_frame) fun _ => ?_
    exact along_bind (modify_regards regards (fun _ => rfl) fun _ => rfl) fun _ => advance_regards regards

theorem halfClosedLocal_regards : Along R halfClosedLocal := by
  refine along_bind (onKeyUpdate_regards regards fun _ => ?_) fun _ =>
    along_bind along_get fun _ => along_pure
  exact along_bind (framed_regards regards updateRecvKeys_frame) fun _ => advance_regards regards

theorem handleTimeout_regards {now : Instant} : Along R (handleTimeout now) := by
  have timed : Along (Keeps Engine.ground) (Engine.handleTimeout now) := by
    intro e
    have armed : (e.armTimers now).ground = e.ground := rfl
    have framed : Post (Engine.handleTimeout now) e (fun _ e' => Frame True (e.armTimers now) e')
        (fun _ e' => Frame True (e.armTimers now) e') := handleTimeout_frame
    exact framed.mono (fun _ _ moved => moved.ground.trans armed) fun _ _ moved =>
      moved.ground.trans armed
  refine along_bind (modify_regards regards (fun _ => rfl) fun _ => rfl) fun _ => along_bind ?_ fun _ =>
    withEngine_regards regards timed
  refine along_bind along_get fun p => ?_
  split
  · exact along_pure
  · refine along_bind (withEngine_regards regards ?_) fun _ =>
      modify_regards regards (fun _ => rfl) fun _ => rfl
    refine along_bind (along_get_bind fun e => ?_) fun _ => along_pure
    rfl

theorem pollOutput_regards {bufLen : Nat} : Along R (pollOutput bufLen) := by
  refine along_get_bind fun p => ?_
  split
  · rw [post_bind, post_set]
    exact (intoOutput_readOnly.along).after (regards.still rfl rfl)
  · exact framed_regards regards pollOutput_frame p

theorem closeWrite_regards : Along R closeWrite :=
  along_bind along_get fun _ =>
    along_bind (framed_regards regards createCiphertextRecord_frame) fun _ =>
      withEngine_regards regards (along_modify fun _ => rfl)

theorem sendData_regards {data : Bytes} : Along R (sendData data) :=
  along_bind along_get fun _ => framed_regards regards createCiphertextRecord_frame

end Regards

end Endpoint

namespace Server

/-- The terms of a server. -/
def terms (s : Server) : Terms := s.endpoint.terms

section Handlers

theorem withEndpoint_terms {α : Type} {program : EndpointM α}
    (keeps : Along (Keeps Endpoint.terms) program) : Along (Keeps terms) (withEndpoint program) :=
  along_zoom keeps fun _ _ same => same

theorem framed_terms {α : Type} {program : EngineM α} (framed : Along (Frame True) program) :
    Along (Keeps terms) (withEngine program) :=
  withEndpoint_terms (Endpoint.framed_regards Endpoint.terms_regards framed)

/-- A change of the engine that keeps its ground. -/
theorem change_terms {f : Engine → Engine} (same : ∀ e, (f e).ground = e.ground) :
    Along (Keeps terms) (withEngine (modify f)) :=
  withEndpoint_terms (Endpoint.withEngine_regards Endpoint.terms_regards (along_modify same))

theorem createHandshake_terms {type : MessageType} {writeBody : EngineM Bytes}
    (framed : Along (Frame True) writeBody) :
    Along (Keeps terms) (withEngine (createHandshake type writeBody)) :=
  framed_terms (createHandshake_frame framed)

section Regards

variable {R : Endpoint → Endpoint → Prop} [Std.Refl R] [IsTrans Endpoint R]
  (regards : Endpoint.Regards R)

theorem withEndpoint_regards {α : Type} {program : EndpointM α} (along : Along R program) :
    Along (InvImage R Server.endpoint) (withEndpoint program) :=
  along_zoom along fun _ _ moved => moved

include regards

theorem framed_regards {α : Type} {program : EngineM α} (framed : Along (Frame True) program) :
    Along (InvImage R Server.endpoint) (withEngine program) :=
  withEndpoint_regards (Endpoint.framed_regards regards framed)

/-- A change of the engine that keeps its ground. -/
theorem change_regards {f : Engine → Engine} (same : ∀ e, (f e).ground = e.ground) :
    Along (InvImage R Server.endpoint) (withEngine (modify f)) :=
  withEndpoint_regards (Endpoint.withEngine_regards regards (along_modify same))

theorem modify_regards {f : Server → Server} (same : ∀ s, (f s).terms = s.terms)
    (log : ∀ s, (f s).endpoint.log = s.endpoint.log) :
    Along (InvImage R Server.endpoint) (modify f : ServerM PUnit) :=
  along_modify fun s => regards.still (same s) (log s)

theorem advance_regards {next : State} : Along (InvImage R Server.endpoint) (advance next) :=
  along_bind (change_regards regards fun _ => rfl) fun _ => along_pure

theorem onMessage_regards {program : EngineM (Option (Handshake × Bytes))} {stay : State}
    {handle : Body → Bytes → ServerM State} (framed : Along (Frame True) program)
    (handles : ∀ body buffer, Along (InvImage R Server.endpoint) (handle body buffer)) :
    Along (InvImage R Server.endpoint) (onMessage program stay handle) := by
  refine along_bind (framed_regards regards framed) fun found => ?_
  cases found with
  | none => exact along_pure
  | some message => exact handles _ _

theorem createHandshake_regards {type : MessageType} {writeBody : EngineM Bytes}
    (framed : Along (Frame True) writeBody) :
    Along (InvImage R Server.endpoint) (withEngine (createHandshake type writeBody)) :=
  framed_regards regards (createHandshake_frame framed)

theorem sendServerHello_regards : Along (InvImage R Server.endpoint) sendServerHello := by
  refine along_get_bind fun s => ?_
  rw [post_bind, post_orThrow]
  refine ⟨fun random _ => ?_, fun _ => Std.Refl.refl s.endpoint⟩
  rw [post_bind, post_orThrow]
  refine ⟨fun stored _ => ?_, fun _ => Std.Refl.refl s.endpoint⟩
  rw [post_bind, post_set]
  have unchanged : InvImage R Server.endpoint s { s with extensionData := stored.2 } :=
    Std.Refl.refl s.endpoint
  refine Along.after ?_ unchanged
  refine along_bind (change_regards regards fun _ => rfl) fun _ => ?_
  refine along_bind (createHandshake_regards regards createServerHello_frame) fun _ => ?_
  refine along_bind along_get fun s => along_bind along_orThrow fun _ => ?_
  refine along_bind (modify_regards regards (fun _ => rfl) fun _ => rfl) fun _ => ?_
  exact along_bind (withEndpoint_regards (Endpoint.installHandshakeSecrets_regards regards)) fun _ =>
    along_pure

theorem awaitCertificate_regards : Along (InvImage R Server.endpoint) awaitCertificate := by
  refine onMessage_regards regards nextHandshakeWithOptions_frame fun body buffer => ?_
  split
  · refine along_ite (fun _ => ?_) fun _ => ?_
    · exact along_bind (change_regards regards fun _ => rfl) fun _ =>
        along_bind (change_regards regards fun _ => rfl) fun _ => along_pure
    · refine along_bind (withEndpoint_regards (Endpoint.takeCertificates_regards regards)) fun _ => ?_
      exact along_bind (change_regards regards fun _ => rfl) fun _ => advance_regards regards
  · exact along_throw

theorem awaitFinished_regards : Along (InvImage R Server.endpoint) awaitFinished := by
  refine along_bind along_get fun s => along_bind along_get fun s => along_bind along_orThrow fun _ => ?_
  refine along_bind (framed_regards regards computeVerifyData_readOnly.along) fun _ => ?_
  refine onMessage_regards regards nextHandshakeWithOptions_frame fun body buffer => ?_
  split
  · refine along_bind (withEndpoint_regards (Endpoint.checkFinished_regards regards)) fun _ => ?_
    refine along_bind (framed_regards regards sendAck_frame) fun _ => ?_
    refine along_bind (change_regards regards fun _ => rfl) fun _ => ?_
    exact along_bind (withEndpoint_regards (Endpoint.completeHandshake_regards regards)) fun _ =>
      along_pure
  · exact along_throw

/-- Behind the hello nothing is settled any more. -/
theorem handlers_regards {state : State} (later : state ≠ .awaitClientHello) :
    Along (InvImage R Server.endpoint) state.makeProgress := by
  cases state with
  | awaitClientHello => exact absurd rfl later
  | sendServerHello => exact sendServerHello_regards regards
  | sendEncryptedExtensions =>
      refine along_bind along_get fun s => ?_
      refine along_bind (createHandshake_regards regards along_pure) fun _ => ?_
      exact along_bind along_get fun _ => along_pure
  | sendCertificateRequest =>
      refine along_bind (createHandshake_regards regards along_pure) fun _ => ?_
      refine along_bind (withEndpoint_regards ?_) fun _ => along_pure
      exact Endpoint.modify_regards regards (fun _ => rfl) fun _ => rfl
  | sendCertificate =>
      exact along_bind (createHandshake_regards regards createCertificate_frame) fun _ => along_pure
  | sendCertificateVerify =>
      exact along_bind (createHandshake_regards regards createCertificateVerify_frame) fun _ => along_pure
  | sendFinished =>
      refine along_bind along_get fun s => along_bind along_orThrow fun _ => ?_
      refine along_bind (createHandshake_regards regards computeVerifyData_readOnly.along) fun _ => ?_
      refine along_bind (withEndpoint_regards (Endpoint.installApplicationSecrets_regards regards))
        fun _ => ?_
      refine along_bind (framed_regards regards enablePeerEncryption_frame) fun _ => ?_
      exact along_bind along_get fun _ => along_pure
  | awaitCertificate => exact awaitCertificate_regards regards
  | awaitCertificateVerify =>
      refine along_bind along_get fun s => ?_
      refine along_bind (framed_regards regards transcriptHash_readOnly.along) fun _ => ?_
      refine onMessage_regards regards nextHandshakeWithOptions_frame fun body buffer => ?_
      split
      · exact along_bind (withEndpoint_regards (Endpoint.checkCertificateVerify_regards regards))
          fun _ => along_pure
      · exact along_throw
  | awaitFinished => exact awaitFinished_regards regards
  | awaitApplicationData =>
      exact along_bind (withEndpoint_regards (Endpoint.awaitApplicationData_regards regards)) fun _ =>
        along_pure
  | halfClosedLocal =>
      exact along_bind (withEndpoint_regards (Endpoint.halfClosedLocal_regards regards)) fun _ =>
        along_pure
  | closed => exact along_pure

end Regards

/-- Behind the hello the terms stay. -/
theorem handlers_terms {state : State} (later : state ≠ .awaitClientHello) :
    Along (Keeps terms) state.makeProgress :=
  handlers_regards Endpoint.terms_regards later

end Handlers

end Server

end Dimpl.Dtls13
