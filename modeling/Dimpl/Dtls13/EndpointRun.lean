import Dimpl.Deadline
import Dimpl.Dtls13.Endpoint
import Dimpl.Dtls13.Engine.Frame

/-!
# What an endpoint keeps

Most handlers of a client and of a server leave the settings, the deadline of the
handshake and the release of application data alone, and once the hellos are over
also the suite, the secrets and what is in the transcript.
-/

namespace Dimpl.Dtls13

open Nom Program

/-- What an engine keeps; the suite and the transcript are settled only when the
hellos are over. -/
structure Steady (early busy : Prop) (e e' : Engine) : Prop where
  config : e'.config = e.config
  deadline : e'.connectTimeout = e.connectTimeout
  released : e'.releaseAppData = e.releaseAppData
  log : e.log <+: e'.log
  known : e.cipherSuite.isSome = true → e'.cipherSuite.isSome = true
  suite : ¬early → e'.cipherSuite = e.cipherSuite
  transcript : ¬early → e.transcript <+: e'.transcript
  still : ¬early → ¬busy → e'.transcript = e.transcript ∧ e'.readTypes = e.readTypes

/-- What an endpoint keeps. -/
structure Endures (early busy : Prop) (p p' : Endpoint) : Prop where
  engine : Steady early busy p.engine p'.engine
  certificates : p'.peerCertificates = p.peerCertificates
  events : LocalEvent.connected ∈ p'.localEvents → LocalEvent.connected ∈ p.localEvents
  auth : p'.clientAuthRequested = p.clientAuthRequested
  secrets : ¬early → p'.clientHsTrafficSecret = p.clientHsTrafficSecret ∧
    p'.serverHsTrafficSecret = p.serverHsTrafficSecret

/-- The connection is reported or about to be. -/
def Reported (p : Endpoint) : Prop :=
  p.engine.releaseAppData = true ∨ LocalEvent.connected ∈ p.localEvents

section Steady

variable {early busy : Prop} {e e' : Engine}

theorem Steady.refl (e : Engine) : Steady early busy e e :=
  ⟨rfl, rfl, rfl, List.prefix_rfl, id, fun _ => rfl, fun _ => List.prefix_rfl, fun _ _ => ⟨rfl, rfl⟩⟩

instance : Std.Refl (Steady early busy) := ⟨Steady.refl⟩

instance : IsTrans Engine (Steady early busy) :=
  ⟨fun _ _ _ first second =>
    { config := second.config.trans first.config
      deadline := second.deadline.trans first.deadline
      released := second.released.trans first.released
      log := first.log.trans second.log
      known := fun isSome => second.known (first.known isSome)
      suite := fun late => (second.suite late).trans (first.suite late)
      transcript := fun late => (first.transcript late).trans (second.transcript late)
      still := fun late idle =>
        ⟨(second.still late idle).1.trans (first.still late idle).1,
          (second.still late idle).2.trans (first.still late idle).2⟩ }⟩

theorem Steady.weaken {early' busy' : Prop} (steady : Steady early busy e e')
    (weaker : early → early') (busier : busy → busy') : Steady early' busy' e e' where
  config := steady.config
  deadline := steady.deadline
  released := steady.released
  log := steady.log
  known := steady.known
  suite := fun late => steady.suite fun isEarly => late (weaker isEarly)
  transcript := fun late => steady.transcript fun isEarly => late (weaker isEarly)
  still := fun late idle =>
    steady.still (fun isEarly => late (weaker isEarly)) fun isBusy => idle (busier isBusy)

theorem Frame.steady (frame : Frame busy e e') : Steady early busy e e' where
  config := frame.config
  deadline := frame.connectTimeout
  released := frame.releaseAppData
  log := frame.log
  known := fun isSome => frame.cipherSuite ▸ isSome
  suite := fun _ => frame.cipherSuite
  transcript := fun _ => frame.transcript
  still := fun _ => frame.still

/-- What is promised of the deadline stays true. -/
theorem Steady.due (steady : Steady early busy e e') {due : Promise}
    (promised : due e.config.handshakeTimeout e.connectTimeout) :
    due e'.config.handshakeTimeout e'.connectTimeout := by
  rw [steady.config, steady.deadline]
  exact promised

theorem Engine.armTimers_connect {now : Instant} :
    (e.armTimers now).connectTimeout =
      e.connectTimeout.arm e.config.handshakeTimeout (some now) := by
  unfold Engine.armTimers Timeout.arm
  cases e.connectTimeout <;> rfl

theorem advancePeerHandshakeSeq_steady : Steady early busy e e.advancePeerHandshakeSeq :=
  ⟨rfl, rfl, rfl, List.prefix_rfl, id, fun _ => rfl, fun _ => List.prefix_rfl, fun _ _ => ⟨rfl, rfl⟩⟩

theorem flightBegin_steady : Steady early busy e e.flightBegin :=
  ⟨rfl, rfl, rfl, List.prefix_rfl, id, fun _ => rfl, fun _ => List.prefix_rfl, fun _ _ => ⟨rfl, rfl⟩⟩

/-- A change of the suite or the transcript among the hellos. -/
theorem Steady.of_early (isEarly : early) (config : e'.config = e.config)
    (deadline : e'.connectTimeout = e.connectTimeout)
    (released : e'.releaseAppData = e.releaseAppData) (log : e'.log = e.log)
    (known : e.cipherSuite.isSome = true → e'.cipherSuite.isSome = true) : Steady early busy e e' :=
  ⟨config, deadline, released, by rw [log], known, fun late => absurd isEarly late,
    fun late => absurd isEarly late, fun late => absurd isEarly late⟩

theorem setCipherSuite_steady {suite : Dtls13CipherSuite} :
    Along (Steady True busy) (modify (Engine.setCipherSuite suite) : EngineM PUnit) :=
  along_modify fun _ => .of_early trivial rfl rfl rfl rfl fun _ => rfl

theorem replaceTranscriptWithMessageHash_steady (isEarly : early) {splitAt : Nat} :
    Along (Steady early busy) (replaceTranscriptWithMessageHash splitAt) := by
  refine along_get_bind fun e => ?_
  rw [post_bind]
  refine (transcriptHashOf_readOnly e).mono ?_ fun _ _ same => same ▸ .refl e
  rintro hash _ rfl
  exact .of_early isEarly rfl rfl rfl rfl id

end Steady

section Endures

variable {early busy : Prop} {p p' : Endpoint}

theorem Endures.refl (p : Endpoint) : Endures early busy p p :=
  ⟨.refl _, rfl, id, rfl, fun _ => ⟨rfl, rfl⟩⟩

instance : Std.Refl (Endures early busy) := ⟨Endures.refl⟩

instance : IsTrans Endpoint (Endures early busy) :=
  ⟨fun _ _ _ first second =>
    { engine := IsTrans.trans _ _ _ first.engine second.engine
      certificates := second.certificates.trans first.certificates
      events := fun later => first.events (second.events later)
      auth := second.auth.trans first.auth
      secrets := fun late =>
        ⟨(second.secrets late).1.trans (first.secrets late).1,
          (second.secrets late).2.trans (first.secrets late).2⟩ }⟩

theorem Endures.weaken {early' busy' : Prop} (endures : Endures early busy p p')
    (weaker : early → early') (busier : busy → busy') : Endures early' busy' p p' :=
  ⟨endures.engine.weaken weaker busier, endures.certificates, endures.events, endures.auth,
    fun late => endures.secrets fun isEarly => late (weaker isEarly)⟩

theorem Reported.before (reported : Reported p') (endures : Endures early busy p p') : Reported p := by
  rcases reported with released | event
  · exact .inl (endures.engine.released ▸ released)
  · exact .inr (endures.events event)

namespace Endpoint

/-- A change of the engine only. -/
theorem endures_engine {engine : Engine} (steady : Steady early busy p.engine engine) :
    Endures early busy p { p with engine } :=
  ⟨steady, rfl, id, rfl, fun _ => ⟨rfl, rfl⟩⟩

theorem withEngine_endures {α : Type} {program : EngineM α}
    (steady : Along (Steady early busy) program) : Along (Endures early busy) (withEngine program) :=
  along_zoom steady fun _ _ moved => endures_engine moved

/-- A program that leaves the frame of the engine alone. -/
theorem withEngine_framed {α : Type} {program : EngineM α} (framed : Along (Frame busy) program) :
    Along (Endures early busy) (withEngine program) :=
  withEngine_endures (framed.mono fun _ _ frame => frame.steady)

theorem withEngine_readOnly {α : Type} {program : EngineM α} (readOnly : ReadOnly program) :
    Along (Endures early busy) (withEngine program) :=
  withEngine_endures readOnly.along

theorem advance_endures :
    Along (Endures early busy) (withEngine (modify Engine.advancePeerHandshakeSeq)) :=
  withEngine_endures (along_modify fun _ => advancePeerHandshakeSeq_steady)

theorem flightBegin_endures : Along (Endures early busy) (withEngine (modify Engine.flightBegin)) :=
  withEngine_endures (along_modify fun _ => flightBegin_steady)

theorem logCheck_endures {check : Check} : Along (Endures early busy) (logCheck check) :=
  along_modify fun _ => ⟨.refl _, rfl, id, rfl, fun _ => ⟨rfl, rfl⟩⟩

/-- Any event but the one that reports the connection. -/
theorem pushEvent_endures {event : LocalEvent} (other : event ≠ .connected) :
    Along (Endures early busy) (pushEvent event) := by
  refine along_modify fun p => ⟨.refl _, rfl, fun later => ?_, rfl, fun _ => ⟨rfl, rfl⟩⟩
  rcases List.mem_append.mp later with before | isNew
  · exact before
  · exact absurd (List.mem_singleton.mp isNew).symm other

theorem startExchange_endures {kx : SupportedKxGroup} :
    Along (Endures early busy) (startExchange kx) := by
  refine along_get_bind fun p => ?_
  dsimp only
  rw [post_bind, post_set]
  exact along_liftCrypto.after ⟨.refl _, rfl, id, rfl, fun _ => ⟨rfl, rfl⟩⟩

/-- The secrets change among the hellos. -/
theorem installHandshakeSecrets_endures (isEarly : early) {sharedSecret : Bytes} :
    Along (Endures early busy) (installHandshakeSecrets sharedSecret) := by
  refine along_bind (withEngine_readOnly deriveHandshakeSecrets_readOnly) fun secrets => ?_
  refine along_bind (along_modify fun p => ?_) fun _ => withEngine_framed installHandshakeKeys_frame
  exact ⟨.refl _, rfl, id, rfl, fun late => absurd isEarly late⟩

theorem installApplicationSecrets_endures :
    Along (Endures early busy) installApplicationSecrets := by
  refine along_bind along_get fun p => along_bind along_orThrow fun _ => ?_
  refine along_bind (withEngine_framed deriveApplicationSecrets_frame) fun _ => ?_
  exact withEngine_framed installApplicationKeys_frame

/-- Taking over certificates adds them and cannot fail. -/
theorem takeCertificates_post {certificate : Certificate} {buffer : Bytes} :
    Post (takeCertificates certificate buffer) p
      (fun _ p' => p'.peerCertificates = p.peerCertificates ++
          certificate.certificateList.map (fun entry => slice buffer entry.cert) ∧
        Endures False False p { p' with peerCertificates := p.peerCertificates })
      (fun _ _ => False) := by
  unfold takeCertificates logCheck pushEvent
  simp only [post_bind, post_modify, post_get, post_ite, post_pure]
  refine ⟨fun _ => ⟨trivial, .refl _, rfl, id, rfl, fun _ => ⟨rfl, rfl⟩⟩,
    fun _ => ⟨trivial, .refl _, rfl, fun later => ?_, rfl, fun _ => ⟨rfl, rfl⟩⟩⟩
  rcases List.mem_append.mp later with before | isNew
  · exact before
  · cases List.mem_singleton.mp isNew

theorem checkCertificateVerify_endures {label : String} {missing : CertificateError}
    {transcript transcriptHash : Bytes} {signed : DigitallySigned} {buffer : Bytes} :
    Along (Endures early busy)
      (checkCertificateVerify label missing transcript transcriptHash signed buffer) := by
  refine along_bind along_get fun p => ?_
  dsimp only
  split
  · exact along_throw
  · refine along_bind (withEngine_readOnly verifySignature_readOnly) fun _ => ?_
    exact along_bind logCheck_endures fun _ => advance_endures

theorem checkFinished_endures {failed : SecurityError} {transcript expected verifyData : Bytes} :
    Along (Endures early busy) (checkFinished failed transcript expected verifyData) :=
  along_ite (fun _ => along_throw) fun _ => along_bind logCheck_endures fun _ => advance_endures

theorem needsKeyUpdate_endures : Along (Endures early busy) (withEngine needsKeyUpdate) := by
  refine withEngine_framed (along_get_bind fun e => ?_)
  rw [post_bind, post_set]
  exact .of_same rfl rfl rfl

end Endpoint

theorem createCertificate_frame {context : Bytes} :
    Along (Frame True) (createCertificate context) :=
  along_bind along_get fun _ => along_pure

theorem createCertificateVerify_frame {label : String} :
    Along (Frame True) (createCertificateVerify label) := by
  refine along_bind transcriptHash_readOnly.along fun _ => along_bind along_get fun e => ?_
  refine along_bind along_liftCrypto fun _ => along_bind along_orThrow fun _ => along_pure

namespace Endpoint

theorem sendQueued_frame {epoch : Nat} {queued : List Bytes} :
    Along (Frame busy) (sendQueued epoch queued) := by
  induction queued with
  | nil => exact along_pure
  | cons data rest inductionHypothesis =>
      exact along_bind createCiphertextRecord_frame fun _ => inductionHypothesis

theorem sendQueuedData_endures : Along (Endures early busy) sendQueuedData := by
  refine along_get_bind fun p => ?_
  rw [post_bind, post_set]
  exact (withEngine_framed sendQueued_frame).after
    ⟨.refl _, rfl, id, rfl, fun _ => ⟨rfl, rfl⟩⟩

theorem answerKeyUpdate_endures : Along (Endures early busy) answerKeyUpdate := by
  refine along_bind along_get fun p => along_ite (fun _ => ?_) fun _ => along_pure
  refine along_bind (withEngine_framed createKeyUpdate_frame) fun _ => along_modify fun p => ?_
  exact ⟨.refl _, rfl, id, rfl, fun _ => ⟨rfl, rfl⟩⟩

theorem onKeyUpdate_endures {handle : KeyUpdateRequest → EndpointM Unit}
    (handles : ∀ request, Along (Endures early True) (handle request)) :
    Along (Endures early True) (onKeyUpdate handle) := by
  refine along_bind (withEngine_framed nextHandshakeWithOptions_frame) fun found => ?_
  cases found with
  | none => exact along_pure
  | some message =>
      obtain ⟨handshake, buffer⟩ := message
      dsimp only
      split
      · exact handles _
      · exact along_throw

theorem receiveKeyUpdate_endures {request : KeyUpdateRequest} :
    Along (Endures early busy) (receiveKeyUpdate request) := by
  refine along_bind (withEngine_framed updateRecvKeys_frame) fun _ => ?_
  refine along_bind (withEngine_framed sendAck_frame) fun _ => ?_
  refine along_bind (along_modify fun p => ?_) fun _ => advance_endures
  exact ⟨.refl _, rfl, id, rfl, fun _ => ⟨rfl, rfl⟩⟩

theorem awaitApplicationData_endures : Along (Endures early True) awaitApplicationData := by
  have initiated : Along (Endures early True) initiateKeyUpdate := by
    refine along_bind needsKeyUpdate_endures fun _ => along_bind along_get fun p => ?_
    exact withEngine_framed (along_runIf fun _ => createKeyUpdate_frame)
  refine along_bind initiated fun _ => along_bind sendQueuedData_endures fun _ => ?_
  refine along_bind answerKeyUpdate_endures fun _ => ?_
  exact onKeyUpdate_endures fun _ => receiveKeyUpdate_endures

theorem halfClosedLocal_endures : Along (Endures early True) halfClosedLocal := by
  refine along_bind (onKeyUpdate_endures fun _ => ?_) fun _ => along_bind along_get fun _ => along_pure
  exact along_bind (withEngine_framed updateRecvKeys_frame) fun _ => advance_endures

/-- Drawing the random cannot fail. -/
theorem initRandom_endures :
    Post initRandom p (fun _ p' => Endures early busy p p') (fun _ _ => False) := by
  unfold initRandom
  rw [post_bind, post_get]
  split
  · exact .refl p
  · unfold withEngine newRandom randomArr
    simp only [post_bind, post_zoom, post_get, post_set, post_pure, post_modify]
    exact ⟨⟨rfl, rfl, rfl, List.prefix_rfl, id, fun _ => rfl, fun _ => List.prefix_rfl,
      fun _ _ => ⟨rfl, rfl⟩⟩, rfl, id, rfl, fun _ => ⟨rfl, rfl⟩⟩

theorem intoOutput_readOnly {bufLen : Nat} {certificates : List Bytes} {event : LocalEvent} :
    ReadOnly (event.intoOutput bufLen certificates : EndpointM Output) := by
  cases event with
  | peerCert =>
      cases certificates with
      | nil => exact along_throw
      | cons certificate rest => exact along_ite (fun _ => along_pure) fun _ => along_throw
  | connected => exact along_pure
  | keyingMaterial material profile => exact along_pure

theorem pollOutput_endures {bufLen : Nat} : Along (Endures early busy) (pollOutput bufLen) := by
  refine along_get_bind fun p => ?_
  split
  · rename_i event rest queued
    rw [post_bind, post_set]
    refine (intoOutput_readOnly.along).after
      ⟨.refl _, rfl, fun later => ?_, rfl, fun _ => ⟨rfl, rfl⟩⟩
    rw [queued]
    exact List.mem_cons_of_mem _ later
  · exact withEngine_framed pollOutput_frame p

theorem sendData_endures {data : Bytes} : Along (Endures early busy) (sendData data) :=
  along_bind along_get fun _ => withEngine_framed createCiphertextRecord_frame

theorem queueData_endures {data : Bytes} : Along (Endures early busy) (queueData data) :=
  along_modify fun _ => ⟨.refl _, rfl, id, rfl, fun _ => ⟨rfl, rfl⟩⟩

/-- What a timeout call does to an endpoint: it arms timers that wait for it. -/
theorem handleTimeout_endures {now : Instant} :
    Post (handleTimeout now) p
      (fun _ p' => Endures early busy { p with engine := p.engine.armTimers now } p')
      (fun _ p' => Endures early busy { p with engine := p.engine.armTimers now } p') := by
  -- Drawing the random and arming the timers touch different fields.
  have drawn : ∀ p₁ : Endpoint, Endures early busy p p₁ →
      Endures early busy { p with engine := p.engine.armTimers now }
        { p₁ with engine := p₁.engine.armTimers now } := by
    intro p₁ kept
    have steady := kept.engine
    refine ⟨⟨steady.config, ?_, steady.released, steady.log, steady.known, steady.suite,
        steady.transcript, steady.still⟩,
      kept.certificates, kept.events, kept.auth, kept.secrets⟩
    simp only [Engine.armTimers, steady.deadline, steady.config]
  unfold handleTimeout
  rw [post_bind, post_modify, post_bind]
  have noted : Endures early busy p { p with lastNow := now } :=
    ⟨.refl _, rfl, id, rfl, fun _ => ⟨rfl, rfl⟩⟩
  have drew : Post initRandom { p with lastNow := now }
      (fun _ p' => Endures early busy { p with lastNow := now } p') (fun _ _ => False) :=
    initRandom_endures
  refine drew.mono (fun _ p₁ kept => ?_) fun _ _ never => never.elim
  have armed := drawn p₁ (IsTrans.trans _ _ _ noted kept)
  unfold withEngine
  rw [post_zoom]
  have framed : Post (Engine.handleTimeout now) p₁.engine
      (fun _ e' => Frame busy (p₁.engine.armTimers now) e')
      (fun _ e' => Frame busy (p₁.engine.armTimers now) e') := handleTimeout_frame
  refine framed.mono (fun _ e' frame => ?_) fun _ e' frame => ?_
  · exact IsTrans.trans _ _ _ armed
      (endures_engine (p := { p₁ with engine := p₁.engine.armTimers now }) frame.steady)
  · exact IsTrans.trans _ _ _ armed
      (endures_engine (p := { p₁ with engine := p₁.engine.armTimers now }) frame.steady)

end Endpoint

end Endures

end Dimpl.Dtls13
