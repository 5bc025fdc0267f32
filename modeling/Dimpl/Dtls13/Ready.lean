import Dimpl.Dtls13.Engine.Capacity
import Dimpl.Dtls13.Sizes

/-!
# Which handlers fill a list of fixed capacity

What a handler sends is cut into records that are saved in a list of twelve. Handlers that
send nothing fill no list, apart from the one that installs the application keys.
-/

namespace Dimpl.Dtls13

open Nom Program

/-- The flight has room for the message that is written. -/
def Engine.Takes (e : Engine) (type : MessageType) (writeBody : EngineM Bytes) : Prop :=
  ∀ body ∈ value? writeBody e, e.Fits type body.length

instance {e : Engine} {type : MessageType} {writeBody : EngineM Bytes} :
    Decidable (e.Takes type writeBody) :=
  inferInstanceAs (Decidable (∀ body ∈ value? writeBody e, e.Fits type body.length))

/-- The settings a configuration is accepted with, at most four groups, and the lengths the
provider promises. -/
structure Engine.Ready (tagLen : Nat) (e : Engine) : Prop where
  sized : e.Sized tagLen
  groups : e.config.kxGroups.length ≤ 4
  mtu : 64 ≤ e.config.mtu

section Engines

variable {tagLen : Nat} {e e' : Engine}

theorem Engine.Ready.of_sizes (sizes : Sizes tagLen e e') (ready : e.Ready tagLen) :
    e'.Ready tagLen :=
  ⟨sizes.2 ready.sized, sizes.1 ▸ ready.groups, sizes.1 ▸ ready.mtu⟩

/-- A function that keeps the lengths and fills no list. -/
theorem ready_of_sizes {α : Type} {program : EngineM α} (sizes : Along (Sizes tagLen) program)
    (within : Throws Fault.WithinCapacity program) :
    Secures (Engine.Ready tagLen) Fault.WithinCapacity program :=
  secures_of_along sizes (fun _ _ => Engine.Ready.of_sizes) within

/-- A change that keeps the lengths. -/
theorem modify_ready {f : Engine → Engine} (sizes : ∀ e, Sizes tagLen e (f e)) :
    Secures (Engine.Ready tagLen) Fault.WithinCapacity (modify f : EngineM PUnit) :=
  secures_modify fun e => .of_sizes (sizes e)

/-- A message that finds room. -/
theorem createHandshake_ready {type : MessageType} {writeBody : EngineM Bytes}
    (ready : e.Ready tagLen) (reads : ReadOnly writeBody) (takes : e.Takes type writeBody)
    (within : Post writeBody e (fun _ _ => True) fun fault _ => fault.WithinCapacity) :
    Post (createHandshake type writeBody) e (fun _ e' => e'.Ready tagLen)
      (fun fault _ => fault.WithinCapacity) := by
  have writes : Post writeBody e (fun body _ => e.Fits type body.length)
      (fun fault _ => fault.WithinCapacity) :=
    (post_self.and within).mono (fun body _ both => takes body (value_of_ok both.1))
      fun _ _ both => both.2
  have sizes : Along (Sizes tagLen) (createHandshake type writeBody) :=
    sizes_conducts.createHandshake reads
  have fits := createHandshake_within reads ready.sized.seals (fun _ => ready.sized.suite) writes
  exact ((sizes e).and fits).mono (fun _ _ both => ready.of_sizes both.1) fun _ _ both => both.2

theorem nextHandshakeWithOptions_ready {wanted : MessageType} {withTranscript allowUnknown : Bool} :
    Secures (Engine.Ready tagLen) Fault.WithinCapacity
      (nextHandshakeWithOptions wanted withTranscript allowUnknown) :=
  ready_of_sizes sizes_conducts.nextHandshake nextHandshakeWithOptions_within

/-- The oldest of four receive epochs makes room. -/
theorem updateRecvKeys_ready : Secures (Engine.Ready tagLen) Fault.WithinCapacity updateRecvKeys := by
  intro e ready
  have sizes := (@updateRecvKeys_sizes tagLen) e
  have within : Post updateRecvKeys e (fun _ _ => True) fun fault _ => fault.WithinCapacity := by
    unfold updateRecvKeys
    rw [post_bind, post_get, post_bind, post_orThrow]
    refine ⟨fun latest _ => ?_, fun _ => trivial⟩
    rw [post_bind]
    refine ((deriveNextTrafficSecret_readOnly e).and (deriveNextTrafficSecret_within e)).mono ?_
      fun _ _ both => both.2
    rintro secret _ ⟨rfl, _⟩
    rw [post_bind]
    refine (deriveEpochKeys_post.and (deriveEpochKeys_within e)).mono ?_ fun _ _ both => both.2
    rintro keys _ ⟨⟨_, rfl⟩, _⟩
    rw [post_bind, post_modify]
    unfold pushRecvEpoch
    rw [post_bind, post_get, post_ite]
    refine ⟨fun _ => trivial, fun full => absurd ?_ full⟩
    have few := ready.sized.epochs
    dsimp only
    split
    · rw [List.length_tail]
      omega
    · omega
  exact (sizes.and within).mono (fun _ _ both => ready.of_sizes both.1) fun _ _ both => both.2

/-- Application keys need a free place for their receive epoch. -/
theorem installApplicationKeys_ready {client server : Bytes} (ready : e.Ready tagLen) :
    Post (installApplicationKeys client server) e (fun _ e' => e'.Ready tagLen)
      (fun fault e' => fault.WithinCapacity ∨ 4 ≤ e'.appRecvKeys.length) := by
  have sizes := (@installApplicationKeys_sizes tagLen client server) e
  have within : Post (installApplicationKeys client server) e (fun _ _ => True)
      fun fault e' => fault.WithinCapacity ∨ 4 ≤ e'.appRecvKeys.length := by
    unfold installApplicationKeys
    rw [post_bind, post_get]
    dsimp only
    rw [post_bind]
    refine (deriveEpochKeys_within e).mono (fun send e₁ _ => ?_) fun _ _ within => .inl within
    rw [post_bind, post_modify, post_bind]
    refine (deriveEpochKeys_within _).mono (fun recv e₂ _ => ?_) fun _ _ within => .inl within
    rw [post_bind]
    unfold pushRecvEpoch
    rw [post_bind, post_get, post_ite]
    exact ⟨fun _ => trivial, fun full => .inr (Nat.not_lt.mp full)⟩
  exact (sizes.and within).mono (fun _ _ both => ready.of_sizes both.1) fun _ _ both => both.2

end Engines

section Endpoints

variable {tagLen : Nat}

namespace Endpoint

/-- The engine of an endpoint is ready. -/
def Ready (tagLen : Nat) (p : Endpoint) : Prop := p.engine.Ready tagLen

theorem withEngine_ready {α : Type} {program : EngineM α}
    (secures : Secures (Engine.Ready tagLen) Fault.WithinCapacity program) :
    Secures (Ready tagLen) Fault.WithinCapacity (withEngine program) :=
  secures_zoom secures (fun _ ready => ready) fun _ _ _ kept => kept

/-- A program that leaves the engine alone. -/
theorem withEngine_reads {α : Type} {program : EngineM α} (reads : ReadOnly program)
    (within : Throws Fault.WithinCapacity program) :
    Secures (Ready tagLen) Fault.WithinCapacity (withEngine program) :=
  withEngine_ready (ready_of_sizes reads.along within)

/-- A change of other fields. -/
theorem modify_ready {f : Endpoint → Endpoint} (same : ∀ p, (f p).engine = p.engine) :
    Secures (Ready tagLen) Fault.WithinCapacity (modify f : EndpointM PUnit) := by
  refine secures_modify fun p ready => ?_
  unfold Ready
  rw [same]
  exact ready

theorem pushEvent_ready {event : LocalEvent} :
    Secures (Ready tagLen) Fault.WithinCapacity (pushEvent event) :=
  modify_ready fun _ => rfl

theorem logCheck_ready {check : Check} :
    Secures (Ready tagLen) Fault.WithinCapacity (logCheck check) :=
  modify_ready fun _ => rfl

theorem advance_ready : Secures (Ready tagLen) Fault.WithinCapacity
    (withEngine (modify Engine.advancePeerHandshakeSeq)) :=
  withEngine_ready (Dtls13.modify_ready fun _ => .of_same rfl rfl rfl)

theorem startExchange_ready {kx : SupportedKxGroup} :
    Secures (Ready tagLen) Fault.WithinCapacity (startExchange kx) := by
  refine secures_get_bind fun p ready => ?_
  dsimp only
  rw [post_bind, post_set]
  exact secures_liftCrypto within_crypto _ ready

theorem installHandshakeSecrets_ready {sharedSecret : Bytes} :
    Secures (Ready tagLen) Fault.WithinCapacity (installHandshakeSecrets sharedSecret) := by
  refine secures_bind (withEngine_reads deriveHandshakeSecrets_readOnly deriveHandshakeSecrets_within)
    fun secrets => ?_
  refine secures_bind (modify_ready fun _ => rfl) fun _ => ?_
  exact withEngine_ready (ready_of_sizes installHandshakeKeys_sizes installHandshakeKeys_within)

/-- Application keys need a free place for their receive epoch. -/
theorem installApplicationSecrets_ready {p : Endpoint} (ready : p.Ready tagLen) :
    Post installApplicationSecrets p (fun _ p' => p'.Ready tagLen)
      (fun fault p' => fault.WithinCapacity ∨ 4 ≤ p'.engine.appRecvKeys.length) := by
  unfold installApplicationSecrets
  rw [post_bind, post_get, post_bind, post_orThrow]
  refine ⟨fun secret _ => ?_, fun _ => .inl trivial⟩
  have derived : Secures (Ready tagLen) Fault.WithinCapacity
      (withEngine (deriveApplicationSecrets secret)) :=
    withEngine_ready (ready_of_sizes sizes_conducts.deriveApplicationSecrets
      deriveApplicationSecrets_within)
  rw [post_bind]
  refine (derived p ready).mono (fun secrets p₁ kept => ?_) fun _ _ within => .inl within
  unfold withEngine
  rw [post_zoom]
  exact installApplicationKeys_ready kept

theorem takeCertificates_ready {certificate : Certificate} {buffer : Bytes} :
    Secures (Ready tagLen) Fault.WithinCapacity (takeCertificates certificate buffer) := by
  refine secures_bind (modify_ready fun _ => rfl) fun _ => secures_bind logCheck_ready fun _ => ?_
  exact secures_bind secures_get fun p => secures_ite secures_pure pushEvent_ready

theorem checkCertificateVerify_ready {label : String} {missing : CertificateError}
    {transcript transcriptHash : Bytes} {signed : DigitallySigned} {buffer : Bytes} :
    Secures (Ready tagLen) Fault.WithinCapacity
      (checkCertificateVerify label missing transcript transcriptHash signed buffer) := by
  refine secures_bind secures_get fun p => ?_
  dsimp only
  split
  · exact secures_throw trivial
  · refine secures_bind (withEngine_reads verifySignature_readOnly verifySignature_within) fun _ => ?_
    exact secures_bind logCheck_ready fun _ => advance_ready

theorem checkFinished_ready {failed : SecurityError} {transcript expected verifyData : Bytes} :
    Secures (Ready tagLen) Fault.WithinCapacity
      (checkFinished failed transcript expected verifyData) :=
  secures_ite (secures_throw trivial) (secures_bind logCheck_ready fun _ => advance_ready)

theorem emitKeyingMaterial_ready : Secures (Ready tagLen) Fault.WithinCapacity emitKeyingMaterial := by
  refine secures_get_bind fun p ready => ?_
  split
  · exact ready
  · rename_i profile _
    have within := @extractSrtpKeyingMaterial_within profile p.engine
    unfold Post at within
    split
    · exact pushEvent_ready p ready
    · rename_i failed
      rw [failed] at within
      exact within
    · exact ready

theorem completeHandshake_ready : Secures (Ready tagLen) Fault.WithinCapacity completeHandshake := by
  refine secures_bind pushEvent_ready fun _ => secures_bind emitKeyingMaterial_ready fun _ => ?_
  exact withEngine_ready (Dtls13.modify_ready fun _ => .of_same rfl rfl rfl)

theorem onKeyUpdate_ready {handle : KeyUpdateRequest → EndpointM Unit}
    (handles : ∀ request, Secures (Ready tagLen) Fault.WithinCapacity (handle request)) :
    Secures (Ready tagLen) Fault.WithinCapacity (onKeyUpdate handle) := by
  refine secures_bind (withEngine_ready nextHandshakeWithOptions_ready) fun found => ?_
  cases found with
  | none => exact secures_pure
  | some message =>
      dsimp only
      split
      · exact handles _
      · exact secures_throw trivial

theorem createKeyUpdate_ready {request : KeyUpdateRequest} :
    Secures (Ready tagLen) Fault.WithinCapacity (withEngine (createKeyUpdate request)) :=
  withEngine_ready (ready_of_sizes createKeyUpdate_sizes createKeyUpdate_within)

/-- Behind the handshake every flight is a KeyUpdate, which is one record. -/
theorem awaitApplicationData_ready :
    Secures (Ready tagLen) Fault.WithinCapacity awaitApplicationData := by
  have initiated : Secures (Ready tagLen) Fault.WithinCapacity initiateKeyUpdate := by
    have flag : Along (Sizes tagLen) needsKeyUpdate := by
      refine along_get_bind fun e => ?_
      rw [post_bind, post_set]
      exact .of_same rfl rfl rfl
    have within : Throws Fault.WithinCapacity needsKeyUpdate :=
      throws_bind throws_get fun _ => throws_bind throws_set fun _ => throws_pure
    refine secures_bind (withEngine_ready (ready_of_sizes flag within)) fun needed => ?_
    refine secures_bind secures_get fun p => withEngine_ready ?_
    exact ready_of_sizes (along_runIf fun _ => createKeyUpdate_sizes) (throws_runIf createKeyUpdate_within)
  have sent : Secures (Ready tagLen) Fault.WithinCapacity sendQueuedData := by
    refine secures_get_bind fun p ready => ?_
    rw [post_bind, post_set]
    have each : ∀ epoch data, Secures (Engine.Ready tagLen) Fault.WithinCapacity (sendQueued epoch data) := by
      intro epoch data
      induction data with
      | nil => exact secures_pure
      | cons first rest inductionHypothesis =>
          exact secures_bind (ready_of_sizes createCiphertextRecord_sizes createCiphertextRecord_within)
            fun _ => inductionHypothesis
    exact withEngine_ready (each _ _) _ ready
  have answered : Secures (Ready tagLen) Fault.WithinCapacity answerKeyUpdate := by
    refine secures_bind secures_get fun p => secures_ite ?_ secures_pure
    exact secures_bind createKeyUpdate_ready fun _ => modify_ready fun _ => rfl
  refine secures_bind initiated fun _ => secures_bind sent fun _ => secures_bind answered fun _ => ?_
  refine onKeyUpdate_ready fun request => ?_
  refine secures_bind (withEngine_ready updateRecvKeys_ready) fun _ => ?_
  refine secures_bind (withEngine_ready (ready_of_sizes sizes_conducts.sendAck sendAck_within)) fun _ => ?_
  exact secures_bind (modify_ready fun _ => rfl) fun _ => advance_ready

theorem halfClosedLocal_ready : Secures (Ready tagLen) Fault.WithinCapacity halfClosedLocal := by
  refine secures_bind (onKeyUpdate_ready fun _ => ?_) fun _ => secures_bind secures_get fun _ =>
    secures_pure
  exact secures_bind (withEngine_ready updateRecvKeys_ready) fun _ => advance_ready

theorem handleTimeout_ready {now : Instant} :
    Secures (Ready tagLen) Fault.WithinCapacity (handleTimeout now) := by
  refine secures_bind (modify_ready fun _ => rfl) fun _ => secures_bind ?_ fun _ => ?_
  · refine secures_bind secures_get fun p => ?_
    split
    · exact secures_pure
    · refine secures_bind (withEngine_ready (ready_of_sizes ?_ ?_)) fun _ => modify_ready fun _ => rfl
      · refine along_bind (along_get_bind fun e => ?_) fun _ => along_pure
        dsimp only
        rw [post_bind, post_set]
        exact .of_same rfl rfl rfl
      · exact throws_bind (throws_bind throws_get fun _ => throws_bind throws_set fun _ => throws_pure)
          fun _ => throws_pure
  · exact withEngine_ready (ready_of_sizes Dtls13.handleTimeout_sizes handleTimeout_within)

theorem pollOutput_ready {bufLen : Nat} :
    Secures (Ready tagLen) Fault.WithinCapacity (pollOutput bufLen) := by
  refine secures_get_bind fun p ready => ?_
  split
  · rename_i event rest queued
    rw [post_bind, post_set]
    have told : Throws Fault.WithinCapacity
        (event.intoOutput bufLen p.peerCertificates : EndpointM Output) := by
      unfold LocalEvent.intoOutput
      split
      · split
        · exact throws_throw trivial
        · exact throws_ite throws_pure (throws_throw trivial)
      · exact throws_pure
      · exact throws_pure
    exact secures_of_along intoOutput_readOnly (fun _ _ same kept => same ▸ kept) told _ ready
  · exact withEngine_ready (ready_of_sizes sizes_conducts.pollOutput pollOutput_within) p ready

theorem sendData_ready {data : Bytes} : Secures (Ready tagLen) Fault.WithinCapacity (sendData data) :=
  secures_bind secures_get fun _ =>
    withEngine_ready (ready_of_sizes createCiphertextRecord_sizes createCiphertextRecord_within)

theorem closeWrite_ready : Secures (Ready tagLen) Fault.WithinCapacity closeWrite := by
  refine secures_bind secures_get fun _ => secures_bind ?_ fun _ => ?_
  · exact withEngine_ready (ready_of_sizes createCiphertextRecord_sizes createCiphertextRecord_within)
  · exact withEngine_ready (Dtls13.modify_ready fun _ => .of_same rfl rfl rfl)

end Endpoint

end Endpoints

end Dimpl.Dtls13
