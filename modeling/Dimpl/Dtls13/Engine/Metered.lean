import Dimpl.Dtls13.Engine.Run
import Dimpl.Dtls13.Engine.Scope

/-!
# What the functions of the engine do to its counters

A record is counted where it is placed in the queue, and the count of the encrypted ones starts
again where the send keys are rotated. What counting a record keeps, every function of the engine
that does not rotate the send keys keeps.
-/

namespace Dimpl.Dtls13

open Nom Program

/-- The settings, the number of the next plaintext record and the count of encrypted records. -/
structure Meter where
  config : Config
  sequenceEpoch0 : Nat
  appSendRecordCount : Nat
  aeadEncryptionThreshold : Nat
  needsKeyUpdate : Bool

/-- The counters of an engine. -/
def Engine.meter (e : Engine) : Meter :=
  { config := e.config, sequenceEpoch0 := e.sequenceEpoch0
    appSendRecordCount := e.appSendRecordCount
    aeadEncryptionThreshold := e.aeadEncryptionThreshold, needsKeyUpdate := e.needsKeyUpdate }

/-- Counting a record moves the engine along a relation. -/
structure Metered (R : Engine → Engine → Prop) : Prop where
  same : ∀ {e e' : Engine}, e'.meter = e.meter → R e e'
  plaintext : ∀ e : Engine, R e { e with sequenceEpoch0 := e.sequenceEpoch0 + 1 }
  counted : ∀ (e : Engine) epoch slot, R e (e.bumpSlot epoch slot)

section Functions

variable {R : Engine → Engine → Prop} [Std.Refl R] [IsTrans Engine R] (metered : Metered R)

include metered

omit [Std.Refl R] [IsTrans Engine R] in
/-- A program that keeps the counters. -/
theorem Metered.keeps {τ α : Type} {view : Engine → τ} {program : EngineM α}
    (keeps : Along (Keeps view) program) (f : τ → Meter) (told : ∀ e, f (view e) = e.meter) :
    Along R program :=
  (keeps.through f told).mono fun _ _ same => metered.same same

omit [Std.Refl R] [IsTrans Engine R] in
theorem Metered.modify {f : Engine → Engine} (same : ∀ e : Engine, (f e).meter = e.meter) :
    Along R (modify f : EngineM PUnit) :=
  along_modify fun e => metered.same (same e)

omit [Std.Refl R] [IsTrans Engine R] in
theorem saveEntry_metered {entry : Entry} : Along R (saveEntry entry) := by
  intro e
  refine saveEntry_post.mono ?_ ?_
  · rintro _ _ rfl
    exact metered.same rfl
  · rintro _ _ rfl
    exact metered.same rfl

theorem createPlaintextRecord_metered {contentType : ContentType} {saveFragment : Bool} {fragment : Bytes} :
    Along R (createPlaintextRecord contentType saveFragment fragment) := by
  refine along_bind along_get fun e => ?_
  refine along_bind (along_runIf fun _ => saveEntry_metered metered) fun _ => ?_
  refine along_bind checkQueueTx_readOnly.along fun _ => ?_
  refine along_ite (fun _ => along_throw) fun _ => along_modify fun e => ?_
  refine IsTrans.trans _ _ _ (metered.plaintext e) (metered.same ?_)
  unfold Engine.enqueueRecord
  split <;> rfl

theorem createCiphertextRecord_metered {contentType : ContentType} {epoch : Nat} {saveFragment : Bool}
    {fragment : Bytes} : Along R (createCiphertextRecord contentType epoch saveFragment fragment) := by
  refine along_bind along_get fun e => ?_
  refine along_bind (along_runIf fun _ => saveEntry_metered metered) fun _ => ?_
  refine along_bind suiteProvider_readOnly.along fun _ => along_bind along_orThrow fun _ => ?_
  refine along_bind along_liftCrypto fun _ => along_bind checkQueueTx_readOnly.along fun _ => ?_
  refine along_ite (fun _ => along_throw) fun _ => along_modify fun e₁ => ?_
  refine IsTrans.trans _ _ _ (metered.counted e₁ epoch (e.sendSlot epoch)) (metered.same ?_)
  unfold Engine.enqueueRecord
  split <;> rfl

theorem createRecord_metered {contentType : ContentType} {epoch : Nat} {saveFragment : Bool}
    {fragment : Bytes} : Along R (createRecord contentType epoch saveFragment fragment) :=
  along_ite (fun _ => createPlaintextRecord_metered metered) fun _ => createCiphertextRecord_metered metered

theorem resendEntries_metered {entries : List Entry} : Along R (resendEntries entries) := by
  induction entries with
  | nil => exact along_pure
  | cons entry rest inductionHypothesis =>
      refine along_bind ?_ fun _ => along_bind inductionHypothesis fun _ => along_pure
      refine along_bind along_get fun e => along_ite (fun _ => along_pure) fun _ => ?_
      exact along_bind (createRecord_metered metered) fun _ => along_pure

theorem flightResend_metered : Along R flightResend := by
  refine along_get_bind fun e => ?_
  rw [post_bind, post_set]
  refine Along.after (s := e) ?_ (metered.same rfl)
  exact along_bind (resendEntries_metered metered) fun _ => metered.modify fun _ => rfl

theorem createFragments_metered {header : Header} {epoch fixedOverhead : Nat} {body : Bytes}
    {fuel offset : Nat} : Along R (createFragments header epoch fixedOverhead body fuel offset) := by
  induction fuel generalizing offset with
  | zero => exact along_throw
  | succ fuel inductionHypothesis =>
      refine along_ite (fun _ => along_bind along_get fun e => ?_) fun _ => along_pure
      exact along_bind (createRecord_metered metered) fun _ => along_runIf fun _ => inductionHypothesis

theorem createHandshake_metered {type : MessageType} {writeBody : EngineM Bytes} (readOnly : ReadOnly writeBody) :
    Along R (createHandshake type writeBody) := by
  refine along_bind readOnly.along fun body => along_get_bind fun e => ?_
  rw [post_bind, post_set]
  refine Along.after (s := e) ?_ (metered.same rfl)
  refine along_ite (fun _ => createFragments_metered metered) fun _ => ?_
  exact along_bind suiteProvider_readOnly.along fun _ => createFragments_metered metered

theorem sendAck_metered : Along R sendAck := by
  refine along_get_bind fun e => ?_
  rw [post_ite]
  refine ⟨fun _ => along_pure e, fun _ => ?_⟩
  rw [post_bind, post_set]
  exact (createCiphertextRecord_metered metered).after (metered.same rfl)

theorem createKeyUpdate_metered {request : KeyUpdateRequest} (rotated : Along R updateSendKeys) :
    Along R (createKeyUpdate request) := by
  refine along_bind (metered.modify fun _ => rfl) fun _ => along_get_bind fun e => ?_
  rw [post_bind, post_set]
  refine Along.after (s := e) ?_ (metered.same rfl)
  exact along_bind (createCiphertextRecord_metered metered) fun _ => rotated

theorem installHandshakeKeys_metered {client server : Bytes} : Along R (installHandshakeKeys client server) := by
  have derived : ∀ epoch secret, Along R (deriveEpochKeys epoch secret) :=
    fun _ _ => metered.keeps deriveEpochKeys_unequipped Engine.meter fun _ => rfl
  refine along_bind along_get fun e => along_bind (derived _ _) fun _ => ?_
  refine along_bind (metered.modify fun _ => rfl) fun _ => along_bind (derived _ _) fun _ => ?_
  exact metered.modify fun _ => rfl

theorem insertIncoming_metered {incoming : Incoming} : Along R (insertIncoming incoming) := by
  refine along_bind along_get fun e => along_ite (fun _ => along_throw) fun _ => ?_
  split
  · refine along_bind along_get fun e => ?_
    refine along_bind (along_runIf fun _ => flightResend_metered metered) fun _ => along_get_bind fun e => ?_
    dsimp only
    rw [post_ite, post_ite]
    refine ⟨fun _ => metered.same rfl, fun _ => ⟨fun _ => metered.same rfl, fun _ => ?_⟩⟩
    split
    · exact metered.same rfl
    · rw [post_ite]
      exact ⟨fun _ => metered.same rfl, fun _ => metered.same rfl⟩
  · refine along_get_bind fun e => ?_
    split <;> exact metered.same rfl

theorem parsePacket_metered {packet : Bytes} : Along R (parsePacket packet) := by
  have opened : Along R (parseRecordsLoop packet.length packet []) :=
    metered.keeps parseRecordsLoop_unopened Engine.meter fun _ => rfl
  have classified : ∀ records, Along R (classifyRecords records) :=
    fun _ => metered.keeps classifyRecords_unclassified Engine.meter fun _ => rfl
  refine along_bind (along_bind opened fun _ => classified _) fun records => ?_
  split
  · exact along_pure
  · exact insertIncoming_metered metered

theorem receivePacket_metered {datagram : Bytes} : Along R (receivePacket datagram) :=
  along_bind (metered.modify fun _ => rfl) fun _ => parsePacket_metered metered

theorem enablePeerEncryption_metered : Along R enablePeerEncryption := by
  have parsed : ∀ buffers, Along R (reparse buffers) := by
    intro buffers
    induction buffers with
    | nil => exact along_pure
    | cons buffer rest inductionHypothesis =>
        exact along_bind (parsePacket_metered metered) fun _ => inductionHypothesis
  refine along_get_bind fun e => ?_
  dsimp only
  rw [post_bind, post_set]
  exact (parsed _).after (metered.same rfl)

omit metered [Std.Refl R] [IsTrans Engine R] in
theorem Engine.maybeScheduleHandshakeAck_meter {e : Engine} {now : Instant} :
    (e.maybeScheduleHandshakeAck now).meter = e.meter := by
  unfold Engine.maybeScheduleHandshakeAck
  dsimp only
  split
  · rfl
  · split
    · rfl
    · split <;> rfl

theorem maybeFlushHandshakeAck_metered {now : Instant} : Along R (maybeFlushHandshakeAck now) := by
  refine along_get_bind fun e => ?_
  split
  · exact metered.same rfl
  · rw [post_ite]
    refine ⟨fun _ => metered.same rfl, fun _ => ?_⟩
    rw [post_bind, post_set]
    refine (along_runIf fun _ => along_bind along_get fun e => ?_).after (metered.same rfl)
    exact along_runIf fun _ => createCiphertextRecord_metered metered

theorem handleTimeout_metered {now : Instant} : Along R (Engine.handleTimeout now) := by
  have resent : ∀ flightTimeout, Along R (retransmit now flightTimeout) := by
    intro flightTimeout
    refine along_ite (fun _ => along_pure) fun _ => along_get_bind fun e => ?_
    rw [post_ite]
    refine ⟨fun _ => ?_, fun _ => metered.same rfl⟩
    rw [post_bind, post_set]
    exact (flightResend_metered metered).after (metered.same rfl)
  refine along_bind (metered.modify fun _ => rfl) fun _ => along_bind along_get fun e => ?_
  refine along_ite (fun _ => along_throw) fun _ => ?_
  split
  · refine along_bind (resent _) fun _ => ?_
    refine along_bind (metered.modify fun _ => ?_) fun _ => maybeFlushHandshakeAck_metered metered
    exact Engine.maybeScheduleHandshakeAck_meter
  · exact along_pure

theorem pollOutput_metered {bufLen : Nat} {now : Instant} : Along R (Engine.pollOutput bufLen now) := by
  have data : Along R (pollAppData bufLen) := metered.keeps pollAppData_unread Engine.meter fun _ => rfl
  have packets : Along R (pollPacketTx bufLen) := by
    refine along_get_bind fun e => ?_
    split
    · exact metered.same rfl
    · rw [post_bind, post_set, post_ite]
      exact ⟨fun _ => metered.same rfl, fun _ => metered.same rfl⟩
  refine along_bind (metered.modify fun _ => rfl) fun _ => along_bind data fun data => ?_
  cases data with
  | some data => exact along_pure
  | none =>
      refine along_bind (metered.modify fun _ => Engine.maybeScheduleHandshakeAck_meter) fun _ => ?_
      refine along_bind packets fun packet => ?_
      cases packet with
      | some packet => exact along_pure
      | none =>
          refine along_get_bind fun e => ?_
          rw [post_ite]
          exact ⟨fun _ => metered.same rfl, fun _ => metered.same rfl⟩

/-- Every call on an engine. -/
theorem exec_metered (rotated : Along R updateSendKeys) {e : Engine} {call : Call} : R e (e.exec call) := by
  have moves : Along R call.program := by
    cases call with
    | receivePacket datagram => exact receivePacket_metered metered
    | injectHybridClientHello bytes =>
        refine along_modify fun e => ?_
        unfold Engine.injectHybridClientHello
        split
        · exact IsTrans.trans _ _ _ (metered.plaintext e) (metered.same rfl)
        · exact metered.same rfl
    | nextHandshake wanted withTranscript allowUnknown =>
        refine along_bind ?_ fun _ => along_pure
        exact metered.keeps nextHandshakeWithOptions_unread Engine.meter fun _ => rfl
    | createHandshake type body => exact createHandshake_metered metered along_pure
    | createRecord contentType epoch saveFragment fragment => exact createRecord_metered metered
    | sendAck => exact sendAck_metered metered
    | installHandshakeKeys client server => exact installHandshakeKeys_metered metered
    | installApplicationKeys client server =>
        exact metered.keeps installApplicationKeys_unequipped Engine.meter fun _ => rfl
    | createKeyUpdate request => exact createKeyUpdate_metered metered rotated
    | updateRecvKeys => exact metered.keeps updateRecvKeys_unequipped Engine.meter fun _ => rfl
    | enablePeerEncryption => exact enablePeerEncryption_metered metered
    | handleTimeout now => exact handleTimeout_metered metered
    | pollOutput bufLen now => exact along_bind (pollOutput_metered metered) fun _ => along_pure
    | setCipherSuite | advancePeerHandshakeSeq | flightBegin | flightStopResendTimers | cancelFlights
      | abort | resetForHelloRetry | releaseApplicationData =>
        exact metered.modify fun _ => rfl
  exact post_state.mp (moves e)

end Functions

end Dimpl.Dtls13
