import Dimpl.Dtls13.Engine.Outbox

/-!
# Which functions of a DTLS 1.3 engine fill a list of fixed capacity

Only writing a message and adding a receive epoch do. All else fails for other reasons.
-/

namespace Dimpl.Dtls13

open Nom Program

section Sending

theorem within_crypto (err : CryptoError) : (Fault.ofCrypto err).WithinCapacity := trivial

theorem suiteProvider_within : Throws Fault.WithinCapacity suiteProvider :=
  throws_bind throws_get fun _ => throws_orThrow trivial

theorem checkQueueTx_within {append : Bool} : Throws Fault.WithinCapacity (checkQueueTx append) :=
  throws_bind throws_get fun _ => throws_ite (throws_throw trivial) throws_pure

theorem createCiphertextRecord_within {contentType : ContentType} {epoch : Nat} {fragment : Bytes} :
    Throws Fault.WithinCapacity (createCiphertextRecord contentType epoch false fragment) := by
  refine throws_bind throws_get fun e => throws_bind throws_pure fun _ => ?_
  refine throws_bind suiteProvider_within fun _ => throws_bind (throws_orThrow trivial) fun _ => ?_
  refine throws_bind (throws_liftCrypto within_crypto) fun _ => ?_
  exact throws_bind checkQueueTx_within fun _ => throws_ite (throws_throw trivial) throws_modify

/-- A record that is not saved. -/
theorem createRecord_within {contentType : ContentType} {epoch : Nat} {fragment : Bytes} :
    Throws Fault.WithinCapacity (createRecord contentType epoch false fragment) := by
  refine throws_ite ?_ createCiphertextRecord_within
  refine throws_bind throws_get fun e => throws_bind throws_pure fun _ => ?_
  exact throws_bind checkQueueTx_within fun _ => throws_ite (throws_throw trivial) throws_modify

theorem flightResend_within : Throws Fault.WithinCapacity flightResend := by
  have entries : ∀ entries, Throws Fault.WithinCapacity (resendEntries entries) := by
    intro entries
    induction entries with
    | nil => exact throws_pure
    | cons entry rest inductionHypothesis =>
        have one : Throws Fault.WithinCapacity (resendEntry entry) :=
          throws_bind throws_get fun _ => throws_ite throws_pure
            (throws_bind createRecord_within fun _ => throws_pure)
        exact throws_bind one fun _ => throws_bind inductionHypothesis fun _ => throws_pure
  exact throws_bind throws_get fun _ => throws_bind throws_set fun _ =>
    throws_bind (entries _) fun _ => throws_modify

theorem sendAck_within : Throws Fault.WithinCapacity sendAck :=
  throws_bind throws_get fun _ => throws_ite throws_pure
    (throws_bind throws_set fun _ => createCiphertextRecord_within)

end Sending

section Keys

theorem hashAlgorithm_within : Throws Fault.WithinCapacity hashAlgorithm :=
  throws_bind throws_get fun _ => throws_bind (throws_orThrow trivial) fun _ => throws_pure

theorem hashLen_within : Throws Fault.WithinCapacity hashLen :=
  throws_bind hashAlgorithm_within fun _ => throws_pure

theorem expandLabel_within {secret : Bytes} {label : String} {context : Bytes} {outputLen : Nat} :
    Throws Fault.WithinCapacity (expandLabel secret label context outputLen) :=
  throws_bind hashAlgorithm_within fun _ => throws_bind throws_get fun _ =>
    throws_liftCrypto within_crypto

theorem extract_within {salt ikm : Bytes} : Throws Fault.WithinCapacity (extract salt ikm) :=
  throws_bind hashAlgorithm_within fun _ => throws_bind throws_get fun _ =>
    throws_liftCrypto within_crypto

theorem transcriptHashOf_within {data : Bytes} : Throws Fault.WithinCapacity (transcriptHashOf data) :=
  throws_bind hashAlgorithm_within fun _ => throws_bind throws_get fun _ => throws_pure

theorem transcriptHash_within : Throws Fault.WithinCapacity transcriptHash :=
  throws_bind throws_get fun _ => transcriptHashOf_within

theorem zeros_within : Throws Fault.WithinCapacity zeros :=
  throws_bind hashAlgorithm_within fun _ => throws_ite throws_pure (throws_throw trivial)

theorem computeVerifyData_within {trafficSecret : Bytes} :
    Throws Fault.WithinCapacity (computeVerifyData trafficSecret) :=
  throws_bind hashLen_within fun _ => throws_bind expandLabel_within fun _ =>
    throws_bind transcriptHash_within fun _ => extract_within

theorem replaceTranscriptWithMessageHash_within {splitAt : Nat} :
    Throws Fault.WithinCapacity (replaceTranscriptWithMessageHash splitAt) :=
  throws_bind throws_get fun _ => throws_bind transcriptHashOf_within fun _ => throws_set

theorem verifySignature_within {certDer data signature : Bytes} {hash : HashAlgorithm}
    {algorithm : SignatureAlgorithm} :
    Throws Fault.WithinCapacity (verifySignature certDer data signature hash algorithm) :=
  throws_bind throws_get fun _ => throws_liftCrypto within_crypto

theorem deriveHandshakeSecrets_within {sharedSecret : Bytes} :
    Throws Fault.WithinCapacity (deriveHandshakeSecrets sharedSecret) := by
  have early : Throws Fault.WithinCapacity deriveEarlySecret :=
    throws_bind zeros_within fun _ => extract_within
  refine throws_bind early fun _ => throws_bind transcriptHashOf_within fun _ => ?_
  refine throws_bind hashLen_within fun _ => throws_bind expandLabel_within fun _ => ?_
  refine throws_bind extract_within fun _ => throws_bind transcriptHash_within fun _ => ?_
  refine throws_bind hashLen_within fun _ => throws_bind expandLabel_within fun _ => ?_
  exact throws_bind hashLen_within fun _ => throws_bind expandLabel_within fun _ => throws_pure

theorem deriveApplicationSecrets_within {handshakeSecret : Bytes} :
    Throws Fault.WithinCapacity (deriveApplicationSecrets handshakeSecret) := by
  refine throws_bind transcriptHashOf_within fun _ => throws_bind hashLen_within fun _ => ?_
  refine throws_bind expandLabel_within fun _ => throws_bind zeros_within fun _ => ?_
  refine throws_bind extract_within fun _ => throws_bind transcriptHash_within fun _ => ?_
  refine throws_bind hashLen_within fun _ => throws_bind expandLabel_within fun _ => ?_
  refine throws_bind hashLen_within fun _ => throws_bind expandLabel_within fun _ => ?_
  refine throws_bind hashLen_within fun _ => throws_bind expandLabel_within fun _ => ?_
  exact throws_bind throws_modify fun _ => throws_pure

theorem deriveEpochKeys_within {epoch : Nat} {trafficSecret : Bytes} :
    Throws Fault.WithinCapacity (deriveEpochKeys epoch trafficSecret) := by
  refine throws_bind suiteProvider_within fun _ => throws_bind expandLabel_within fun _ => ?_
  refine throws_bind expandLabel_within fun _ => throws_bind expandLabel_within fun _ => ?_
  refine throws_bind (throws_liftCrypto within_crypto) fun _ => throws_ite ?_ (throws_throw trivial)
  exact throws_bind throws_get fun _ => throws_bind throws_set fun _ => throws_pure

theorem installHandshakeKeys_within {client server : Bytes} :
    Throws Fault.WithinCapacity (installHandshakeKeys client server) :=
  throws_bind throws_get fun _ => throws_bind deriveEpochKeys_within fun _ =>
    throws_bind throws_modify fun _ => throws_bind deriveEpochKeys_within fun _ => throws_modify

theorem deriveNextTrafficSecret_within {current : Bytes} :
    Throws Fault.WithinCapacity (deriveNextTrafficSecret current) :=
  throws_bind hashLen_within fun _ => expandLabel_within

theorem updateSendKeys_within : Throws Fault.WithinCapacity updateSendKeys :=
  throws_bind throws_get fun _ => throws_bind (throws_orThrow trivial) fun _ =>
    throws_bind throws_modify fun _ => throws_bind deriveNextTrafficSecret_within fun _ =>
      throws_bind deriveEpochKeys_within fun _ => throws_modify

/-- The only record of a KeyUpdate finds the flight empty. -/
theorem createKeyUpdate_within {request : KeyUpdateRequest} :
    Throws Fault.WithinCapacity (createKeyUpdate request) := by
  intro e
  unfold createKeyUpdate
  rw [post_bind, post_modify, post_bind, post_get, post_bind, post_set, post_bind]
  have sends : ∀ {e₁ : Engine} {epoch : Nat} {fragment : Bytes}, e₁.flightSavedRecords = [] →
      Post (createCiphertextRecord .handshake epoch true fragment) e₁ (fun _ _ => True)
        (fun fault _ => fault.WithinCapacity) := by
    intro e₁ epoch fragment empty
    unfold createCiphertextRecord
    rw [post_bind, post_get, post_bind, post_runIf]
    refine ⟨fun _ => (saveEntry_saved (by rw [empty]; decide)).mono ?_ fun _ _ impossible =>
      impossible.elim, fun unsaved => by cases unsaved⟩
    intro _ e₂ _
    refine (?_ : Throws Fault.WithinCapacity _) e₂
    refine throws_bind suiteProvider_within fun _ => throws_bind (throws_orThrow trivial) fun _ => ?_
    refine throws_bind (throws_liftCrypto within_crypto) fun _ => ?_
    exact throws_bind checkQueueTx_within fun _ => throws_ite (throws_throw trivial) throws_modify
  refine (sends rfl).mono (fun _ e₁ _ => updateSendKeys_within e₁) fun _ _ within => within

theorem extractSrtpKeyingMaterial_within {profile : SrtpProfile} :
    Throws Fault.WithinCapacity (extractSrtpKeyingMaterial profile) := by
  refine throws_bind throws_get fun _ => throws_bind (throws_orThrow trivial) fun _ => ?_
  refine throws_bind transcriptHashOf_within fun _ => throws_bind hashLen_within fun _ => ?_
  exact throws_bind expandLabel_within fun _ => throws_bind transcriptHashOf_within fun _ =>
    expandLabel_within

end Keys

section Receiving

theorem parseRecord_within {recordSlice : Bytes} :
    Throws Fault.WithinCapacity (parseRecord recordSlice) := by
  have decrypted : Throws Fault.WithinCapacity (decryptSequenceNumber recordSlice) := by
    refine throws_bind throws_get fun e => throws_ite ?_ throws_pure
    split
    · exact throws_pure
    · exact throws_bind suiteProvider_within fun _ => throws_pure
  refine throws_bind decrypted fun buffer => throws_bind throws_get fun e => ?_
  split
  · exact throws_pure
  · refine throws_ite throws_pure (throws_bind throws_get fun e => throws_ite throws_pure ?_)
    refine throws_bind suiteProvider_within fun _ => throws_ite throws_pure ?_
    split
    · exact throws_pure
    · refine throws_bind throws_modify fun _ => ?_
      split
      · exact throws_pure
      · exact throws_pure

theorem parseRecordsLoop_within {fuel : Nat} {packet : Bytes} {parsed : List Record} :
    Throws Fault.WithinCapacity (parseRecordsLoop fuel packet parsed) := by
  induction fuel generalizing packet parsed with
  | zero => exact throws_pure
  | succ fuel inductionHypothesis =>
      refine throws_ite throws_pure ?_
      split
      · exact throws_throw trivial
      · exact throws_pure
      · refine throws_ite (throws_throw trivial) (throws_bind parseRecord_within fun found => ?_)
        cases found with
        | none => exact inductionHypothesis
        | some r => exact throws_ite inductionHypothesis (throws_throw trivial)

theorem classifyRecords_within {records : List Record} :
    Throws Fault.WithinCapacity (classifyRecords records) := by
  induction records with
  | nil => exact throws_pure
  | cons r rest inductionHypothesis =>
      have one : Throws Fault.WithinCapacity (classifyRecord r) := by
        refine throws_bind throws_get fun e => throws_ite throws_pure (throws_ite throws_pure ?_)
        refine throws_ite (throws_bind throws_set fun _ => throws_pure) (throws_ite ?_ ?_)
        · split
          · exact throws_pure
          · refine throws_ite (throws_bind throws_set fun _ => throws_pure) ?_
            exact throws_ite throws_pure (throws_throw trivial)
        · exact throws_ite throws_pure throws_pure
      exact throws_bind one fun _ => throws_bind inductionHypothesis fun _ => throws_pure

theorem insertIncoming_within {incoming : Incoming} :
    Throws Fault.WithinCapacity (insertIncoming incoming) := by
  refine throws_bind throws_get fun e => throws_ite (throws_throw trivial) ?_
  split
  · refine throws_bind throws_get fun e => throws_bind (throws_runIf flightResend_within) fun _ => ?_
    refine throws_bind throws_get fun e =>
      throws_ite throws_pure (throws_ite (throws_throw trivial) ?_)
    split
    · exact throws_set
    · exact throws_ite throws_set throws_pure
  · refine throws_bind throws_get fun e => ?_
    split
    · exact throws_set
    · exact throws_pure

theorem parsePacket_within {packet : Bytes} : Throws Fault.WithinCapacity (parsePacket packet) := by
  have records : Throws Fault.WithinCapacity (parseRecords packet) :=
    throws_bind parseRecordsLoop_within fun _ => classifyRecords_within
  refine throws_bind records fun records => ?_
  split
  · exact throws_pure
  · exact insertIncoming_within

theorem receivePacket_within {datagram : Bytes} :
    Throws Fault.WithinCapacity (receivePacket datagram) :=
  throws_bind throws_modify fun _ => parsePacket_within

theorem enablePeerEncryption_within : Throws Fault.WithinCapacity enablePeerEncryption := by
  have again : ∀ buffers, Throws Fault.WithinCapacity (reparse buffers) := by
    intro buffers
    induction buffers with
    | nil => exact throws_pure
    | cons buffer rest inductionHypothesis =>
        exact throws_bind parsePacket_within fun _ => inductionHypothesis
  exact throws_bind throws_get fun _ => throws_bind throws_set fun _ => again _

theorem nextHandshakeWithOptions_within {wanted : MessageType} {withTranscript allowUnknown : Bool} :
    Throws Fault.WithinCapacity (nextHandshakeWithOptions wanted withTranscript allowUnknown) := by
  refine throws_bind throws_get fun e => throws_ite ?_ throws_pure
  split
  · exact throws_throw trivial
  · refine throws_bind ?_ fun _ => throws_pure
    refine throws_bind throws_get fun e => throws_bind throws_set fun _ => ?_
    refine throws_ite (throws_throw trivial) (throws_bind throws_modify fun _ => ?_)
    refine throws_bind (throws_runIf throws_modify) fun _ => ?_
    split
    · exact throws_throw trivial
    · exact throws_ite (throws_throw trivial) throws_pure

end Receiving

section Timers

theorem handleTimeout_within {now : Instant} :
    Throws Fault.WithinCapacity (Engine.handleTimeout now) := by
  have resent : ∀ flightTimeout, Throws Fault.WithinCapacity (retransmit now flightTimeout) := by
    intro flightTimeout
    refine throws_ite throws_pure (throws_bind throws_get fun e => throws_ite ?_ (throws_throw trivial))
    exact throws_bind throws_set fun _ => flightResend_within
  have flushed : Throws Fault.WithinCapacity (maybeFlushHandshakeAck now) := by
    refine throws_bind throws_get fun e => ?_
    split
    · exact throws_pure
    · refine throws_ite throws_pure (throws_bind throws_set fun _ => throws_runIf ?_)
      exact throws_bind throws_get fun _ => throws_runIf createCiphertextRecord_within
  refine throws_bind throws_modify fun _ => throws_bind throws_get fun e => ?_
  refine throws_ite (throws_throw trivial) ?_
  split
  · exact throws_bind (resent _) fun _ => throws_bind throws_modify fun _ => flushed
  · exact throws_pure

theorem pollOutput_within {bufLen : Nat} {now : Instant} :
    Throws Fault.WithinCapacity (Engine.pollOutput bufLen now) := by
  have data : Throws Fault.WithinCapacity (pollAppData bufLen) := by
    refine throws_bind throws_get fun e => throws_ite throws_pure ?_
    split
    · exact throws_pure
    · refine throws_ite (throws_throw trivial) (throws_ite (throws_throw trivial) ?_)
      exact throws_bind throws_set fun _ => throws_pure
  have packet : Throws Fault.WithinCapacity (pollPacketTx bufLen) := by
    refine throws_bind throws_get fun e => ?_
    split
    · exact throws_pure
    · exact throws_bind throws_set fun _ => throws_ite (throws_throw trivial) throws_pure
  refine throws_bind throws_modify fun _ => throws_bind data fun found => ?_
  split
  · exact throws_pure
  · refine throws_bind throws_modify fun _ => throws_bind packet fun found => ?_
    split
    · exact throws_pure
    · refine throws_bind throws_get fun e => throws_ite ?_ throws_pure
      exact throws_bind throws_set fun _ => throws_pure

end Timers

end Dimpl.Dtls13
