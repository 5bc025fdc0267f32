import Dimpl.Dtls12.Engine.Receive

/-!
# Which functions of a DTLS 1.2 engine are parser noise

Sending and the queue fail for the caller to see. Only finding records and messages in
received bytes can fail as parser noise.
-/

namespace Dimpl.Dtls12

open Nom Program

section Sending

theorem inner_crypto (err : CryptoError) : (Fault.ofCrypto err).Inner := trivial

theorem selectedCipherSuite_inner : Throws Fault.Inner selectedCipherSuite :=
  throws_bind throws_get fun _ => throws_orThrow trivial

theorem sendNonce_inner {suite : Dtls12CipherSuite} {iv : Bytes} {sequence : Sequence} :
    Throws Fault.Inner (sendNonce suite iv sequence) := by
  refine throws_bind throws_get fun e => throws_ite ?_ (throws_ite ?_ (throws_throw trivial))
  · exact throws_bind (throws_ite throws_pure (throws_throw trivial)) fun _ => throws_pure
  · refine throws_bind (throws_bind throws_get fun _ => throws_bind throws_set fun _ => throws_pure)
      fun _ => ?_
    exact throws_bind (throws_ite throws_pure (throws_throw trivial)) fun _ => throws_pure

theorem protectFragment_inner {contentType : ContentType} {sequence : Sequence} {fragment : Bytes} :
    Throws Fault.Inner (protectFragment contentType sequence fragment) := by
  refine throws_bind selectedCipherSuite_inner fun _ => throws_bind throws_get fun _ => ?_
  refine throws_bind (throws_orThrow trivial) fun _ => throws_bind sendNonce_inner fun _ => ?_
  refine throws_bind (throws_liftCrypto inner_crypto) fun _ => ?_
  exact throws_bind (throws_liftCrypto inner_crypto) fun _ => throws_pure

theorem checkQueueTx_inner {append : Bool} : Throws Fault.Inner (checkQueueTx append) :=
  throws_bind throws_get fun _ => throws_ite (throws_throw trivial) throws_pure

theorem createRecordInner_inner {contentType : ContentType} {epoch : Nat}
    {saveFragment forceNewDatagram : Bool} {fragment : Bytes} : Throws Fault.Inner
      (createRecordInner contentType epoch saveFragment forceNewDatagram fragment) := by
  refine throws_bind throws_get fun e => throws_ite (throws_throw trivial) ?_
  refine throws_bind (throws_runIf throws_modify) fun _ => throws_bind checkQueueTx_inner fun _ => ?_
  exact throws_ite throws_modify (throws_bind protectFragment_inner fun _ => throws_modify)

theorem resendEntries_inner {forceNewDatagram : Bool} {entries : List Entry} :
    Throws Fault.Inner (resendEntries forceNewDatagram entries) := by
  induction entries generalizing forceNewDatagram with
  | nil => exact throws_pure
  | cons entry rest inductionHypothesis =>
      exact throws_bind createRecordInner_inner fun _ => inductionHypothesis

theorem flightResend_inner : Throws Fault.Inner flightResend := by
  refine throws_bind throws_get fun e => throws_bind throws_set fun _ => fun s => ?_
  rw [post_ensuring]
  exact resendEntries_inner s

end Sending

section Queueing

theorem classifyAlert_inner {r : Record} : Throws Fault.Inner (classifyAlert r) := by
  refine throws_bind throws_get fun e => throws_ite (throws_ite throws_pure ?_)
    (throws_ite throws_pure ?_)
  · split
    · exact throws_throw trivial
    · exact throws_pure
  · split
    · refine throws_ite (throws_bind throws_set fun _ => throws_pure) ?_
      exact throws_ite (throws_throw trivial) throws_pure
    · exact throws_pure

theorem classifyRecords_inner {records : List Record} :
    Throws Fault.Inner (classifyRecords records) := by
  induction records with
  | nil => exact throws_pure
  | cons r rest inductionHypothesis =>
      have one : Throws Fault.Inner (classifyRecord r) := by
        refine throws_bind throws_get fun e => throws_ite throws_pure (throws_ite throws_pure ?_)
        exact throws_ite classifyAlert_inner (throws_ite throws_pure throws_pure)
      exact throws_bind one fun _ => throws_bind inductionHypothesis fun _ => throws_pure

theorem classifyRecords_public {records : List Record} :
    Throws Fault.Public (classifyRecords records) :=
  throws_mono classifyRecords_inner fun _ inner => inner.isPublic

theorem insertIncoming_public {incoming : Incoming} :
    Throws Fault.Public (insertIncoming incoming) := by
  refine throws_bind throws_get fun e => throws_ite (throws_throw trivial) ?_
  split
  · refine throws_bind throws_get fun e => throws_bind (throws_runIf (throws_mono flightResend_inner fun _ inner => inner.isPublic)) fun _ => ?_
    refine throws_bind throws_get fun e => throws_ite throws_pure (throws_ite throws_pure ?_)
    refine throws_ite (throws_throw trivial) ?_
    split
    · exact throws_set
    · exact throws_pure
  · refine throws_bind throws_get fun e => throws_ite throws_pure ?_
    -- The datagram is marked first when the peer's encryption is on.
    split
    · dsimp only
      split
      · exact throws_set
      · exact throws_ite throws_pure (throws_throw trivial)
    · split
      · exact throws_set
      · exact throws_ite throws_pure (throws_throw trivial)

end Queueing

end Dimpl.Dtls12
