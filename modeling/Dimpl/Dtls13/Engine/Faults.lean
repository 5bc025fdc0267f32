import Dimpl.Dtls13.Engine.Receive

/-!
# Which functions of a DTLS 1.3 engine are parser noise

Sending, key changes and the queue fail for the caller to see. Only finding records and
messages in received bytes can fail as parser noise.
-/

namespace Dimpl.Dtls13

open Nom Program

section Sending

theorem inner_crypto (err : CryptoError) : (Fault.ofCrypto err).Inner := trivial

theorem suiteProvider_inner : Throws Fault.Inner suiteProvider :=
  throws_bind throws_get fun _ => throws_orThrow trivial

theorem saveEntry_inner {entry : Entry} : Throws Fault.Inner (saveEntry entry) :=
  throws_bind throws_get fun _ => throws_ite throws_set (throws_throw trivial)

theorem checkQueueTx_inner {append : Bool} : Throws Fault.Inner (checkQueueTx append) :=
  throws_bind throws_get fun _ => throws_ite (throws_throw trivial) throws_pure

theorem createPlaintextRecord_inner {contentType : ContentType} {saveFragment : Bool}
    {fragment : Bytes} :
    Throws Fault.Inner (createPlaintextRecord contentType saveFragment fragment) := by
  refine throws_bind throws_get fun e => throws_bind (throws_runIf saveEntry_inner) fun _ => ?_
  refine throws_bind checkQueueTx_inner fun _ => ?_
  exact throws_ite (throws_throw trivial) throws_modify

theorem createCiphertextRecord_inner {contentType : ContentType} {epoch : Nat}
    {saveFragment : Bool} {fragment : Bytes} :
    Throws Fault.Inner (createCiphertextRecord contentType epoch saveFragment fragment) := by
  refine throws_bind throws_get fun e => throws_bind (throws_runIf saveEntry_inner) fun _ => ?_
  refine throws_bind suiteProvider_inner fun _ => throws_bind (throws_orThrow trivial) fun _ => ?_
  refine throws_bind (throws_liftCrypto inner_crypto) fun _ => ?_
  refine throws_bind checkQueueTx_inner fun _ => ?_
  exact throws_ite (throws_throw trivial) throws_modify

theorem createRecord_inner {contentType : ContentType} {epoch : Nat} {saveFragment : Bool}
    {fragment : Bytes} :
    Throws Fault.Inner (createRecord contentType epoch saveFragment fragment) :=
  throws_ite createPlaintextRecord_inner createCiphertextRecord_inner

theorem resendEntries_inner {entries : List Entry} : Throws Fault.Inner (resendEntries entries) := by
  induction entries with
  | nil => exact throws_pure
  | cons entry rest inductionHypothesis =>
      have one : Throws Fault.Inner (resendEntry entry) :=
        throws_bind throws_get fun _ => throws_ite throws_pure
          (throws_bind createRecord_inner fun _ => throws_pure)
      exact throws_bind one fun _ => throws_bind inductionHypothesis fun _ => throws_pure

theorem flightResend_inner : Throws Fault.Inner flightResend :=
  throws_bind throws_get fun _ => throws_bind throws_set fun _ =>
    throws_bind resendEntries_inner fun _ => throws_modify

end Sending

section Queueing

theorem classifyRecord_inner {r : Record} : Throws Fault.Inner (classifyRecord r) := by
  refine throws_bind throws_get fun e => throws_ite throws_pure (throws_ite throws_pure ?_)
  refine throws_ite (throws_bind throws_set fun _ => throws_pure) (throws_ite ?_ ?_)
  · split
    · exact throws_pure
    · refine throws_ite (throws_bind throws_set fun _ => throws_pure) ?_
      exact throws_ite throws_pure (throws_throw trivial)
  · exact throws_ite throws_pure throws_pure

theorem classifyRecords_inner {records : List Record} :
    Throws Fault.Inner (classifyRecords records) := by
  induction records with
  | nil => exact throws_pure
  | cons r rest inductionHypothesis =>
      exact throws_bind classifyRecord_inner fun _ =>
        throws_bind inductionHypothesis fun _ => throws_pure

theorem classifyRecords_public {records : List Record} :
    Throws Fault.Public (classifyRecords records) :=
  throws_mono classifyRecords_inner fun _ inner => inner.isPublic

theorem insertIncoming_public {incoming : Incoming} :
    Throws Fault.Public (insertIncoming incoming) := by
  refine throws_bind throws_get fun e => throws_ite (throws_throw trivial) ?_
  split
  · refine throws_bind throws_get fun e => throws_bind (throws_runIf (throws_mono flightResend_inner fun _ inner => inner.isPublic)) fun _ => ?_
    refine throws_bind throws_get fun e => throws_ite throws_pure (throws_ite (throws_throw trivial) ?_)
    split
    · exact throws_set
    · exact throws_ite throws_set throws_pure
  · refine throws_bind throws_get fun e => ?_
    split
    · exact throws_set
    · exact throws_pure

end Queueing

end Dimpl.Dtls13
