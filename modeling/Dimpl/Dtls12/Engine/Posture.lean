import Dimpl.Dtls12.Engine.Drain
import Dimpl.Dtls12.Engine.Milestone

/-!
# What records leave alone

Sending and receiving records changes the queues and the counters of records. Where an
engine is in the handshake and its timers stay as they are.
-/

namespace Dimpl.Dtls12

open Nom Program

/-- The two deadlines and the pace of retransmission. -/
structure Clock where
  connectTimeout : Timeout
  flightTimeout : Timeout
  flightBackoff : ExponentialBackoff

/-- Where an engine is in the handshake, with its clock. -/
structure Posture where
  config : Config
  cipherSuite : Option Dtls12CipherSuite
  isClient : Bool
  peerHandshakeSeqNo : Nat
  nextHandshakeSeqNo : Nat
  transcript : Bytes
  peerEncryptionEnabled : Bool
  releaseAppData : Bool
  clock : Clock

namespace Engine

/-- The clock of an engine. -/
def clock (e : Engine) : Clock := ⟨e.connectTimeout, e.flightTimeout, e.flightBackoff⟩

/-- The posture of an engine. -/
def posture (e : Engine) : Posture where
  config := e.config
  cipherSuite := e.cipherSuite
  isClient := e.isClient
  peerHandshakeSeqNo := e.peerHandshakeSeqNo
  nextHandshakeSeqNo := e.nextHandshakeSeqNo
  transcript := e.transcript
  peerEncryptionEnabled := e.peerEncryptionEnabled
  releaseAppData := e.releaseAppData
  clock := e.clock

/-- The posture and what was received, which sending leaves alone too. -/
def standing (e : Engine) : Posture × List Incoming := (e.posture, e.queueRx)

end Engine

section Sending

theorem Engine.emit_standing {e : Engine} {contentType : ContentType} {epoch : Nat} {append : Bool}
    {fragment : Bytes} : (e.emit contentType epoch append fragment).standing = e.standing := by
  have counted : (e.countRecord epoch).standing = e.standing := by
    unfold Engine.countRecord
    split <;> rfl
  unfold Engine.emit Engine.enqueueRecord
  split <;> exact counted

theorem sendNonce_standing {suite : Dtls12CipherSuite} {iv : Bytes} {sequence : Sequence} :
    Along (Keeps Engine.standing) (sendNonce suite iv sequence) := by
  have xor : ReadOnly (xorNonce iv sequence) := along_ite (fun _ => along_pure) fun _ => along_throw
  have join : ∀ explicitNonce, ReadOnly (joinNonce iv explicitNonce) := fun _ =>
    along_ite (fun _ => along_pure) fun _ => along_throw
  refine along_bind along_get fun e => along_ite (fun _ => ?_) fun _ => along_ite (fun _ => ?_) fun _ =>
    along_throw
  · exact along_bind xor.along fun _ => along_pure
  · refine along_bind (along_get_bind fun e => rfl) fun explicitNonce => ?_
    exact along_bind (join explicitNonce).along fun _ => along_pure

theorem protectFragment_standing {contentType : ContentType} {sequence : Sequence} {fragment : Bytes} :
    Along (Keeps Engine.standing) (protectFragment contentType sequence fragment) := by
  refine along_bind selectedCipherSuite_readOnly.along fun suite => along_bind along_get fun e => ?_
  refine along_bind along_orThrow fun iv => along_bind sendNonce_standing fun nonces => ?_
  refine along_bind along_liftCrypto fun cipher => ?_
  exact along_bind along_liftCrypto fun ciphertext => along_pure

theorem createRecordInner_standing {contentType : ContentType} {epoch : Nat}
    {saveFragment forceNewDatagram : Bool} {fragment : Bytes} : Along (Keeps Engine.standing)
      (createRecordInner contentType epoch saveFragment forceNewDatagram fragment) := by
  refine along_bind along_get fun e => along_ite (fun _ => along_throw) fun _ => ?_
  refine along_bind (along_runIf fun _ => along_modify fun _ => rfl) fun _ => ?_
  refine along_bind checkQueueTx_readOnly.along fun _ => along_ite (fun _ => ?_) fun _ => ?_
  · exact along_modify fun _ => Engine.emit_standing
  · exact along_bind protectFragment_standing fun _ => along_modify fun _ => Engine.emit_standing

theorem createRecord_standing {contentType : ContentType} {epoch : Nat} {saveFragment : Bool}
    {fragment : Bytes} :
    Along (Keeps Engine.standing) (createRecord contentType epoch saveFragment fragment) :=
  createRecordInner_standing

theorem resendEntries_standing {forceNewDatagram : Bool} {entries : List Entry} :
    Along (Keeps Engine.standing) (resendEntries forceNewDatagram entries) := by
  induction entries generalizing forceNewDatagram with
  | nil => exact along_pure
  | cons entry rest inductionHypothesis =>
      exact along_bind createRecordInner_standing fun _ => inductionHypothesis

theorem flightResend_standing : Along (Keeps Engine.standing) flightResend := by
  refine along_get_bind fun e => ?_
  dsimp only
  rw [post_bind, post_set, post_ensuring]
  exact (resendEntries_standing _).mono (fun _ _ same => same) fun _ _ same => same

theorem createFragments_standing {header : Header} {epoch fixedOverhead : Nat} {body : Bytes}
    {fuel offset : Nat} :
    Along (Keeps Engine.standing) (createFragments header epoch fixedOverhead body fuel offset) := by
  induction fuel generalizing offset with
  | zero => exact along_throw
  | succ fuel inductionHypothesis =>
      refine along_ite (fun _ => along_bind along_get fun e => ?_) fun _ => along_pure
      exact along_bind createRecord_standing fun _ => along_runIf fun _ => inductionHypothesis

theorem createRecord_posture {contentType : ContentType} {epoch : Nat} {saveFragment : Bool}
    {fragment : Bytes} :
    Along (Keeps Engine.posture) (createRecord contentType epoch saveFragment fragment) :=
  createRecord_standing.mono fun _ _ same => congrArg Prod.fst same

theorem flightResend_posture : Along (Keeps Engine.posture) flightResend :=
  flightResend_standing.mono fun _ _ same => congrArg Prod.fst same

theorem createFragments_posture {header : Header} {epoch fixedOverhead : Nat} {body : Bytes}
    {fuel offset : Nat} :
    Along (Keeps Engine.posture) (createFragments header epoch fixedOverhead body fuel offset) :=
  createFragments_standing.mono fun _ _ same => congrArg Prod.fst same

end Sending

section Receiving

theorem parseRecord_posture {recordSlice : Bytes} :
    Along (Keeps Engine.posture) (parseRecord recordSlice) := by
  refine along_bind along_get fun e => ?_
  split
  · exact along_pure
  · refine along_ite (fun _ => along_pure) fun _ => ?_
    refine along_bind along_get fun e => along_ite (fun _ => along_pure) fun _ => ?_
    refine along_ite (fun _ => along_pure) fun _ => along_bind openNonce_readOnly.along fun nonce => ?_
    split
    · exact along_ite (fun _ => along_pure) fun _ => along_throw
    · refine along_bind (along_modify fun e => rfl) fun _ => ?_
      split
      · exact along_throw
      · exact along_pure

theorem parseRecordsLoop_posture {fuel : Nat} {packet : Bytes} {parsed : List Record} :
    Along (Keeps Engine.posture) (parseRecordsLoop fuel packet parsed) := by
  induction fuel generalizing packet parsed with
  | zero => exact along_pure
  | succ fuel inductionHypothesis =>
      unfold parseRecordsLoop
      refine along_ite (fun _ => along_pure) fun _ => ?_
      split
      · exact along_throw
      · refine along_bind parseRecord_posture fun found => ?_
        split
        · exact inductionHypothesis
        · exact along_ite (fun _ => inductionHypothesis) fun _ => along_throw

theorem classifyRecord_posture {r : Record} : Along (Keeps Engine.posture) (classifyRecord r) := by
  have alert : Along (Keeps Engine.posture) (classifyAlert r) := by
    refine along_get_bind fun e => ?_
    simp only [post_ite]
    refine ⟨fun _ => ⟨fun _ => rfl, fun _ => ?_⟩, fun _ => ⟨fun _ => rfl, fun _ => ?_⟩⟩
    · split <;> rfl
    · split
      · simp only [post_ite]
        exact ⟨fun _ => rfl, fun _ => ⟨fun _ => rfl, fun _ => rfl⟩⟩
      · rfl
  refine along_bind along_get fun e => along_ite (fun _ => along_pure) fun _ => ?_
  refine along_ite (fun _ => along_pure) fun _ => along_ite (fun _ => alert) fun _ => ?_
  exact along_ite (fun _ => along_pure) fun _ => along_pure

theorem classifyRecords_posture {records : List Record} :
    Along (Keeps Engine.posture) (classifyRecords records) := by
  induction records with
  | nil => exact along_pure
  | cons r rest inductionHypothesis =>
      refine along_bind classifyRecord_posture fun _ => ?_
      exact along_bind inductionHypothesis fun _ => along_pure

theorem insertIncoming_posture {incoming : Incoming} :
    Along (Keeps Engine.posture) (insertIncoming incoming) := by
  refine along_bind along_get fun e => along_ite (fun _ => along_throw) fun _ => ?_
  split
  · refine along_bind along_get fun e => ?_
    refine along_bind (along_runIf fun _ => flightResend_posture) fun _ => along_get_bind fun e => ?_
    dsimp only
    simp only [post_ite]
    refine ⟨fun _ => rfl, fun _ => ⟨fun _ => rfl, fun _ => ⟨fun _ => rfl, fun _ => ?_⟩⟩⟩
    split <;> rfl
  · refine along_get_bind fun e => ?_
    dsimp only
    rw [post_ite]
    refine ⟨fun _ => rfl, fun _ => ?_⟩
    split
    · rfl
    · rw [post_ite]
      exact ⟨fun _ => rfl, fun _ => rfl⟩

theorem parsePacket_posture {packet : Bytes} : Along (Keeps Engine.posture) (parsePacket packet) := by
  refine along_bind (along_bind parseRecordsLoop_posture fun _ => classifyRecords_posture) fun records => ?_
  split
  · exact along_pure
  · exact insertIncoming_posture

theorem receivePacket_posture {datagram : Bytes} : Along (Keeps Engine.posture) (receivePacket datagram) :=
  along_bind (along_modify fun _ => rfl) fun _ => parsePacket_posture

end Receiving

section Consuming

theorem nextRecord_posture {contentType : ContentType} :
    Along (Keeps Engine.posture) (nextRecord contentType) := by
  refine along_get_bind fun e => ?_
  split
  · rfl
  · rw [post_ite]
    refine ⟨fun _ => rfl, fun _ => ?_⟩
    rw [post_bind]
    refine (assertNoHandshakes_readOnly e).mono ?_ fun _ _ same => same ▸ rfl
    rintro _ _ rfl
    rfl

theorem dropPendingCcs_posture : Along (Keeps Engine.posture) dropPendingCcs := by
  refine along_bind along_get fun e => along_bind assertCcs_readOnly.along fun _ => ?_
  exact along_modify fun _ => rfl

theorem pollOutput_posture {bufLen : Nat} {now : Instant} :
    Along (Keeps Engine.posture) (Engine.pollOutput bufLen now) := by
  refine along_bind (along_modify fun _ => rfl) fun _ => along_bind ?_ fun data => ?_
  · refine along_get_bind fun e => ?_
    rw [post_ite]
    refine ⟨fun _ => rfl, fun _ => ?_⟩
    split
    · rfl
    · rw [post_ite]
      refine ⟨fun _ => rfl, fun _ => ?_⟩
      rw [post_bind]
      refine (assertNoHandshakes_readOnly e).mono ?_ fun _ _ same => same ▸ rfl
      rintro _ _ rfl
      rfl
  · cases data with
    | some data => exact along_pure
    | none =>
        refine along_bind (along_get_bind fun e => ?_) fun packet => ?_
        · split
          · rfl
          · rw [post_bind, post_set, post_ite]
            exact ⟨fun _ => rfl, fun _ => rfl⟩
        · cases packet with
          | some packet => exact along_pure
          | none =>
              refine along_get_bind fun e => ?_
              rw [post_ite]
              exact ⟨fun _ => rfl, fun _ => rfl⟩

/-- A timeout call sets timers and may resend the flight. -/
theorem handleTimeout_along {R : Engine → Engine → Prop} [Std.Refl R] [IsTrans Engine R]
    (timed : ∀ (e : Engine) connectTimeout flightTimeout flightBackoff rng,
      R e { e with connectTimeout, flightTimeout, flightBackoff, rng })
    (resend : Along R flightResend) {now : Instant} : Along R (Engine.handleTimeout now) := by
  have armed : ∀ e : Engine, R e (e.armTimers now) := fun e => timed e _ _ e.flightBackoff e.rng
  refine along_bind (along_modify armed) fun _ => along_bind along_get fun e => ?_
  refine along_ite (fun _ => along_throw) fun _ => ?_
  split
  · refine along_ite (fun _ => along_pure) fun _ => along_get_bind fun e => ?_
    rw [post_ite]
    refine ⟨fun _ => ?_, fun _ => Std.Refl.refl e⟩
    rw [post_bind, post_set]
    exact resend.after (timed e e.connectTimeout _ _ _)
  · exact along_pure

end Consuming

end Dimpl.Dtls12
