import Dimpl.Dtls12.Engine.Posture
import Dimpl.Lib.Counter

/-!
# Numbers of messages

Two counters of sixteen bits, for the messages that are sent and for those that are read. Every
call moves each of them on by one or leaves it.
-/

namespace Dimpl.Dtls12

open Nom Program

/-- What is counted. -/
structure Counters where
  nextHandshakeSeqNo : Nat
  peerHandshakeSeqNo : Nat

/-- The counters of an engine. -/
def Engine.counters (e : Engine) : Counters := ⟨e.nextHandshakeSeqNo, e.peerHandshakeSeqNo⟩

namespace Call

/-- A message takes the next number. -/
def sends : Call → Bool
  | .createHandshake _ _ | .setNextHandshakeSeqNo _ => true
  | _ => false

/-- A message of the peer is read. -/
def reads (e : Engine) : Call → Bool
  | .nextHandshake wanted => (value? (Dtls12.nextHandshake wanted) e).any Option.isSome
  | _ => false

/-- How clients make their calls: the number is set behind a hello that was sent before. -/
def Proper (e : Engine) : Call → Prop
  | .setNextHandshakeSeqNo number => number = 1 ∧ e.nextHandshakeSeqNo = 0
  | _ => True

end Call

section Calls

variable {e : Engine}

theorem counters_of_posture {e' : Engine} (same : e'.posture = e.posture) : e'.counters = e.counters :=
  congrArg (fun posture : Posture => (⟨posture.nextHandshakeSeqNo, posture.peerHandshakeSeqNo⟩ : Counters))
    same

theorem counters_along {α : Type} {program : EngineM α} (keeps : Along (Keeps Engine.posture) program) :
    Along (Keeps Engine.counters) program :=
  keeps.mono fun _ _ same => counters_of_posture same

/-- The message that is complete is the next one. -/
theorem complete_isNext {wanted : MessageType} {first : Fragment × Bytes} {rest : List (Fragment × Bytes)}
    (complete : e.hasCompleteHandshake wanted = true) (queued : e.unhandledFragments = first :: rest) :
    first.1.header.messageSeq = e.peerHandshakeSeqNo := by
  unfold Engine.hasCompleteHandshake at complete
  rw [Option.any_eq_true] at complete
  obtain ⟨head, found, isWanted⟩ := complete
  have same := unhandledFragments_head found
  rw [queued] at same
  cases same
  simp only [Bool.and_eq_true, decide_eq_true_eq] at isWanted
  exact isWanted.1.1

theorem nextHandshake_counters {wanted : MessageType} :
    Post (nextHandshake wanted) e
      (fun found e' => e'.counters =
        ⟨e.nextHandshakeSeqNo, bump 65536 found.isSome e.peerHandshakeSeqNo⟩)
      (fun _ e' => e'.counters = e.counters) := by
  unfold nextHandshake
  rw [post_bind, post_get, post_ite]
  refine ⟨fun complete => ?_, fun _ => rfl⟩
  split
  · rfl
  · rename_i first rest queued
    have isNext := complete_isNext complete queued
    unfold defragment
    rw [post_bind, post_bind, post_get]
    dsimp only
    rw [post_bind, post_set, post_ite]
    refine ⟨fun _ => rfl, fun whole => ?_⟩
    rw [post_bind, post_modify]
    split
    · rfl
    · rw [post_ite]
      refine ⟨fun _ => rfl, fun _ => ?_⟩
      rw [post_pure, post_bind, post_modify, post_pure]
      rw [← isNext]
      rfl

theorem createHandshake_counters {type : MessageType} {body : Bytes} :
    (e.exec (.createHandshake type body)).counters =
      ⟨(e.nextHandshakeSeqNo + 1) % 65536, e.peerHandshakeSeqNo⟩ := by
  have moved : Post (createHandshake type (pure body)) e
      (fun _ e' => e'.counters = ⟨(e.nextHandshakeSeqNo + 1) % 65536, e.peerHandshakeSeqNo⟩)
      fun _ e' => e'.counters = ⟨(e.nextHandshakeSeqNo + 1) % 65536, e.peerHandshakeSeqNo⟩ := by
    unfold createHandshake
    rw [post_bind, post_pure, post_bind, post_get]
    dsimp only
    rw [post_bind, post_set]
    have rest : ∀ header rounds, Along (Keeps Engine.counters) (do
        let fixedOverhead ← handshakeOverhead type.epoch
        createFragments header type.epoch fixedOverhead body rounds 0) := fun _ _ =>
      along_bind handshakeOverhead_readOnly.along fun _ => counters_along createFragments_posture
    exact rest _ _ _
  exact post_state.mp moved

theorem enablePeerEncryption_counters : Along (Keeps Engine.counters) enablePeerEncryption := by
  have again : ∀ buffers, Along (Keeps Engine.counters) (reparse buffers) := by
    intro buffers
    induction buffers with
    | nil => exact along_pure
    | cons buffer rest inductionHypothesis =>
        exact along_bind (counters_along parsePacket_posture) fun _ => inductionHypothesis
  refine along_get_bind fun e => ?_
  dsimp only
  rw [post_bind, post_set]
  exact (again _).after rfl

/-- What a call does to the counters. -/
theorem exec_counters {call : Call} (proper : call.Proper e) :
    (e.exec call).counters =
      ⟨bump 65536 call.sends e.nextHandshakeSeqNo, bump 65536 (call.reads e) e.peerHandshakeSeqNo⟩ := by
  have kept : ∀ {program : EngineM Unit}, Along (Keeps Engine.counters) program →
      (finalState program e).counters = e.counters := fun keeps => keeps.finalState e
  cases call with
  | receivePacket datagram => exact kept (counters_along receivePacket_posture)
  | setCipherSuite suite =>
      refine kept (along_get_bind fun e => ?_)
      rw [post_bind, post_orThrow]
      exact ⟨fun _ _ => rfl, fun _ => rfl⟩
  | nextHandshake wanted =>
      have counted := @nextHandshake_counters e wanted
      have final : e.exec (.nextHandshake wanted) = finalState (nextHandshake wanted) e := by
        have both : Post (do let _ ← nextHandshake wanted) e
            (fun _ e' => e' = finalState (nextHandshake wanted) e)
            fun _ e' => e' = finalState (nextHandshake wanted) e :=
          post_bind.mpr (post_state.mpr rfl)
        have ends := post_state.mp both
        exact ends
      have isRead : (Call.nextHandshake wanted).reads e =
          (value? (nextHandshake wanted) e).any Option.isSome := rfl
      rw [final, isRead]
      unfold Post at counted
      unfold finalState value?
      cases outcome : nextHandshake wanted e with
      | ok found e₁ =>
          rw [outcome] at counted
          exact counted
      | error fault e₁ =>
          rw [outcome] at counted
          exact counted
  | nextChangeCipherSpec =>
      exact kept (along_bind (counters_along nextRecord_posture) fun _ => along_pure)
  | dropPendingCcs => exact kept (counters_along dropPendingCcs_posture)
  | createHandshake type body => exact createHandshake_counters
  | createRecord contentType epoch saveFragment fragment => exact kept (counters_along createRecord_posture)
  | enablePeerEncryption => exact kept enablePeerEncryption_counters
  | setNextHandshakeSeqNo number =>
      obtain ⟨rfl, first⟩ := proper
      simp only [Call.sends, bump, first]
      rfl
  | random count =>
      refine kept (along_bind (along_get_bind fun e => ?_) fun _ => along_pure)
      rfl
  | handleTimeout now =>
      exact kept (handleTimeout_along (fun _ _ _ _ _ => rfl) (counters_along flightResend_posture))
  | pollOutput bufLen now =>
      exact kept (along_bind (counters_along pollOutput_posture) fun _ => along_pure)
  | setClient | flightBegin | flightStopResendTimers | releaseApplicationData | discardPendingWrites
  | abort | resetServerForHelloVerifyRequest | resetClientForHelloVerifyRequest | advanceEpoch0Sequence
  | addToTranscript | context => rfl

end Calls

end Dimpl.Dtls12
