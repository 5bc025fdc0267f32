import Dimpl.Dtls13.Engine.Ledger
import Dimpl.Dtls13.Engine.Run
import Dimpl.Lib.Counter

/-!
# Numbers of messages and epochs

Four counters of sixteen bits: the numbers of the messages that are sent and of those that
are read, and the newest epochs for sending and receiving. Every call moves each of them on by
one or leaves it.
-/

namespace Dimpl.Dtls13

open Nom Program

/-- What is counted. -/
structure Counters where
  nextHandshakeSeqNo : Nat
  peerHandshakeSeqNo : Nat
  appSendEpoch : Nat
  newestRecvEpoch : Nat

/-- The counters of an engine; the first epoch for application data is the third. -/
def Ledger.counters (ledger : Ledger) : Counters where
  nextHandshakeSeqNo := ledger.nextHandshakeSeqNo
  peerHandshakeSeqNo := ledger.peerHandshakeSeqNo
  appSendEpoch := ledger.appSendEpoch
  newestRecvEpoch := ledger.recvEpochs.getLast?.getD 3

/-- The counters of an engine. -/
def Engine.counters (e : Engine) : Counters := e.ledger.counters

namespace Call

/-- A message takes the next number. -/
def sends : Call → Bool
  | .createHandshake _ _ | .createKeyUpdate _ | .injectHybridClientHello _ => true
  | _ => false

/-- A message of the peer is dealt with. -/
def advances : Call → Bool
  | .advancePeerHandshakeSeq => true
  | _ => false

/-- A KeyUpdate is sent. -/
def rotatesSend (e : Engine) : Call → Bool
  | .createKeyUpdate request => (value? (Dtls13.createKeyUpdate request) e).isSome
  | _ => false

/-- A KeyUpdate of the peer is followed. -/
def rotatesRecv (e : Engine) : Call → Bool
  | .updateRecvKeys => (value? Dtls13.updateRecvKeys e).isSome
  | _ => false

/-- How clients and servers make their calls: a hello that was sent before comes first, and
the application keys are installed once. -/
def Proper (e : Engine) : Call → Prop
  | .injectHybridClientHello _ => e.nextHandshakeSeqNo = 0
  | .installApplicationKeys _ _ => e.appSendEpoch = 3 ∧ e.appRecvKeys = []
  | _ => True

end Call

section Calls

variable {e : Engine}

theorem newest_rotated {epochs : List Nat} (some : epochs ≠ []) :
    (rotated epochs).getLast?.getD 3 = (epochs.getLast?.getD 3 + 1) % 65536 := by
  obtain ⟨last, isLast⟩ := Option.isSome_iff_exists.mp (List.getLast?_isSome.mpr some)
  simp [rotated, isLast]

theorem newest_tail {epochs : List Nat} (long : 4 ≤ epochs.length) :
    epochs.tail.getLast?.getD 3 = epochs.getLast?.getD 3 := by
  match epochs, long with
  | first :: second :: rest, _ => simp [List.getLast?_cons]

theorem createHandshake_counters {type : MessageType} {body : Bytes} :
    (e.exec (.createHandshake type body)).counters =
      { e.counters with nextHandshakeSeqNo := (e.nextHandshakeSeqNo + 1) % 65536 } := by
  have ledger : Post (createHandshake type (pure body)) e
      (fun _ e' => e'.counters = { e.counters with nextHandshakeSeqNo := (e.nextHandshakeSeqNo + 1) % 65536 })
      fun _ e' => e'.counters = { e.counters with nextHandshakeSeqNo := (e.nextHandshakeSeqNo + 1) % 65536 } := by
    refine (createHandshake_ledger along_pure).mono (fun _ e' moved => congrArg Ledger.counters moved)
      fun _ e' moved => ?_
    rcases moved with ⟨unbuilt, -⟩ | moved
    · cases unbuilt
    · exact congrArg Ledger.counters moved
  exact post_state.mp ledger

theorem createKeyUpdate_counters {request : KeyUpdateRequest} :
    (e.exec (.createKeyUpdate request)).counters =
      { e.counters with
        nextHandshakeSeqNo := (e.nextHandshakeSeqNo + 1) % 65536
        appSendEpoch := bump 65536 ((Call.createKeyUpdate request).rotatesSend e) e.appSendEpoch } := by
  have ledger := @createKeyUpdate_ledger request e
  have final : e.exec (.createKeyUpdate request) = finalState (createKeyUpdate request) e := rfl
  have isSent : (Call.createKeyUpdate request).rotatesSend e = (value? (createKeyUpdate request) e).isSome :=
    rfl
  rw [final, isSent]
  rcases ledger.outcome with ⟨_, returned, moved⟩ | ⟨failed, _, same⟩
  · rw [returned]
    exact congrArg Ledger.counters moved
  · rw [failed]
    exact congrArg Ledger.counters same

theorem updateRecvKeys_counters :
    (e.exec .updateRecvKeys).counters =
      { e.counters with
        newestRecvEpoch := bump 65536 (Call.updateRecvKeys.rotatesRecv e) e.counters.newestRecvEpoch } := by
  have ledger := @updateRecvKeys_ledger e
  have final : e.exec .updateRecvKeys = finalState updateRecvKeys e := rfl
  have isFollowed : Call.updateRecvKeys.rotatesRecv e = (value? updateRecvKeys e).isSome := rfl
  rw [final, isFollowed]
  rcases ledger.outcome with ⟨_, returned, moved, some⟩ | ⟨failed, _, same | ⟨long, moved⟩⟩
  · rw [returned]
    refine (congrArg Ledger.counters moved).trans ?_
    simp only [Ledger.counters, newest_rotated some]
    rfl
  · rw [failed]
    exact congrArg Ledger.counters same
  · rw [failed]
    refine (congrArg Ledger.counters moved).trans ?_
    simp only [Ledger.counters, newest_tail long]
    rfl

theorem installApplicationKeys_counters {client server : Bytes}
    (proper : (Call.installApplicationKeys client server).Proper e) :
    (e.exec (.installApplicationKeys client server)).counters = e.counters := by
  obtain ⟨epoch, none⟩ := proper
  have ledger : Post (installApplicationKeys client server) e (fun _ e' => e'.counters = e.counters)
      fun _ e' => e'.counters = e.counters := by
    refine installApplicationKeys_ledger.mono (fun _ e' moved => ?_) fun _ e' same =>
      congrArg Ledger.counters same
    refine (congrArg Ledger.counters moved).trans ?_
    simp [Engine.counters, Ledger.counters, Engine.ledger, epoch, none]
  exact post_state.mp ledger

/-- What a call does to the counters. -/
theorem exec_counters {call : Call} (proper : call.Proper e) :
    (e.exec call).counters =
      { nextHandshakeSeqNo := bump 65536 call.sends e.nextHandshakeSeqNo
        peerHandshakeSeqNo := bump 65536 call.advances e.peerHandshakeSeqNo
        appSendEpoch := bump 65536 (call.rotatesSend e) e.appSendEpoch
        newestRecvEpoch := bump 65536 (call.rotatesRecv e) e.counters.newestRecvEpoch } := by
  have kept : ∀ {program : EngineM Unit}, Along (Keeps Engine.ledger) program →
      (finalState program e).counters = e.counters := fun keeps =>
    congrArg Ledger.counters (keeps.finalState e)
  cases call with
  | receivePacket datagram => exact kept receivePacket_ledger
  | injectHybridClientHello bytes =>
      have first : e.nextHandshakeSeqNo = 0 := proper
      simp only [Call.sends, bump, first]
      rfl
  | nextHandshake wanted withTranscript allowUnknown =>
      exact kept (along_bind nextHandshakeWithOptions_ledger fun _ => along_pure)
  | createHandshake type body => exact createHandshake_counters
  | createRecord contentType epoch saveFragment fragment => exact kept createRecord_ledger
  | sendAck => exact kept sendAck_ledger
  | installHandshakeKeys client server => exact kept installHandshakeKeys_ledger
  | installApplicationKeys client server => exact installApplicationKeys_counters proper
  | createKeyUpdate request => exact createKeyUpdate_counters
  | updateRecvKeys => exact updateRecvKeys_counters
  | enablePeerEncryption => exact kept enablePeerEncryption_ledger
  | handleTimeout now => exact kept handleTimeout_ledger
  | pollOutput bufLen now =>
      have polled : Post (Call.pollOutput bufLen now).program e (fun _ e' => e'.counters = e.counters)
          fun _ e' => e'.counters = e.counters := by
        refine post_bind.mpr (pollOutput_ledger.mono (fun output e' moved => ?_) fun _ e' same => ?_)
        · rcases moved with ⟨-, same⟩ | ⟨-, -, moved⟩
          · exact congrArg Ledger.counters same
          · exact (congrArg Ledger.counters moved).trans rfl
        · exact congrArg Ledger.counters same
      exact post_state.mp polled
  | setCipherSuite | advancePeerHandshakeSeq | flightBegin | flightStopResendTimers | cancelFlights
  | abort | resetForHelloRetry | releaseApplicationData => rfl

end Calls

end Dimpl.Dtls13
