import Dimpl.Dtls13.Engine.Change

/-!
# Runs of an engine

The calls a client or a server makes on its engine, in any order and with any
arguments. Every call is a sequence of changes.
-/

namespace Dimpl.Dtls13

open Nom Program

/-- A call on the engine. -/
inductive Call where
  | receivePacket (datagram : Bytes)
  | injectHybridClientHello (transcriptBytes : Bytes)
  | setCipherSuite (suite : Dtls13CipherSuite)
  | nextHandshake (wanted : MessageType) (withTranscript allowUnknownClientHelloSuites : Bool)
  | advancePeerHandshakeSeq
  | createHandshake (type : MessageType) (body : Bytes)
  | createRecord (contentType : ContentType) (epoch : Nat) (saveFragment : Bool) (fragment : Bytes)
  | sendAck
  | flightBegin
  | flightStopResendTimers
  | cancelFlights
  | abort
  | installHandshakeKeys (clientTrafficSecret serverTrafficSecret : Bytes)
  | installApplicationKeys (clientTrafficSecret serverTrafficSecret : Bytes)
  | createKeyUpdate (request : KeyUpdateRequest)
  | updateRecvKeys
  | resetForHelloRetry
  | enablePeerEncryption
  | releaseApplicationData
  | handleTimeout (now : Instant)
  | pollOutput (bufLen : Nat) (now : Instant)

/-- The program of a call; what it returns does not matter to the engine. -/
def Call.program : Call → EngineM Unit
  | .receivePacket datagram => Dtls13.receivePacket datagram
  | .injectHybridClientHello bytes => modify (Engine.injectHybridClientHello bytes)
  | .setCipherSuite suite => modify (Engine.setCipherSuite suite)
  | .nextHandshake wanted withTranscript allowUnknown => do
    let _ ← nextHandshakeWithOptions wanted withTranscript allowUnknown
  | .advancePeerHandshakeSeq => modify Engine.advancePeerHandshakeSeq
  | .createHandshake type body => Dtls13.createHandshake type (pure body)
  | .createRecord contentType epoch saveFragment fragment =>
    Dtls13.createRecord contentType epoch saveFragment fragment
  | .sendAck => Dtls13.sendAck
  | .flightBegin => modify Engine.flightBegin
  | .flightStopResendTimers => modify Engine.flightStopResendTimers
  | .cancelFlights => modify Engine.cancelFlights
  | .abort => modify Engine.abort
  | .installHandshakeKeys client server => Dtls13.installHandshakeKeys client server
  | .installApplicationKeys client server => Dtls13.installApplicationKeys client server
  | .createKeyUpdate request => Dtls13.createKeyUpdate request
  | .updateRecvKeys => Dtls13.updateRecvKeys
  | .resetForHelloRetry => modify Engine.resetForHelloRetry
  | .enablePeerEncryption => Dtls13.enablePeerEncryption
  | .releaseApplicationData => modify Engine.releaseApplicationData
  | .handleTimeout now => Engine.handleTimeout now
  | .pollOutput bufLen now => do
    let _ ← Engine.pollOutput bufLen now

namespace Engine

/-- The state after a call, whether it succeeded or not. -/
def exec (e : Engine) (call : Call) : Engine := finalState call.program e

end Engine

/-- What the rules ask of a call made in a state. -/
def Rules.Allow (rules : Rules) (e : Engine) : Call → Prop
  | .receivePacket datagram => ∀ slice ∈ recordSlices datagram, rules.slices slice
  | .resetForHelloRetry => rules.mayRetry e
  | .enablePeerEncryption =>
    rules.mayEnable e ∧ ∀ r ∈ e.rxRecords, ∀ slice ∈ recordSlices r.buffer, rules.slices slice
  | .releaseApplicationData => rules.mayRelease e
  | _ => True

section Exec

variable {rules : Rules} {e : Engine}

/-- A state change outside the core that at most empties the flight. -/
theorem Moves.of_core {e' : Engine} (same : e'.core = e.core)
    (flight : e'.flightSavedRecords = e.flightSavedRecords ∨ e'.flightSavedRecords = []) :
    Moves rules e e' := by
  refine Quiet.moves (Quiet.of_core same fun _ entry member => ?_)
  rcases flight with kept | emptied
  · exact .inr (.inr ⟨entry, kept ▸ member, rfl⟩)
  · simp [emptied] at member

theorem receivePacket_moves {datagram : Bytes}
    (slices : ∀ slice ∈ recordSlices datagram, rules.slices slice) :
    Along (Moves rules) (receivePacket datagram) := by
  refine along_bind (along_modify fun e => Change.moves .received rfl rfl rfl rfl) fun _ => ?_
  exact moves_of_quiet (parsePacket_quiet slices)

/-- Every call is a sequence of changes. -/
theorem exec_changes {call : Call} (free : ¬rules.known) (allow : rules.Allow e call) :
    Changes rules e (e.exec call) := by
  have free' : ∀ {p : Prop}, rules.known → p := fun known => absurd known free
  have moves : Post call.program e (fun _ e' => Moves rules e e') (fun _ e' => Moves rules e e') := by
    cases call with
    | receivePacket datagram => exact receivePacket_moves allow e
    | nextHandshake wanted withTranscript allowUnknown =>
        exact moves_of_quiet (along_bind nextHandshakeWithOptions_quiet fun _ => along_pure) e
    | createHandshake type body =>
        exact moves_of_quiet (createHandshake_quiet along_pure) e
    | createRecord contentType epoch saveFragment fragment =>
        exact (createRecord_sends (S := rules.slices) (K := rules.known) free').mono
          (fun _ _ sends => sends.1.moves) fun _ _ sends => sends.1.moves
    | sendAck => exact moves_of_quiet sendAck_quiet e
    | installHandshakeKeys client server => exact installHandshakeKeys_moves e
    | installApplicationKeys client server => exact installApplicationKeys_moves free'
    | createKeyUpdate request => exact createKeyUpdate_moves e
    | updateRecvKeys => exact updateRecvKeys_moves e
    | resetForHelloRetry => exact resetForHelloRetry_moves allow
    | enablePeerEncryption => exact enablePeerEncryption_moves allow.1 allow.2
    | releaseApplicationData => exact releaseApplicationData_moves allow
    | handleTimeout now => exact moves_of_quiet handleTimeout_quiet e
    | pollOutput bufLen now =>
        exact moves_of_quiet (along_bind pollOutput_quiet fun _ => along_pure) e
    | injectHybridClientHello bytes =>
        exact (Moves.of_core rfl (.inl rfl) : Moves rules e (e.injectHybridClientHello bytes))
    | setCipherSuite suite => exact (Moves.of_core rfl (.inl rfl) : Moves rules e (e.setCipherSuite suite))
    | advancePeerHandshakeSeq =>
        exact (Moves.of_core rfl (.inl rfl) : Moves rules e e.advancePeerHandshakeSeq)
    | flightBegin => exact (Moves.of_core rfl (.inr rfl) : Moves rules e e.flightBegin)
    | flightStopResendTimers =>
        exact (Moves.of_core rfl (.inl rfl) : Moves rules e e.flightStopResendTimers)
    | cancelFlights => exact (Moves.of_core rfl (.inr rfl) : Moves rules e e.cancelFlights)
    | abort => exact (Moves.of_core rfl (.inr rfl) : Moves rules e e.abort)
  exact (post_state.mp moves free').1

end Exec

end Dimpl.Dtls13
