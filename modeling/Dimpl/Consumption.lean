import Dimpl.Dtls12.Engine.Reassembly
import Dimpl.Dtls13.Engine.Reassembly
import Dimpl.Dtls13.Exchange

/-!
# What a message takes from the receive queue

Reassembly ends a message where the message type changes and does not look at message
numbers, so a message takes a following one of its type with it.
-/

namespace Dimpl

open Nom Program

/-- A call that returns a message marks only fragments of that message exactly when the
unhandled fragments from the first one up to the next message type belong to one message.
The next call starts behind them; over calls that all start so, a fragment gets handled only
by the call that returns its message. -/
theorem consumption_exact (wanted : Dtls13.MessageType) (wanted12 : Dtls12.MessageType) :
    (∀ (withTranscript allowUnknown : Bool) (e e' : Dtls13.Engine) (message : Dtls13.Handshake × Bytes),
      Dtls13.nextHandshakeWithOptions wanted withTranscript allowUnknown e = .ok (some message) e' →
      (Dtls13.HandlesOnly (· = message.1.header.messageSeq) e e' ↔ e.OneMessage) ∧
      e'.pendingFragments = (e.pendingFragments.drop (Dtls13.stretch e.pendingFragments).length).dropWhile
        Dtls13.Fragment.handled) ∧
    (∀ (e e' : Dtls12.Engine) (message : Dtls12.Handshake × Bytes),
      Dtls12.nextHandshake wanted12 e = .ok (some message) e' →
      (Dtls12.HandlesOnly (· = message.1.header.messageSeq) e e' ↔ e.OneMessage) ∧
      e'.pendingFragments = (e.pendingFragments.drop (Dtls12.stretch e.pendingFragments).length).dropWhile
        Dtls12.Fragment.handled) ∧
    (∀ (e e' : Dtls13.Engine) (messages : List Dtls13.Handshake), Dtls13.Fetches e messages e' →
      Dtls13.HandlesOnly (fun number => ∃ message ∈ messages, number = message.header.messageSeq) e e') ∧
    (∀ (e e' : Dtls12.Engine) (messages : List Dtls12.Handshake), Dtls12.Fetches e messages e' →
      Dtls12.HandlesOnly (fun number => ∃ message ∈ messages, number = message.header.messageSeq) e e') := by
  refine ⟨fun _ _ e e' message returned => ⟨?_, ?_⟩, fun e e' message returned => ⟨?_, ?_⟩,
    fun e e' messages fetches => fetches.handled, fun e e' messages fetches => fetches.handled⟩
  · exact Dtls13.handlesOnly_iff returned
  · exact Dtls13.nextHandshakeWithOptions_pending returned
  · exact Dtls12.handlesOnly_iff returned
  · exact Dtls12.nextHandshake_pending returned

namespace Dtls13

/-- The datagram with the hello of a client. -/
def Exchange.helloDatagram : Bytes :=
  (run Exchange.exec (Exchange.sample { Sample.config with mtu := 150 } Sample.certificate)
    [.client (.handleTimeout 0), .client (.pollOutput 2000)]).fromClient.headD []

/-- A server that got the hello twice in one datagram, once as message 0 in record 0 and once
as message 1 in record 1. -/
def Engine.helloTwice : Engine :=
  finalState (receivePacket (Exchange.helloDatagram ++ (Exchange.helloDatagram.set 10 1).set 18 1))
    (Exchange.sample { Sample.config with mtu := 150 } Sample.certificate).server.engine

end Dtls13

/-- The first hello is returned and the second is gone with it. -/
theorem not_consumption_exact :
    ∃ (e e' : Dtls13.Engine) (message : Dtls13.Handshake × Bytes),
      Dtls13.nextHandshake .clientHello e = .ok (some message) e' ∧
      ¬Dtls13.HandlesOnly (· = message.1.header.messageSeq) e e' := by
  have returned : (value? (Dtls13.nextHandshake .clientHello) Dtls13.Engine.helloTwice).any
      Option.isSome = true := by
    decide +kernel
  have mixed : ¬Dtls13.Engine.helloTwice.OneMessage := by
    decide +kernel
  obtain ⟨found, isFound, isSome⟩ := (Option.any_eq_true _ _).mp returned
  obtain ⟨message, rfl⟩ := Option.isSome_iff_exists.mp isSome
  have call := ok_of_value isFound
  exact ⟨_, _, message, call, fun only => mixed ((Dtls13.handlesOnly_iff call).mp only)⟩

end Dimpl
