import Dimpl.Consumption
import Dimpl.Dtls12.Engine.Completeness
import Dimpl.Dtls13.Engine.Completeness

/-!
# Messages out of fragments

What the peer cuts into fragments should come out as it went in, whatever else is in the
receive queue.
-/

namespace Dimpl

open Nom Program

/-- A message of version 1.3 whose unhandled fragments agree on a body and that the completeness
test finds is read as that body when, among the fragments from its first one up to the next
message type, those of other messages end no later than what is put together before them, and
the message is complete there. For other messages that share no byte with the body this is
exactly when. -/
theorem reassembly_sound (e : Dtls13.Engine) (wanted : Dtls13.MessageType) (allowUnknown : Bool)
    (body : Bytes) (consistent : e.Consistent wanted body)
    (complete : e.hasCompleteHandshake wanted = true) :
    (e.Agrees body → e.Reassembles wanted allowUnknown body) ∧
      (e.Apart body → (e.Reassembles wanted allowUnknown body ↔ e.Agrees body)) :=
  Dtls13.reassembles_iff complete consistent

/-- Two hellos of one length, numbered 0 and 1: the first is read as it was sent. -/
theorem reassembly_sound_hellos :
    Dtls13.Engine.helloTwice.Consistent .clientHello (Dtls13.Exchange.helloDatagram.drop 25) ∧
      Dtls13.Engine.helloTwice.hasCompleteHandshake .clientHello = true ∧
      Dtls13.Engine.helloTwice.Reassembles .clientHello false
        (Dtls13.Exchange.helloDatagram.drop 25) := by
  have consistent : Dtls13.Engine.helloTwice.Consistent .clientHello
      (Dtls13.Exchange.helloDatagram.drop 25) := by decide +kernel
  have complete : Dtls13.Engine.helloTwice.hasCompleteHandshake .clientHello = true := by
    decide +kernel
  refine ⟨consistent, complete, (reassembly_sound _ _ _ _ consistent complete).1 ?_⟩
  unfold Dtls13.Engine.Agrees
  decide +kernel

namespace Dtls13

/-- A fragment of one byte, from the middle of a hello with message number 1. -/
def helloFragment : Bytes :=
  [22, 254, 253, 0, 0, 0, 0, 0, 0, 0, 1, 0, 13, 1, 0, 1, 244, 0, 1, 0, 1, 44, 0, 0, 1, 7]

/-- A server that got a whole hello and that fragment in one datagram. -/
def Engine.helloDisturbed : Engine :=
  finalState (receivePacket (Exchange.helloDatagram ++ helloFragment))
    (Exchange.sample { Sample.config with mtu := 150 } Sample.certificate).server.engine

end Dtls13

/-- The whole hello is complete in the queue, and the call fails on its length. -/
theorem not_reassembly_sound :
    ∃ (e : Dtls13.Engine) (body : Bytes), e.Consistent .clientHello body ∧
      e.hasCompleteHandshake .clientHello = true ∧ ¬e.Reassembles .clientHello false body := by
  refine ⟨Dtls13.Engine.helloDisturbed, Dtls13.Exchange.helloDatagram.drop 25, ?_, ?_, ?_⟩
  · decide +kernel
  · decide +kernel
  · intro reads
    have same : (finalState (Dtls13.nextHandshakeWithOptions .clientHello true false)
        Dtls13.Engine.helloDisturbed).transcript = [] := by
      decide +kernel
    rw [reads.1] at same
    simp [Dtls13.transcriptMessage] at same

/-- After datagrams of an honest peer, the expected message of version 1.3 is found complete
exactly when it comes in order: of the datagrams that start with a fragment of the expected or
a later message, keep for each place they start at the first that starts with a whole message,
or else the first. In the order of these places, the expected message comes first, and some
fragments it starts with cover it, none of them behind a gap. -/
theorem reassembly_complete (e e' : Dtls13.Engine) (messages : Nat → Dtls13.MessageType × Nat)
    (incomings : List Dtls13.Incoming) (empty : e.queueRx = [])
    (honest : Dtls13.Honest messages incomings) (accepted : Dtls13.insertAll incomings e = .ok () e')
    (few : e'.rxRecords.length ≤ Dtls13.maxDefragmentPackets) :
    e'.hasCompleteHandshake (messages e.peerHandshakeSeqNo).1 = true ↔
      ∃ queue, Arrangement.Arranged Dtls13.Incoming.key Dtls13.Incoming.whole
          (incomings.filter (Dtls13.Incoming.ahead e.peerHandshakeSeqNo)) queue ∧
        Dtls13.InOrder e.peerHandshakeSeqNo (messages e.peerHandshakeSeqNo).2
          (queue.flatMap Dtls13.Incoming.fragments) :=
  Dtls13.complete_iff_inOrder empty honest accepted few

namespace Dtls13

/-- A datagram with a part of a hello of 20 bytes. -/
def helloPart (offset length : UInt8) : Bytes :=
  [22, 254, 253, 0, 0, 0, 0, 0, 0, 0, offset, 0, 12 + length, 1, 0, 0, 20, 0, 0, 0, 0, offset, 0, 0,
    length] ++ List.replicate length.toNat 7

/-- Datagrams of one record each. -/
def incomingParts (datagrams : List Bytes) : List Incoming :=
  datagrams.filterMap fun datagram => (Record.ofBuffer datagram).toOption.map fun r => ⟨r, []⟩

/-- A fresh server. -/
def Engine.fresh : Engine :=
  (Exchange.sample { Sample.config with mtu := 150 } Sample.certificate).server.engine

end Dtls13

/-- Two parts that overlap, the later one first. -/
theorem reassembly_complete_parts :
    ∃ queue, Arrangement.Arranged Dtls13.Incoming.key Dtls13.Incoming.whole
        ((Dtls13.incomingParts [Dtls13.helloPart 8 12, Dtls13.helloPart 0 12]).filter
          (Dtls13.Incoming.ahead Dtls13.Engine.fresh.peerHandshakeSeqNo)) queue ∧
      Dtls13.InOrder Dtls13.Engine.fresh.peerHandshakeSeqNo 20
        (queue.flatMap Dtls13.Incoming.fragments) := by
  have accepted : value? (Dtls13.insertAll (Dtls13.incomingParts [Dtls13.helloPart 8 12,
      Dtls13.helloPart 0 12])) Dtls13.Engine.fresh = some () := by
    decide
  refine (reassembly_complete Dtls13.Engine.fresh _ (fun _ => (.clientHello, 20)) _ ?_ ?_
    (ok_of_value accepted) ?_).mp ?_
  · decide
  · decide
  · decide
  · decide

/-- A short first fragment hides a longer one that comes later. -/
theorem not_reassembly_complete :
    ∃ (e e' : Dtls13.Engine) (messages : Nat → Dtls13.MessageType × Nat)
      (incomings : List Dtls13.Incoming), e.queueRx = [] ∧ Dtls13.Honest messages incomings ∧
      Dtls13.Covered e.peerHandshakeSeqNo (messages e.peerHandshakeSeqNo).2 incomings ∧
      Dtls13.insertAll incomings e = .ok () e' ∧
      e'.rxRecords.length ≤ Dtls13.maxDefragmentPackets ∧
      e'.hasCompleteHandshake (messages e.peerHandshakeSeqNo).1 = false := by
  have accepted : value? (Dtls13.insertAll (Dtls13.incomingParts [Dtls13.helloPart 0 5,
      Dtls13.helloPart 0 12, Dtls13.helloPart 12 8])) Dtls13.Engine.fresh = some () := by
    decide
  refine ⟨Dtls13.Engine.fresh, _, fun _ => (.clientHello, 20), _, by decide, ?_, ?_,
    ok_of_value accepted, ?_, ?_⟩
  · decide
  · decide
  · decide
  · decide

/-- Datagrams with fragments of the expected message of version 1.2, and the message asked for
behind each: it is read as it was sent exactly when, the first time that some fragments in front
of the queue follow one another exactly from its start to its end, all fragments behind these are
empty. The queue has for each place a datagram starts at the first such datagram, in the order
of these places. -/
theorem reassembly_delivers (e : Dtls12.Engine) (type : Dtls12.MessageType) (body : Bytes)
    (incomings : List Dtls12.Incoming) (empty : e.queueRx = [])
    (carries : ∀ item ∈ incomings, item.Carries e.peerHandshakeSeqNo type body)
    (admitted : ∀ item ∈ incomings, e.peerEncryptionEnabled = true → item.first.sequence.epoch ≠ 0)
    (handshaking : e.releaseAppData = false) (room : incomings.length ≤ e.config.maxQueueRx) :
    e.Reads type body (Dtls12.deliver type incomings) ↔
      Dtls12.ExactAtFirst body.length [] incomings := by
  refine Dtls12.delivers_iff carries admitted handshaking room ?_
  rw [empty]
  exact .nil

namespace Dtls12

/-- A datagram with a part of a ticket of 20 bytes. -/
def ticketPart (offset length : UInt8) : Bytes :=
  [22, 254, 253, 0, 0, 0, 0, 0, 0, 0, offset, 0, 12 + length, 4, 0, 0, 20, 0, 0, 0, 0, offset, 0, 0,
    length] ++ List.replicate length.toNat 7

/-- Datagrams of one record each. -/
def incomingParts (datagrams : List Bytes) : List Incoming :=
  datagrams.filterMap fun datagram => (Record.ofBuffer datagram 0).toOption.map fun r => ⟨r, []⟩

/-- A fresh client. -/
def Engine.fresh : Engine :=
  .new Sample.config (.certificate Sample.certificate) (Sample.rng 1) (Sample.rng 7)

end Dtls12

/-- Two parts, the later one first. -/
theorem reassembly_delivers_parts :
    Dtls12.ExactAtFirst 20 [] (Dtls12.incomingParts [Dtls12.ticketPart 12 8, Dtls12.ticketPart 0 12]) := by
  have read : (value? (Dtls12.deliver .newSessionTicket (Dtls12.incomingParts [Dtls12.ticketPart 12 8,
      Dtls12.ticketPart 0 12])) Dtls12.Engine.fresh).map (fun found => found.map Prod.snd) =
      some (some (List.replicate 20 7)) := by
    decide
  refine (reassembly_delivers Dtls12.Engine.fresh .newSessionTicket (List.replicate 20 7) _ ?_ ?_ ?_ ?_
    ?_).mp ⟨?_, fun found e' returned => ?_⟩
  · decide
  · decide
  · decide
  · decide
  · decide
  · decide
  · rw [value?, returned] at read
    obtain ⟨message, rfl, isBody⟩ := Option.map_eq_some_iff.mp (Option.some.inj read)
    exact ⟨message.1, by rw [← isBody]⟩

/-- Two parts that overlap and cover the ticket: it is never found. -/
theorem not_reassembly_delivers :
    ∃ (e : Dtls12.Engine) (type : Dtls12.MessageType) (body : Bytes) (incomings : List Dtls12.Incoming),
      e.queueRx = [] ∧ (∀ item ∈ incomings, item.Carries e.peerHandshakeSeqNo type body) ∧
      e.peerEncryptionEnabled = false ∧ e.releaseAppData = false ∧
      incomings.length ≤ e.config.maxQueueRx ∧
      (∀ i < body.length, ∃ item ∈ incomings, ∃ h ∈ item.fragments,
        h.header.fragmentOffset ≤ i ∧ i < h.header.fragmentOffset + h.header.fragmentLength) ∧
      ¬e.Reads type body (Dtls12.deliver type incomings) := by
  refine ⟨Dtls12.Engine.fresh, .newSessionTicket, List.replicate 20 7,
    Dtls12.incomingParts [Dtls12.ticketPart 0 12, Dtls12.ticketPart 8 12], ?_, ?_, ?_, ?_, ?_, ?_, ?_⟩
  · decide
  · decide
  · decide
  · decide
  · decide
  · decide
  · intro reads
    have same : (finalState (Dtls12.deliver .newSessionTicket (Dtls12.incomingParts
        [Dtls12.ticketPart 0 12, Dtls12.ticketPart 8 12])) Dtls12.Engine.fresh).transcript = [] := by
      decide
    rw [reads.1] at same
    simp [Dtls12.transcriptMessage, Dtls12.Header.serializeFragment] at same

end Dimpl
