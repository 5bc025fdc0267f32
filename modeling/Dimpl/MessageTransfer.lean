import Dimpl.Dtls13.Engine.Transfer
import Dimpl.Reassembly

/-!
# Messages on a lossy network

What one side cuts into records, the other puts together, once a copy of each record came in.
-/

namespace Dimpl

open Nom Program Pieces

namespace Dtls13

/-- An engine that waits for the message with a number and has nothing queued. -/
structure Engine.Awaits (e : Engine) (messageSeq : Nat) : Prop where
  next : e.peerHandshakeSeqNo = messageSeq
  idle : e.queueRx = []
  opening : e.closeNotifySequence = none
  handshaking : e.releaseAppData = false

/-- What came in was sent, and of each record at least one copy came in. -/
structure Arrived (rounds : List (List Bytes)) (records : Nat) (datagrams : List Bytes) : Prop where
  genuine : ∀ datagram ∈ datagrams, ∃ round ∈ rounds, datagram ∈ round
  all : ∀ index < records, ∃ round ∈ rounds, ∃ datagram ∈ datagrams, round[index]? = some datagram

/-- Copies of all records of a message came in, and of nothing else. -/
theorem receive_arrived {header : Header} {body : Bytes} {pieces : List (Piece UInt8)} {receiver : Engine}
    {rounds : List (List Bytes)} {datagrams : List Bytes} {allowUnknown : Bool}
    (partition : Partition body pieces) (few : pieces.length ≤ maxDefragmentPackets)
    (length : header.length = body.length) (awaits : receiver.Awaits header.messageSeq)
    (room : pieces.length < receiver.config.maxQueueRx)
    (sent : ∀ round ∈ rounds, ∃ number, round = (pieces.zipIdx number).map (clearWire header) ∧
      ∀ item ∈ pieces.zipIdx number, Carriable header item)
    (arrived : Arrived rounds pieces.length datagrams) :
    ∃ receiver', receiveAll datagrams receiver = .ok () receiver' ∧
      receiver'.hasCompleteHandshake header.msgType = true ∧
      receiver'.Reassembles header.msgType allowUnknown body := by
  have made : ∀ datagram ∈ datagrams, ∃ item : Piece UInt8 × Nat,
      (Carriable header item ∧ item.1 ∈ pieces) ∧ clearWire header item = datagram := by
    intro datagram member
    obtain ⟨round, isRound, inRound⟩ := arrived.genuine datagram member
    obtain ⟨number, rfl, carriable⟩ := sent round isRound
    obtain ⟨item, isSent, rfl⟩ := List.mem_map.mp inRound
    exact ⟨item, ⟨carriable item isSent, List.fst_mem_of_mem_zipIdx isSent⟩, rfl⟩
  obtain ⟨delivered, rfl, copies⟩ := exists_list_map made
  have all : ∀ p ∈ pieces, ∃ item ∈ delivered, item.1 = p := by
    intro p isPiece
    obtain ⟨index, inside, rfl⟩ := List.getElem_of_mem isPiece
    obtain ⟨round, isRound, datagram, cameIn, isNext⟩ := arrived.all index inside
    obtain ⟨number, rfl, carriable⟩ := sent round isRound
    obtain ⟨item, inDelivered, rfl⟩ := List.mem_map.mp cameIn
    rw [List.getElem?_map, List.getElem?_zipIdx, List.getElem?_eq_getElem inside] at isNext
    have same := Option.some.inj isNext
    have isSent : (pieces[index], number + index) ∈ pieces.zipIdx number := by
      rw [List.mk_add_mem_zipIdx_iff_getElem?, List.getElem?_eq_getElem inside]
    refine ⟨item, inDelivered, partition.at_offset (copies item inDelivered).2 isPiece ?_⟩
    exact (copies item inDelivered).1.offset (carriable _ isSent) same.symm
  have none : Arrangement.Arranged Incoming.key Incoming.whole [] receiver.queueRx := by
    rw [awaits.idle]
    exact .nil
  have received := @receive_clear receiver header pieces [] delivered awaits.next.symm awaits.opening
    awaits.handshaking room copies none
  unfold Post at received
  split at received
  · rename_i receiver' isReceived
    obtain ⟨numbers, queueRx, log, rfl, arranged⟩ := received
    obtain ⟨chosen, queue, isCopy, whole⟩ := chosen_complete partition copies arranged all
    exact ⟨_, isReceived, reassembles_clear partition isCopy whole few length awaits.next.symm queue⟩
  · exact received.elim

end Dtls13

/-- A message of version 1.3 that is sent is cut into fragments that follow one another from the start
of its body to the end, none of them empty unless the body is. Each is saved and goes into a record
of its own, the records are numbered one after the other and stand in the queue in this order, and
no datagram gets longer than the limit. -/
theorem message_cut (type : Dtls13.MessageType) (writeBody : Dtls13.EngineM Bytes)
    (start sent : Dtls13.Engine) (created : Dtls13.createHandshake type writeBody start = .ok () sent) :
    ∃ body e, writeBody start = .ok body e ∧ (e.overhead type < e.config.mtu →
      Dtls13.Dispatched type body e sent ∧
        ((∀ suite, e.suiteProvider = some suite → e.Seals suite.tagLen) →
          (∀ datagram ∈ e.queueTx, datagram.length ≤ e.config.mtu) →
            ∀ datagram ∈ sent.queueTx, datagram.length ≤ e.config.mtu)) := by
  have dispatched := @Dtls13.createHandshake_dispatched start type writeBody
  rw [Post, created] at dispatched
  obtain ⟨body, e, built, cut⟩ := dispatched
  exact ⟨body, e, built, fun capacity =>
    ⟨cut capacity, (cut capacity).datagrams_le capacity⟩⟩

namespace Dtls13

/-- The body of a hello of 200 bytes. -/
def helloBody : EngineM Bytes := pure (List.replicate 200 7)

/-- A fresh engine that sent it, in two records. -/
def Engine.helloSent : Engine := finalState (createHandshake .clientHello helloBody) Engine.fresh

/-- The records of that hello, first and once again. -/
def helloRounds : List (List Bytes) := (value? (transmit 1) Engine.helloSent).getD []

/-- The second record is lost the first time and comes twice the second time. -/
def helloDatagrams : List Bytes :=
  [(helloRounds.getD 1 []).getD 1 [], (helloRounds.getD 0 []).getD 0 [], (helloRounds.getD 1 []).getD 1 []]

theorem helloSent_created : createHandshake .clientHello helloBody Engine.fresh = .ok () Engine.helloSent :=
  ok_of_value (by decide +kernel)

end Dtls13

theorem message_cut_hello :
    ∃ body e, Dtls13.helloBody Dtls13.Engine.fresh = .ok body e ∧
      (e.overhead .clientHello < e.config.mtu →
        Dtls13.Dispatched .clientHello body e Dtls13.Engine.helloSent ∧
          ((∀ suite, e.suiteProvider = some suite → e.Seals suite.tagLen) →
            (∀ datagram ∈ e.queueTx, datagram.length ≤ e.config.mtu) →
              ∀ datagram ∈ Dtls13.Engine.helloSent.queueTx, datagram.length ≤ e.config.mtu)) :=
  message_cut _ _ _ _ Dtls13.helloSent_created

end Dimpl
