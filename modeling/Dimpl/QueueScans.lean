import Dimpl.Dtls13.Engine.Scans
import Dimpl.Dtls13.Exchange

/-!
# What the scans of the receive queue tell

A DTLS 1.3 endpoint acknowledges what it has of a message when it needs help to get the rest of it,
and at once when there is a gap.
-/

namespace Dimpl.Dtls13

open Nom Program

/-- The fragments of the expected message that the scans look at. -/
def Engine.expectedFragments (e : Engine) : List Fragment :=
  ofMessage e.peerHandshakeSeqNo e.scanFragments

section Outcomes

variable {e : Engine} {first : Fragment}

/-- What the scans tell of a queue that starts with the expected message. -/
theorem outcomes_expected (found : e.scanFragments.head? = some first)
    (expected : first.header.messageSeq = e.peerHandshakeSeqNo) :
    e.completeWithSeq first.header.msgType e.peerHandshakeSeqNo = decide (e.scanFirst first = .complete) ∧
      e.helpNeeded = decide (e.scanFirst first ≠ .complete) ∧
      e.gapFound = decide (e.scanFirst first = .gap) := by
  rw [completeWithSeq_eq, helpNeeded_eq, gapFound_eq]
  unfold Engine.hasCompleteHandshake Engine.handshakeAckHelpNeeded Engine.hasGapInIncomingHandshake
  rw [found]
  simp [expected]

/-- They all miss an earlier message where the queue starts with another one. -/
theorem outcomes_unexpected (found : e.scanFragments.head? = some first)
    (unexpected : first.header.messageSeq ≠ e.peerHandshakeSeqNo) (wanted : MessageType) :
    e.completeWithSeq wanted e.peerHandshakeSeqNo = false ∧ e.helpNeeded = true ∧ e.gapFound = true := by
  rw [completeWithSeq_eq, helpNeeded_eq, gapFound_eq]
  unfold Engine.hasCompleteHandshake Engine.handshakeAckHelpNeeded Engine.hasGapInIncomingHandshake
  rw [found]
  simp [unexpected]

theorem outcomes_empty (found : e.scanFragments.head? = none) :
    e.helpNeeded = false ∧ e.gapFound = false := by
  rw [helpNeeded_eq, gapFound_eq]
  unfold Engine.handshakeAckHelpNeeded Engine.hasGapInIncomingHandshake
  rw [found]
  exact ⟨rfl, rfl⟩

theorem scanFirst_incomplete_iff (expected : first.header.messageSeq = e.peerHandshakeSeqNo) :
    e.scanFirst first = .incomplete ↔ Waiting first.header.length 0 e.expectedFragments := by
  unfold Engine.scanFirst Engine.expectedFragments
  rw [scan_incomplete_iff, expected]

theorem waits_iff_incomplete (found : e.scanFragments.head? = some first)
    (expected : first.header.messageSeq = e.peerHandshakeSeqNo) :
    (e.helpNeeded = true ∧ e.gapFound = false) ↔ e.scanFirst first = .incomplete := by
  obtain ⟨-, help, gap⟩ := outcomes_expected found expected
  rw [help, gap]
  cases e.scanFirst first with
  | gap => decide
  | complete => decide
  | incomplete => decide

theorem expectedFragments_ne_nil (found : e.scanFragments.head? = some first)
    (expected : first.header.messageSeq = e.peerHandshakeSeqNo) : e.expectedFragments ≠ [] := by
  refine List.ne_nil_of_mem (a := first) (List.mem_filter.mpr ⟨List.mem_of_head? found, ?_⟩)
  exact decide_eq_true expected

end Outcomes

/-- A record with two fragments of a hello: three bytes of a hello of five, and ten bytes of it. -/
def helloOverrun : Bytes :=
  [22, 254, 253, 0, 0, 0, 0, 0, 0, 0, 0, 0, 37, 1, 0, 0, 5, 0, 0, 0, 0, 0, 0, 0, 3, 7, 7, 7, 1, 0, 0,
    10, 0, 0, 0, 0, 0, 0, 0, 10] ++ List.replicate 10 7

/-- A server that got it. -/
def Engine.overrun : Engine :=
  finalState (receivePacket helloOverrun) (Exchange.sample Sample.config Sample.certificate).server.engine

end Dimpl.Dtls13
