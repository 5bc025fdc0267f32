import Dimpl.Dtls12.Engine.Authenticity
import Dimpl.Dtls12.Engine.Discard
import Dimpl.Dtls13.Engine.Authenticity
import Dimpl.Dtls13.Engine.Discard

/-!
# Discarded datagrams

A datagram that breaks off in the middle of a record, or holds more records than there is
room for, is dropped without a word to the caller. The records in front of the failure have
been through the replay window by then.
-/

namespace Dimpl

open Nom Program

/-- A datagram that is discarded leaves no trace in the record layer exactly when no record
in front of the failure passes the replay check and opens. -/
theorem discarded_untouched_iff (e13 : Dtls13.Engine) (e12 : Dtls12.Engine) (datagram : Bytes) :
    (∀ reason e', Dtls13.receivePacket datagram e13 = .error (.transient reason) e' →
      (e13.Untouched datagram e' ↔
        ¬Commit.Early e13.Opens e13.KeepsRaw 16 0 (Dtls13.recordSlices datagram))) ∧
    (∀ reason e', Dtls12.receivePacket datagram e12 = .error (.transient reason) e' →
      (e12.Untouched datagram e' ↔
        ¬Commit.Early e12.Opens e12.KeepsRaw 8 0 (Dtls12.recordSlices datagram))) :=
  ⟨fun _ _ discarded => Dtls13.receivePacket_discard discarded,
    fun _ _ discarded => Dtls12.receivePacket_discard discarded⟩

/-- A client past its handshake gets a record of its peer with one more byte behind it. The
datagram is discarded, and the record does not count as new any more. -/
theorem not_discarded_untouched :
    ∃ reason e', Dtls13.receivePacket (Dtls13.protectedDatagram ++ [0])
        (Dtls13.sampleRun (Dtls13.protectedCalls.take 5)) = .error (.transient reason) e' ∧
      ¬(Dtls13.sampleRun (Dtls13.protectedCalls.take 5)).Untouched
        (Dtls13.protectedDatagram ++ [0]) e' := by
  refine ⟨_, _, rfl, ?_⟩
  rintro ⟨_, _, windows, _⟩
  have replayed := congrArg (List.map fun entry => entry.replay.check 0) windows
  revert replayed
  decide

end Dimpl
