import Dimpl.CookieExchange
import Dimpl.Dtls13.Engine.Counters

/-!
# Counters of handshake messages and epochs

A counter that is full starts again at zero; nothing refuses the message or the KeyUpdate that
takes the last number. How many of them there were is all that decides.
-/

namespace Dimpl

open Nom Program

namespace Dtls13

/-- Every counter fits its sixteen bits. -/
structure Engine.InWord (e : Engine) : Prop where
  next : e.nextHandshakeSeqNo < 65536
  peer : e.peerHandshakeSeqNo < 65536
  sendEpoch : e.appSendEpoch < 65536
  recvEpoch : e.counters.newestRecvEpoch < 65536

/-- No counter starts again along the calls, and no number of it is taken twice. -/
structure Engine.CountsOn (e : Engine) (calls : List Call) : Prop where
  next : Climbs exec nextHandshakeSeqNo (fun _ => Call.sends) e calls
  peer : Climbs exec peerHandshakeSeqNo (fun _ => Call.advances) e calls
  sendEpoch : Climbs exec appSendEpoch Call.rotatesSend e calls
  recvEpoch : Climbs exec (fun e => e.counters.newestRecvEpoch) Call.rotatesRecv e calls

/-- The counters have room for all messages that are sent and read and for all KeyUpdates. -/
structure Engine.HasRoom (e : Engine) (calls : List Call) : Prop where
  next : e.nextHandshakeSeqNo + calls.countP Call.sends < 65536
  peer : e.peerHandshakeSeqNo + calls.countP Call.advances < 65536
  sendEpoch : e.appSendEpoch + takings exec Call.rotatesSend e calls < 65536
  recvEpoch : e.counters.newestRecvEpoch + takings exec Call.rotatesRecv e calls < 65536

theorem countsOn_iff {e : Engine} {calls : List Call} (inWord : e.InWord)
    (proper : Meets Engine.exec (fun e call => call.Proper e) e calls) :
    e.CountsOn calls ↔ e.HasRoom calls := by
  have wide : 1 < 65536 := by decide
  have next := climbs_iff (fun e call proper => congrArg Counters.nextHandshakeSeqNo (exec_counters proper))
    wide inWord.next proper
  have peer := climbs_iff (fun e call proper => congrArg Counters.peerHandshakeSeqNo (exec_counters proper))
    wide inWord.peer proper
  have sendEpoch := climbs_iff (fun e call proper => congrArg Counters.appSendEpoch (exec_counters proper))
    wide inWord.sendEpoch proper
  have recvEpoch : Climbs Engine.exec (fun e => e.counters.newestRecvEpoch) Call.rotatesRecv e calls ↔
      e.counters.newestRecvEpoch + takings Engine.exec Call.rotatesRecv e calls < 65536 :=
    climbs_iff (fun e call proper => congrArg Counters.newestRecvEpoch (exec_counters proper))
      wide inWord.recvEpoch proper
  have sent : takings Engine.exec (fun _ => Call.sends) e calls = calls.countP Call.sends :=
    takings_static fun _ _ => rfl
  have advanced : takings Engine.exec (fun _ => Call.advances) e calls = calls.countP Call.advances :=
    takings_static fun _ _ => rfl
  rw [sent] at next
  rw [advanced] at peer
  exact ⟨fun ⟨a, b, c, d⟩ => ⟨next.mp a, peer.mp b, sendEpoch.mp c, recvEpoch.mp d⟩,
    fun ⟨a, b, c, d⟩ => ⟨next.mpr a, peer.mpr b, sendEpoch.mpr c, recvEpoch.mpr d⟩⟩

end Dtls13

namespace Dtls12

/-- Every counter fits its sixteen bits. -/
structure Engine.InWord (e : Engine) : Prop where
  next : e.nextHandshakeSeqNo < 65536
  peer : e.peerHandshakeSeqNo < 65536

/-- No counter starts again along the calls, and no number of it is taken twice. -/
structure Engine.CountsOn (e : Engine) (calls : List Call) : Prop where
  next : Climbs exec nextHandshakeSeqNo (fun _ => Call.sends) e calls
  peer : Climbs exec peerHandshakeSeqNo Call.reads e calls

/-- The counters have room for all messages that are sent and read. -/
structure Engine.HasRoom (e : Engine) (calls : List Call) : Prop where
  next : e.nextHandshakeSeqNo + calls.countP Call.sends < 65536
  peer : e.peerHandshakeSeqNo + takings exec Call.reads e calls < 65536

theorem countsOn_iff {e : Engine} {calls : List Call} (inWord : e.InWord)
    (proper : Meets Engine.exec (fun e call => call.Proper e) e calls) :
    e.CountsOn calls ↔ e.HasRoom calls := by
  have wide : 1 < 65536 := by decide
  have next := climbs_iff (fun e call proper => congrArg Counters.nextHandshakeSeqNo (exec_counters proper))
    wide inWord.next proper
  have peer := climbs_iff (fun e call proper => congrArg Counters.peerHandshakeSeqNo (exec_counters proper))
    wide inWord.peer proper
  have sent : takings Engine.exec (fun _ => Call.sends) e calls = calls.countP Call.sends :=
    takings_static fun _ _ => rfl
  rw [sent] at next
  exact ⟨fun ⟨a, b⟩ => ⟨next.mp a, peer.mp b⟩, fun ⟨a, b⟩ => ⟨next.mpr a, peer.mpr b⟩⟩

end Dtls12

/-- The counters of an engine go on without starting again exactly when they have room for
the messages and KeyUpdates of the run. -/
theorem counters_climb_iff (e13 : Dtls13.Engine) (calls13 : List Dtls13.Call) (e12 : Dtls12.Engine)
    (calls12 : List Dtls12.Call) :
    (e13.InWord → Meets Dtls13.Engine.exec (fun e call => call.Proper e) e13 calls13 →
      (e13.CountsOn calls13 ↔ e13.HasRoom calls13)) ∧
    (e12.InWord → Meets Dtls12.Engine.exec (fun e call => call.Proper e) e12 calls12 →
      (e12.CountsOn calls12 ↔ e12.HasRoom calls12)) :=
  ⟨Dtls13.countsOn_iff, Dtls12.countsOn_iff⟩

namespace Dtls12

/-- What a server that wants cookies does with its engine for a hello without one. -/
def helloRound (number : Nat) : List Call :=
  [.receivePacket ((Client.greeted.handsOut.set 17 (UInt8.ofNat (number / 256))).set 18 (UInt8.ofNat number)),
   .nextHandshake .clientHello, .flightBegin,
   .createHandshake .helloVerifyRequest (HelloVerifyRequest.serialize ⟨.dtls10, List.replicate 32 0⟩),
   .resetServerForHelloVerifyRequest, .pollOutput 2000 0]

theorem countP_helloRound {count : Nat} :
    ((List.range count).flatMap helloRound).countP Call.sends = count := by
  induction count with
  | zero => rfl
  | succ count inductionHypothesis =>
      have one : (helloRound count).countP Call.sends = 1 := rfl
      rw [List.range_succ, List.flatMap_append, List.countP_append, inductionHypothesis, List.flatMap_singleton,
        one]

theorem helloRound_proper {e : Engine} {numbers : List Nat} :
    Meets Engine.exec (fun e call => call.Proper e) e (numbers.flatMap helloRound) := by
  induction numbers generalizing e with
  | nil => trivial
  | cons number rest inductionHypothesis =>
      exact ⟨trivial, trivial, trivial, trivial, trivial, trivial, inductionHypothesis⟩

/-- As many hellos as there are numbers are too many. -/
theorem helloRounds_overflow {e : Engine} {count : Nat} (inWord : e.InWord) (many : 65536 ≤ count) :
    ¬e.CountsOn ((List.range count).flatMap helloRound) := by
  intro counts
  have room := ((countsOn_iff inWord helloRound_proper).mp counts).next
  rw [countP_helloRound] at room
  omega

end Dtls12

/-- The 65536th hello without a cookie takes the number of the answers back to zero. -/
theorem not_counters_climb :
    ¬ ((∀ (e : Dtls13.Engine) calls, e.InWord →
          Meets Dtls13.Engine.exec (fun e call => call.Proper e) e calls → e.CountsOn calls) ∧
        ∀ (e : Dtls12.Engine) calls, e.InWord →
          Meets Dtls12.Engine.exec (fun e call => call.Proper e) e calls → e.CountsOn calls) := by
  rintro ⟨-, climbs⟩
  have fresh : Dtls12.Server.strict.engine.InWord := ⟨by decide, by decide⟩
  have always : ∀ count, Dtls12.Server.strict.engine.CountsOn
      ((List.range count).flatMap Dtls12.helloRound) := fun count =>
    climbs _ _ fresh Dtls12.helloRound_proper
  exact Dtls12.helloRounds_overflow fresh (Nat.le_refl 65536) (always 65536)

end Dimpl
