import Dimpl.Dtls13.Exchange
import Dimpl.Dtls13.Timing

/-!
# An event loop that only waits

A caller with nothing to receive makes a timeout call, drains the output and waits for the
instant it is given. When that instant is not a later one the caller never waits, and every
round sends another acknowledgement.
-/

namespace Dimpl

open Nom Program

namespace Dtls13

section Tick

variable {bufLen : Nat} {now t : Instant}

/-- A round of a client reports a later instant exactly when no acknowledgement is due. -/
theorem Client.tick_later_iff {c c₁ c₂ : Client} (handled : Client.handleTimeout now c = .ok () c₁)
    (drained : Drained (Client.pollOutput bufLen) c₁ t c₂) : now < t ↔ ¬c₁.engine.AckDue now := by
  have timed := @Client.handleTimeout_ahead now c
  rw [Post, handled] at timed
  have engine := Client.drained_engine drained
  rw [timed.1] at engine
  rw [drained_wakeup engine]
  exact Engine.lt_wakeup_iff timed.2

/-- A round of a server reports a later instant exactly when no acknowledgement is due. -/
theorem Server.tick_later_iff {s s₁ s₂ : Server} (handled : Server.handleTimeout now s = .ok () s₁)
    (drained : Drained (Server.pollOutput bufLen) s₁ t s₂) : now < t ↔ ¬s₁.engine.AckDue now := by
  have timed := @Server.handleTimeout_ahead now s
  rw [Post, handled] at timed
  have engine := Server.drained_engine drained
  rw [timed.1] at engine
  rw [drained_wakeup engine]
  exact Engine.lt_wakeup_iff timed.2

end Tick

end Dtls13

/-- A round of a client or a server reports a later instant exactly when its drain starts
with no acknowledgement of the handshake due. In an event loop whose drains all start so,
every instant has one round. -/
theorem timeout_later_iff (bufLen : Nat) :
    (∀ (now t : Instant) (c c₁ c₂ : Dtls13.Client), Dtls13.Client.handleTimeout now c = .ok () c₁ →
      Drained (Dtls13.Client.pollOutput bufLen) c₁ t c₂ → (now < t ↔ ¬c₁.engine.AckDue now)) ∧
    (∀ (now t : Instant) (s s₁ s₂ : Dtls13.Server), Dtls13.Server.handleTimeout now s = .ok () s₁ →
      Drained (Dtls13.Server.pollOutput bufLen) s₁ t s₂ → (now < t ↔ ¬s₁.engine.AckDue now)) ∧
    (∀ (now : Instant) (c : Dtls13.Client) (instants : List Instant),
      EventLoop Dtls13.Client.handleTimeout (Dtls13.Client.pollOutput bufLen)
        (fun now c => ¬c.engine.AckDue now) now c instants → instants.Pairwise (· < ·)) ∧
    (∀ (now : Instant) (s : Dtls13.Server) (instants : List Instant),
      EventLoop Dtls13.Server.handleTimeout (Dtls13.Server.pollOutput bufLen)
        (fun now s => ¬s.engine.AckDue now) now s instants → instants.Pairwise (· < ·)) := by
  refine ⟨fun now t c c₁ c₂ handled drained => ?_, fun now t s s₁ s₂ handled drained => ?_,
    fun now c instants loop => ?_, fun now s instants loop => ?_⟩
  · exact Dtls13.Client.tick_later_iff handled drained
  · exact Dtls13.Server.tick_later_iff handled drained
  · refine (loop.increasing fun now t c c₁ c₂ handled ready drained => ?_).1
    exact (Dtls13.Client.tick_later_iff handled drained).mpr ready
  · refine (loop.increasing fun now t s s₁ s₂ handled ready drained => ?_).1
    exact (Dtls13.Server.tick_later_iff handled drained).mpr ready

/-- A client that gets the first and the third datagram of the server's flight. -/
def Dtls13.Client.gapped : Client :=
  (run Exchange.exec (Exchange.sample { Sample.config with mtu := 150 } Sample.certificate)
    ([.client (.handleTimeout 0), .server (.handleTimeout 0), .client (.pollOutput 2000), .toServer 0] ++
      List.replicate 4 (.server (.pollOutput 2000)) ++ [.toClient 0, .toClient 2])).client

/-- That client sends an acknowledgement and asks to be called again at once. -/
theorem not_timeout_later :
    ∃ (c c₁ c₂ : Dtls13.Client) (now t : Instant), c.Reached ∧
      Dtls13.Client.handleTimeout now c = .ok () c₁ ∧
      Drained (Dtls13.Client.pollOutput 2000) c₁ t c₂ ∧ ¬now < t := by
  have reached : Dtls13.Client.gapped.Reached :=
    Dtls13.Exchange.Reached.client ⟨_, _, Dtls13.Exchange.sample_start, rfl⟩
  have handled : value? (Dtls13.Client.handleTimeout 5) Dtls13.Client.gapped = some () := by
    decide +kernel
  have again : (drain? (Dtls13.Client.pollOutput 2000) 3
      (finalState (Dtls13.Client.handleTimeout 5) Dtls13.Client.gapped)).map Prod.fst = some 5 := by
    decide +kernel
  obtain ⟨c₂, drained⟩ := exists_drained again
  exact ⟨_, _, c₂, 5, 5, reached, ok_of_value handled, drained, Nat.lt_irrefl 5⟩

end Dimpl
