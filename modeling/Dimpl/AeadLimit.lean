import Dimpl.Dtls13.Rekeying
import Dimpl.KeyUpdateAnswer

/-!
# The AEAD limit is enforced

`await_application_data` takes the mark that asks for new send keys before it looks whether a
KeyUpdate is in flight. A threshold that is reached meanwhile is forgotten: when the
acknowledgement arrives, the old count goes on and nothing asks for a KeyUpdate until one more
record is sent.
-/

namespace Dimpl

open Nom Program

namespace Dtls13

/-- The threshold is not reached, or new keys wait for an acknowledgement, or the mark stands. -/
def Engine.Enforces (e : Engine) : Prop :=
  e.appSendRecordCount < e.aeadEncryptionThreshold ∨ e.isKeyUpdateInFlight = true ∨ e.needsKeyUpdate = true

instance (e : Engine) : Decidable e.Enforces := inferInstanceAs (Decidable (_ ∨ _ ∨ _))

/-- A connected client enforces the limit, and a mark that stands has the next timeout call send a
KeyUpdate unless one is in flight. -/
structure Client.Enforces (c : Client) : Prop where
  enforced : c.state = .awaitApplicationData → c.engine.Enforces
  initiates : c.state = .awaitApplicationData → c.engine.needsKeyUpdate = true →
    ∀ now, (value? (Client.handleTimeout now) c).isSome = true →
      (c.exec (.handleTimeout now)).engine.isKeyUpdateInFlight = true

/-- The same of a server. -/
structure Server.Enforces (s : Server) : Prop where
  enforced : s.state = .awaitApplicationData → s.engine.Enforces
  initiates : s.state = .awaitApplicationData → s.engine.needsKeyUpdate = true →
    ∀ now, (value? (Server.handleTimeout now) s).isSome = true →
      (s.exec (.handleTimeout now)).engine.isKeyUpdateInFlight = true

section Runs

theorem Engine.Marks.enforces {e : Engine} (marks : e.Marks) : e.Enforces := by
  by_cases reached : e.aeadEncryptionThreshold ≤ e.appSendRecordCount
  · exact .inr (.inr (marks.marked reached))
  · exact .inl (Nat.lt_of_not_le reached)

theorem Client.run_marks {start : Client} {calls : List Client.Call} (isStart : start.Start)
    (limit : 1 ≤ start.engine.config.aeadEncryptionLimit)
    (rotates : Meets Client.exec Client.CallRotates start calls) :
    (run Client.exec start calls).engine.Marks := by
  have marks : start.engine.Marks := by
    cases isStart with
    | fresh config certificate rng => exact ⟨limit, (@Engine.new_marks config certificate rng limit).marked⟩
    | hybrid random transcriptBytes exchange config certificate rng =>
        exact ⟨limit, (@Engine.new_marks config certificate rng limit).marked⟩
  have step : ∀ (c : Client) call, c.engine.Marks → c.CallRotates call → (c.exec call).engine.Marks :=
    fun _ _ => Client.exec_marks
  exact run_invariant step marks rotates

theorem Server.run_marks {start : Server} {calls : List Server.Call} (isStart : start.Start)
    (limit : 1 ≤ start.engine.config.aeadEncryptionLimit)
    (rotates : Meets Server.exec Server.CallRotates start calls) :
    (run Server.exec start calls).engine.Marks := by
  have marks : start.engine.Marks := by
    cases isStart with
    | fresh config certificate rng => exact ⟨limit, (@Engine.new_marks config certificate rng limit).marked⟩
  have step : ∀ (s : Server) call, s.engine.Marks → s.CallRotates call → (s.exec call).engine.Marks :=
    fun _ _ => Server.exec_marks
  exact run_invariant step marks rotates

end Runs

section Decisions

instance (p : Endpoint) : Decidable p.Rotates := inferInstanceAs (Decidable (_ → _ ∧ _))

/-- Whether the handlers of a client keep the mark. -/
def Client.decideRoundsRotate : (fuel : Nat) → (c : Client) → Decidable (c.RoundsRotate fuel)
  | 0, _ => isTrue trivial
  | fuel + 1, _ =>
    have : ∀ next : Client, Decidable (next.RoundsRotate fuel) := decideRoundsRotate fuel
    inferInstanceAs (Decidable (_ ∧ _))

instance (fuel : Nat) (c : Client) : Decidable (c.RoundsRotate fuel) := Client.decideRoundsRotate fuel c

instance (c : Client) (call : Client.Call) : Decidable (c.CallRotates call) :=
  match call with
  | .handlePacket packet => inferInstanceAs
    (Decidable (Post (Client.withEngine (receivePacket packet)) c
      (fun _ c' => c'.RoundsRotate 20) (fun _ _ => True)))
  | .handleTimeout now => inferInstanceAs
    (Decidable (Post (Client.withEndpoint (Endpoint.handleTimeout now)) c
      (fun _ c' => c'.RoundsRotate 20) (fun _ _ => True)))
  | .pollOutput _ => isTrue trivial
  | .sendApplicationData _ => isTrue trivial
  | .close => isTrue trivial

end Decisions

end Dtls13

/-- In a run in which a KeyUpdate can be sent whenever `await_application_data` finds the mark, the
limit is enforced in every state that is reached. -/
theorem aead_limit_enforced (config : Config) (limit : 1 ≤ config.aeadEncryptionLimit) :
    (∀ (start : Dtls13.Client) calls, start.Start → start.engine.config = config →
      Meets Dtls13.Client.exec Dtls13.Client.CallRotates start calls →
      (run Dtls13.Client.exec start calls).Enforces) ∧
    (∀ (start : Dtls13.Server) calls, start.Start → start.engine.config = config →
      Meets Dtls13.Server.exec Dtls13.Server.CallRotates start calls →
      (run Dtls13.Server.exec start calls).Enforces) := by
  constructor
  · intro start calls isStart same rotates
    have marks := Dtls13.Client.run_marks isStart (same ▸ limit) rotates
    exact ⟨fun _ => marks.enforces, fun connected marked now =>
      Dtls13.Client.rotating_of_timeout connected marked⟩
  · intro start calls isStart same rotates
    have marks := Dtls13.Server.run_marks isStart (same ▸ limit) rotates
    exact ⟨fun _ => marks.enforces, fun connected marked now =>
      Dtls13.Server.rotating_of_timeout connected marked⟩

namespace Sample

open Dtls13.Exchange in
/-- What the server of the exchange sends for the handshake. -/
def rekeyingFlight : List Bytes := (run exec rekeying flights).fromServer

/-- A client that reaches the threshold and sends a KeyUpdate. -/
def rekeyingCalls : List Dtls13.Client.Call :=
  .handleTimeout 0 :: rekeyingFlight.map .handlePacket ++
    [.sendApplicationData [1], .sendApplicationData [2], .handleTimeout 5]

open Dtls13.Exchange in
/-- The exchange in which the client reaches the threshold twice before the server has
acknowledged its KeyUpdate. -/
def twiceReached : Dtls13.Exchange :=
  run exec rekeying (flights ++ [.toServer 1] ++ List.replicate 4 (.client (.pollOutput 2000)) ++
    [.client (.sendApplicationData [1]), .client (.sendApplicationData [2])] ++
    List.replicate 2 (.client (.pollOutput 2000)) ++
    [.client (.handleTimeout 5), .client (.sendApplicationData [1]), .client (.sendApplicationData [2]),
      .client (.handleTimeout 6)] ++
    List.replicate 2 (.client (.pollOutput 2000)) ++ [.toServer 3] ++
    List.replicate 9 (.server (.pollOutput 2000)))

end Sample

theorem aead_limit_enforced_sample :
    (run Dtls13.Client.exec Sample.rekeying.client Sample.rekeyingCalls).Enforces ∧
      (run Dtls13.Client.exec Sample.rekeying.client Sample.rekeyingCalls).state = .awaitApplicationData :=
  ⟨(aead_limit_enforced Sample.rekeying.client.engine.config (by decide)).1 Sample.rekeying.client
    Sample.rekeyingCalls (.fresh ..) rfl (by decide +kernel), by decide +kernel⟩

/-- The acknowledgement arrives, and nothing asks for new keys though the threshold is reached. -/
theorem not_aead_limit_enforced :
    ∃ (c : Dtls13.Client) (acknowledgement : Bytes), c.Reached ∧
      1 ≤ c.engine.config.aeadEncryptionLimit ∧
      (value? (Dtls13.Client.handlePacket acknowledgement) c).isSome = true ∧
      ¬(c.exec (.handlePacket acknowledgement)).Enforces := by
  have reached : Sample.twiceReached.Reached := ⟨_, _, Dtls13.Exchange.sample_start, rfl⟩
  have computed : ∃ acknowledgement ∈ Sample.twiceReached.fromServer[3]?,
      1 ≤ Sample.twiceReached.client.engine.config.aeadEncryptionLimit ∧
      (value? (Dtls13.Client.handlePacket acknowledgement) Sample.twiceReached.client).isSome = true ∧
      (Sample.twiceReached.client.exec (.handlePacket acknowledgement)).state = .awaitApplicationData ∧
      ¬(Sample.twiceReached.client.exec (.handlePacket acknowledgement)).engine.Enforces := by
    decide +kernel
  obtain ⟨acknowledgement, _, limit, succeeds, connected, exceeded⟩ := computed
  exact ⟨_, acknowledgement, reached.client, limit, succeeds, fun enforces =>
    exceeded (enforces.enforced connected)⟩

end Dimpl
