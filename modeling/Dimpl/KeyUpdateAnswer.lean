import Dimpl.Dtls13.Answer

/-!
# A requested KeyUpdate is answered before more data

The answer waits for the next call that makes progress, and `send_application_data` does not
look at the mark. Data that is handed over in between leaves ahead of the answer.
-/

namespace Dimpl

open Nom Program

section Runs

theorem Dtls13.Client.start_minds {start : Dtls13.Client} (isStart : start.Start) : start.Minds false := by
  cases isStart <;> exact ⟨⟨nofun, nofun⟩, nofun⟩

theorem Dtls13.Server.start_minds {start : Dtls13.Server} (isStart : start.Start) : start.Minds false := by
  cases isStart
  exact ⟨⟨nofun, nofun⟩, nofun⟩

end Runs

/-- In a run that hands over no application data while an answer is pending, no data is sent
between a request and its answer, and the next timeout call that succeeds sends the answer. -/
theorem keyUpdate_answered (client : Dtls13.Client) (clientCalls : List Dtls13.Client.Call)
    (server : Dtls13.Server) (serverCalls : List Dtls13.Server.Call) :
    (client.Start → Meets Dtls13.Client.exec Dtls13.Client.Patient client clientCalls →
      Dtls13.Act.Ordered false (client.trace clientCalls) ∧
      (Dtls13.Act.owes false (client.trace clientCalls) = true →
        (run Dtls13.Client.exec client clientCalls).state = .awaitApplicationData →
        ∀ now, (value? (Dtls13.Client.handleTimeout now)
            (run Dtls13.Client.exec client clientCalls)).isSome = true →
          .answered ∈ (run Dtls13.Client.exec client clientCalls).acts (.handleTimeout now))) ∧
    (server.Start → Meets Dtls13.Server.exec Dtls13.Server.Patient server serverCalls →
      Dtls13.Act.Ordered false (server.trace serverCalls) ∧
      (Dtls13.Act.owes false (server.trace serverCalls) = true →
        (run Dtls13.Server.exec server serverCalls).state = .awaitApplicationData →
        ∀ now, (value? (Dtls13.Server.handleTimeout now)
            (run Dtls13.Server.exec server serverCalls)).isSome = true →
          .answered ∈ (run Dtls13.Server.exec server serverCalls).acts (.handleTimeout now))) := by
  constructor
  · intro isStart patient
    obtain ⟨ordered, minds⟩ := Dtls13.Client.run_minds (Dtls13.Client.start_minds isStart) patient
    refine ⟨ordered, fun owed connected now succeeds => ?_⟩
    exact Dtls13.Client.answered_of_timeout connected (minds.endpoint.marked owed) succeeds
  · intro isStart patient
    obtain ⟨ordered, minds⟩ := Dtls13.Server.run_minds (Dtls13.Server.start_minds isStart) patient
    refine ⟨ordered, fun owed connected now succeeds => ?_⟩
    exact Dtls13.Server.answered_of_timeout connected (minds.endpoint.marked owed) succeeds

namespace Sample

/-- Two endpoints that change their keys after a few records. -/
def rekeying : Dtls13.Exchange :=
  .sample { config with mtu := 150, aeadEncryptionLimit := 2 } certificate

open Dtls13.Exchange in
/-- What the server of that exchange sends up to its KeyUpdate. -/
def keyUpdateDatagrams : List Bytes :=
  (run exec rekeying (flights ++ (List.range 6).map .toServer ++
    List.replicate 3 (.server (.sendApplicationData [1])) ++ [.server (.handleTimeout 5)] ++
    List.replicate 8 (.server (.pollOutput 2000)))).fromServer

/-- The calls on the client, up to the one that consumes the KeyUpdate. -/
def askedCalls : List Dtls13.Client.Call :=
  .handleTimeout 0 :: keyUpdateDatagrams.map .handlePacket

end Sample

/-- A client that has consumed the request sends its data first. -/
theorem not_keyUpdate_answered :
    Sample.rekeying.client.Start ∧
      ¬Dtls13.Act.Ordered false
        (Sample.rekeying.client.trace (Sample.askedCalls ++ [.sendApplicationData [104, 105]])) := by
  have isTrace : Sample.rekeying.client.trace (Sample.askedCalls ++ [.sendApplicationData [104, 105]]) =
      [.asked, .data] := by
    decide +kernel
  refine ⟨.fresh .., ?_⟩
  rw [isTrace]
  exact fun ordered => Bool.noConfusion ordered.1

end Dimpl
