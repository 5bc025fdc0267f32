import Dimpl.Dtls13.Exchange
import Dimpl.Dtls13.Retry

/-!
# A handshake with a HelloRetryRequest

A client that is connected has sent the cookie back and has the group it was asked for. The suite
of the HelloRetryRequest is looked up in the settings, and so is the one of the ServerHello;
nothing holds the two against each other.
-/

namespace Dimpl.Dtls13

open Nom Program

/-- A client that is connected has found its hellos to fit the HelloRetryRequest in front of
them. -/
def RetryConsistent (start : Client) (calls : List Client.Call) : Prop :=
  (run Client.exec start calls).state = .awaitApplicationData →
    Judged HelloAct.Consistent HelloAct.track none (traced Client.exec Client.hellos start calls)

/-- They fit in every run in which no ServerHello changes the suite. -/
theorem retryConsistent_of_sameSuite {start : Client} {calls : List Client.Call}
    (named : start.engine.config.Named)
    (same : Judged HelloAct.SameSuite HelloAct.track none
      (traced Client.exec Client.hellos start calls)) :
    RetryConsistent start calls := by
  intro _
  exact judged_mp (Client.run_retried named calls) same

namespace Retrial

/-- Two suites with one hash, and a server that wants a cookie. -/
def config : Config :=
  { Sample.config with
    mtu := 250
    useServerCookie := true
    cryptoProvider := { Sample.provider with
      dtls13CipherSuites := [Sample.suite13, { Sample.suite13 with suite := .chacha20Poly1305Sha256 }] } }

/-- The client. -/
def client : Client := (Exchange.sample config Sample.certificate).client

theorem client_start : client.Start := .fresh ..

theorem client_named : client.engine.config.Named := by
  have isConfig : client.engine.config = config := rfl
  rw [isConfig]
  intro kx member entropy exchange started
  have offered : kx ∈ [Sample.kxGroup .x25519] := List.mem_of_mem_filter (List.mem_of_mem_filter member)
  cases List.mem_singleton.mp offered
  cases started
  rfl

/-- The hello and the one after the HelloRetryRequest are on their way. -/
def asked : Exchange :=
  run Exchange.exec (.sample config Sample.certificate)
    [.client (.handleTimeout 0), .server (.handleTimeout 0), .client (.pollOutput 2000), .toServer 0,
      .server (.pollOutput 2000), .toClient 0, .client (.pollOutput 2000)]

/-- A server that no longer wants the first suite. -/
def wavering (s : Server) : Server :=
  { s with endpoint := { s.endpoint with engine := { s.endpoint.engine with
    config := { config with dtls13CipherSuiteFilter := some [.chacha20Poly1305Sha256] } } } }

/-- What the client gets from a server that goes on from there. -/
@[irreducible] def calls (server : Server) : List Client.Call :=
  .handleTimeout 0 :: (run Exchange.exec { asked with server }
    (.toServer 1 :: List.replicate 6 (.server (.pollOutput 2000)))).fromServer.map .handlePacket

end Retrial

/-- A ServerHello with another suite than the HelloRetryRequest. -/
theorem retry_not_consistent :
    ¬ ∀ start calls, Client.Start start → start.engine.config.Named → RetryConsistent start calls := by
  intro consistent
  have connected : (run Client.exec Retrial.client
      (Retrial.calls (Retrial.wavering Retrial.asked.server))).state = .awaitApplicationData := by
    decide +kernel
  have changed : ¬ Judged HelloAct.Consistent HelloAct.track none (traced Client.exec Client.hellos
      Retrial.client (Retrial.calls (Retrial.wavering Retrial.asked.server))) := by
    decide +kernel
  have always := consistent Retrial.client (Retrial.calls (Retrial.wavering Retrial.asked.server))
    Retrial.client_start Retrial.client_named
  exact changed (always connected)

/-- A handshake in which the suite stays. -/
theorem retryConsistent_sample :
    (run Client.exec Retrial.client (Retrial.calls Retrial.asked.server)).state = .awaitApplicationData ∧
      RetryConsistent Retrial.client (Retrial.calls Retrial.asked.server) := by
  have same : Judged HelloAct.SameSuite HelloAct.track none
      (traced Client.exec Client.hellos Retrial.client (Retrial.calls Retrial.asked.server)) := by
    decide +kernel
  have connected : (run Client.exec Retrial.client (Retrial.calls Retrial.asked.server)).state =
      .awaitApplicationData := by
    decide +kernel
  exact ⟨connected, retryConsistent_of_sameSuite Retrial.client_named same⟩

end Dimpl.Dtls13
