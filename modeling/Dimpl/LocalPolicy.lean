import Dimpl.CookieExchange
import Dimpl.Dtls12.ServerPolicy
import Dimpl.Dtls13.Policy

/-!
# An endpoint and its own configuration

Suites are checked wherever a peer picks one, and DTLS 1.3 looks groups up in the
configuration. The client of DTLS 1.2 looks the group of a ServerKeyExchange up in the
provider, behind the filter, and the server of DTLS 1.2 takes a CertificateVerify of any
algorithm its provider can verify.
-/

namespace Dimpl

open Nom Program

/-- In every run of an endpoint, what it takes over keeps to its configuration: the suite, the
signatures a client of DTLS 1.2 or an endpoint of DTLS 1.3 accepts, and the group of a server
or of DTLS 1.3 always; the group of a client of DTLS 1.2 where every ServerKeyExchange it
finds names a configured one, and the signatures of a server of DTLS 1.2 where every
CertificateVerify it finds is of an algorithm it asked for. -/
theorem local_policy (client12 : Dtls12.Client) (clientCalls12 : List Dtls12.Client.Call)
    (server12 : Dtls12.Server) (serverCalls12 : List Dtls12.Server.Call)
    (client13 : Dtls13.Client) (clientCalls13 : List Dtls13.Client.Call)
    (server13 : Dtls13.Server) (serverCalls13 : List Dtls13.Server.Call) :
    (client12.Start →
      (∀ named ∈ traced Dtls12.Client.exec Dtls12.Client.namedGroups client12 clientCalls12,
        client12.engine.config.HasGroup named) →
      Dtls12.Client.Policy client12.engine.config client12.engine.config.HasGroup
        (run Dtls12.Client.exec client12 clientCalls12)) ∧
    (server12.Start →
      (∀ found ∈ traced Dtls12.Server.exec Dtls12.Server.foundSignatures server12 serverCalls12,
        found.1 ∈ found.2) →
      Dtls12.Server.Policy server12.engine.config True
        (run Dtls12.Server.exec server12 serverCalls12)) ∧
    (client13.Start →
      (∀ exchange, client13.activeKeyExchange = some exchange →
        client13.engine.config.Yields exchange) →
      Dtls13.Client.Policy client13.engine.config (run Dtls13.Client.exec client13 clientCalls13) ∧
        ∀ exchange ∈ traced Dtls13.Client.exec Dtls13.Client.completedExchanges client13 clientCalls13,
          client13.engine.config.Yields exchange) ∧
    (server13.Start →
      Dtls13.Server.Policy server13.engine.config (run Dtls13.Server.exec server13 serverCalls13) ∧
        ∀ group ∈ traced Dtls13.Server.exec Dtls13.Server.agreedGroups server13 serverCalls13,
          server13.engine.config.HasGroup group) := by
  refine ⟨fun start named => ?_, fun start found => ?_, fun start yields => ?_, fun start => ?_⟩
  · have obeys := Dtls12.Client.run_obeys start clientCalls12
    exact { obeys with groups := fun group member => obeys.groups group member named }
  · have policy := Dtls12.Server.run_policy start serverCalls12
    exact { policy with signed := fun _ => policy.signed found }
  · exact (Dtls13.Client.run_policy start yields clientCalls13).symm
  · exact (Dtls13.Server.run_policy start serverCalls13).symm

namespace Dtls12

/-- A configuration of one group, with a provider that has a second one. -/
def filtered (group : NamedGroup) : Config :=
  { Sample.config with
    cryptoProvider := { Sample.provider with
      kxGroups := [Sample.kxGroup .x25519, Sample.kxGroup .secp256r1] }
    kxGroupFilter := some [group] }

/-- A client that is configured for X25519 alone. -/
def Client.filtered : Client :=
  .newWithEngine (.new (Dtls12.filtered .x25519) (.certificate Sample.certificate) (Sample.rng 1)
    (Sample.rng 7)) 0

/-- That client when it has sent its hello. -/
def Client.asking : Client := run Client.exec Client.filtered [.handleTimeout 0, .pollOutput 2000]

/-- A server that has read secp256r1 in the place of the group of that hello. -/
def Server.misled : Server :=
  run Server.exec
    (.newWithEngine (.new (Dtls12.filtered .secp256r1) (.certificate Sample.certificate)
      (Sample.rng 1) (Sample.rng 7)) 0)
    [.handleTimeout 0, .handlePacket ((Client.filtered.exec (.handleTimeout 0)).handsOut.set 78 23)]

/-- The client when it has got the answer. -/
def Client.misled : Client := Client.asking.exec (.handlePacket Server.misled.handsOut)

/-- The server with the hello as it was sent, when it has got the last flight of the client. -/
def Server.led : Server :=
  let s := Server.misled.exec (.pollOutput 2000)
  run Server.exec { s with engine := { s.engine with transcript := s.engine.transcript.set 65 29 } }
    [.handlePacket (Client.misled.exec (.pollOutput 2000)).handsOut, .pollOutput 2000, .pollOutput 2000]

/-- A client is connected over a group. -/
def Client.uses? (group : NamedGroup) (c : Client) : Bool :=
  c.state = .awaitApplicationData && c.pact.groups.contains group

end Dtls12

/-- A client that is configured for X25519 alone is connected over secp256r1. -/
theorem not_local_policy :
    ∃ first last, Dtls12.Client.filtered.Start ∧
      (run Dtls12.Client.exec Dtls12.Client.filtered
        [.handleTimeout 0, .pollOutput 2000, .handlePacket first, .pollOutput 2000,
          .pollOutput 2000, .handlePacket last]).state = .awaitApplicationData ∧
      .secp256r1 ∈ (run Dtls12.Client.exec Dtls12.Client.filtered
        [.handleTimeout 0, .pollOutput 2000, .handlePacket first, .pollOutput 2000,
          .pollOutput 2000, .handlePacket last]).pact.groups ∧
      ¬Dtls12.Client.filtered.engine.config.HasGroup .secp256r1 := by
  have check : (run Dtls12.Client.exec Dtls12.Client.filtered
      [.handleTimeout 0, .pollOutput 2000, .handlePacket Dtls12.Server.misled.handsOut,
        .pollOutput 2000, .pollOutput 2000,
        .handlePacket Dtls12.Server.led.handsOut]).uses? .secp256r1 = true := by
    decide +kernel
  unfold Dtls12.Client.uses? at check
  simp only [Bool.and_eq_true, decide_eq_true_eq, List.contains_iff_mem] at check
  refine ⟨_, _, .fresh .., check.1, check.2, ?_⟩
  decide

end Dimpl
