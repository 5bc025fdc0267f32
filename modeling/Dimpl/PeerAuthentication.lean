import Dimpl.Dtls12.ClientInv
import Dimpl.Dtls12.ServerInv
import Dimpl.Dtls13.ClientInv
import Dimpl.Dtls13.Exchange
import Dimpl.Dtls13.ServerInv

/-!
# What a connection was checked for

No endpoint reports a connection before the checks of its handshake were made. A
server that asks for a certificate takes an empty list for one, and a DTLS 1.3
client keeps a message it could not parse in the transcript its next check is over.
-/

namespace Dimpl

open Nom Program

namespace Dtls12

/-- The connection is reported, or application data released. -/
def Client.Connected (c : Client) : Prop :=
  c.state = .awaitApplicationData ∨ c.engine.releaseAppData = true ∨
    LocalEvent.connected ∈ c.localEvents

/-- The connection is reported, or application data released. -/
def Server.Connected (s : Server) : Prop :=
  s.state = .awaitApplicationData ∨ s.engine.releaseAppData = true ∨
    LocalEvent.connected ∈ s.localEvents

section Verified

variable {c : Client} {s : Server}

/-- A client that has connected made all checks. -/
theorem Client.Connected.verified (connected : c.Connected) (reached : c.Reached) : c.Verified := by
  have inv := reached.inv
  rcases connected with isState | reported
  · have released := inv.reached.released
    rw [isState] at released
    exact (inv.verified (.inl (released rfl))).2
  · exact (inv.verified reported).2

/-- A server that has connected made all checks. -/
theorem Server.Connected.verified (connected : s.Connected) (reached : s.Reached) : s.Verified := by
  have inv := reached.inv
  rcases connected with isState | reported
  · have released := inv.has.reached.released
    rw [isState] at released
    exact (inv.verified (.inl (released rfl))).2
  · exact (inv.verified reported).2

end Verified

end Dtls12

namespace Dtls13

/-- The connection is reported, or application data released. -/
def Client.Connected (c : Client) : Prop := c.state = .awaitApplicationData ∨ Reported c.endpoint

/-- The connection is reported, or application data released. -/
def Server.Connected (s : Server) : Prop := s.state = .awaitApplicationData ∨ Reported s.endpoint

section Verified

variable {c : Client} {s : Server}

/-- A client that has connected made all checks. -/
theorem Client.Connected.checked (connected : c.Connected) (reached : c.Reached) :
    Client.Checked c.endpoint := by
  have inv := reached.inv
  rcases connected with isState | reported
  · exact inv.finished (by rw [isState]; rfl)
  · exact inv.verified reported

/-- A server that has connected made all checks. -/
theorem Server.Connected.verified (connected : s.Connected) (reached : s.Reached) :
    Server.Verified s.endpoint := by
  have inv := reached.inv
  rcases connected with isState | reported
  · refine ⟨inv.asked ?_, inv.signed ?_, inv.finished ?_⟩ <;> rw [isState] <;> rfl
  · exact inv.verified reported

end Verified

end Dtls13

/-- What a connection stands for. A client of DTLS 1.3 that put together at most one
CertificateVerify and one Finished has verified both over the transcript in front of
them; a client of DTLS 1.2 has verified the server's key exchange and its Finished;
a server has verified the client's Finished. -/
theorem connected_authenticated (client13 : Dtls13.Client) (client12 : Dtls12.Client)
    (server13 : Dtls13.Server) (server12 : Dtls12.Server) :
    (client13.Reached → client13.Connected → client13.engine.timesRead .certificateVerify ≤ 1 →
      client13.engine.timesRead .finished ≤ 1 → Dtls13.ServerVerified client13.endpoint) ∧
      (client12.Reached → client12.Connected →
        (∃ suite, client12.engine.cipherSuite = some suite ∧
          (suite.isPsk = false → client12.KeyExchangeChecked)) ∧
          Dtls12.FinishedMatched false client12.log client12.engine) ∧
      (server13.Reached → server13.Connected →
        Dtls13.PeerFinished server13.endpoint.clientHsTrafficSecret server13.engine) ∧
      (server12.Reached → server12.Connected →
        Dtls12.FinishedMatched true server12.log server12.engine) :=
  ⟨fun reached connected => connected.checked reached,
    fun reached connected => connected.verified reached,
    fun reached connected => (connected.verified reached).finished,
    fun reached connected => (connected.verified reached).2⟩

/-- A client and a server that asks for a certificate, at the end of a handshake. -/
def Dtls13.Exchange.connected : Dtls13.Exchange :=
  run Dtls13.Exchange.exec
    (Dtls13.Exchange.sample { Sample.config with requireClientCertificate := true, mtu := 150 }
      Sample.certificate)
    (Dtls13.Exchange.flights ++ (List.range 4).map .toServer)

/-- A client of DTLS 1.2 at its start. -/
def Dtls12.Client.sample : Dtls12.Client :=
  .newWithEngine (.new Sample.config (.certificate Sample.certificate) (Sample.rng 1) (Sample.rng 7)) 0

/-- A server of DTLS 1.2 at its start. -/
def Dtls12.Server.sample : Dtls12.Server :=
  .newWithEngine (.new Sample.config (.certificate Sample.certificate) (Sample.rng 1) (Sample.rng 7)) 0

theorem Dtls13.Exchange.connected_reached : Dtls13.Exchange.connected.Reached :=
  ⟨_, _, Dtls13.Exchange.sample_start, rfl⟩

/-- That client has verified its server. -/
theorem connected_authenticated_once :
    Dtls13.Exchange.connected.client.Connected ∧
      Dtls13.ServerVerified Dtls13.Exchange.connected.client.endpoint := by
  have facts : Dtls13.Exchange.connected.client.state = .awaitApplicationData ∧
      Dtls13.Exchange.connected.client.engine.timesRead .certificateVerify ≤ 1 ∧
      Dtls13.Exchange.connected.client.engine.timesRead .finished ≤ 1 := by
    decide +kernel
  exact ⟨.inl facts.1, (connected_authenticated _ Dtls12.Client.sample
    Dtls13.Exchange.connected.server Dtls12.Server.sample).1
    Dtls13.Exchange.connected_reached.client (.inl facts.1) facts.2.1 facts.2.2⟩

namespace Dtls13

/-- The bodies of the messages of a type that were put together. -/
def Engine.bodiesRead (e : Engine) (type : MessageType) : List Bytes :=
  e.log.filterMap fun event =>
    match event with
    | .assembled type' fragments => if type' = type then some (assembledBytes fragments) else none
    | _ => none

theorem Heard.mem_bodiesRead {e : Engine} {type : MessageType} {body : Bytes}
    (heard : Heard e.log type body) : body ∈ e.bodiesRead type := by
  obtain ⟨fragments, assembled, rfl⟩ := heard
  exact List.mem_filterMap.mpr ⟨_, assembled, by simp⟩

/-- One handler of a server. -/
def Server.oneHandler : ServerM Unit := do
  let next ← (← get).state.makeProgress
  modify fun (s : Server) => { s with state := next }

/-- A server up to its Certificate, which then sends a CertificateVerify that cannot be
parsed. -/
def Server.garble (hello : Bytes) : ServerM Unit := do
  Server.withEngine (receivePacket hello)
  Server.oneHandler
  Server.oneHandler
  Server.oneHandler
  Server.oneHandler
  Server.withEngine (createHandshake .certificateVerify (pure [0]))

/-- It goes on with its own CertificateVerify, under the number of the other one and
over a transcript that has both. -/
def Server.signBehind : ServerM Unit := do
  Server.withEngine (modify fun (e : Engine) =>
    { e with queueTx := [], nextHandshakeSeqNo := e.nextHandshakeSeqNo - 1 })
  Server.makeProgress

/-- A client that has sent its hello. -/
def Exchange.helloSent : Exchange :=
  run Exchange.exec (Exchange.sample { Sample.config with mtu := 150 } Sample.certificate)
    [.client (.handleTimeout 0), .server (.handleTimeout 0), .client (.pollOutput 2000)]

/-- The client behind the datagrams of such a server. -/
def Client.garbled : Client :=
  let first := finalState (Server.garble (Exchange.helloSent.fromClient.headD []))
    Exchange.helloSent.server
  let last := finalState Server.signBehind first
  run Client.exec Exchange.helloSent.client
    ((first.engine.queueTx ++ last.engine.queueTx).map .handlePacket)

theorem Client.garbled_reached : Client.garbled.Reached := by
  have reached : Exchange.helloSent.Reached := ⟨_, _, Exchange.sample_start, rfl⟩
  exact reached.client.run _

/-- No CertificateVerify that follows the peer's Certificate in the transcript can be
parsed. -/
def Client.Unsigned (c : Client) : Prop :=
  ∀ certificate ∈ c.engine.bodiesRead .certificate,
    ∀ verify ∈ c.engine.bodiesRead .certificateVerify,
      transcriptMessage .certificate certificate ++ transcriptMessage .certificateVerify verify <:+:
        c.engine.transcript →
      (Nom.parse (Body.parseWithOptions 0 .certificateVerify none false) verify).isOk = false

instance (c : Client) : Decidable c.Unsigned :=
  inferInstanceAs (Decidable (∀ certificate ∈ c.engine.bodiesRead .certificate,
    ∀ verify ∈ c.engine.bodiesRead .certificateVerify,
      transcriptMessage .certificate certificate ++ transcriptMessage .certificateVerify verify <:+:
        c.engine.transcript →
      (Nom.parse (Body.parseWithOptions 0 .certificateVerify none false) verify).isOk = false))

theorem Client.Unsigned.not_verified {c : Client} (unsigned : c.Unsigned) :
    ¬ServerVerified c.endpoint := by
  rintro ⟨suite, key, before, body, range, rest, _, _, signed, _, sent, _⟩
  obtain ⟨through, certificate, others, verify, presented, heard, rfl, verifies⟩ := signed
  obtain ⟨start, list, _, _, _, heardList, rfl, _⟩ := presented
  obtain ⟨signed, left, hash, algorithm, parsed, _⟩ := verifies
  have inside : transcriptMessage .certificate list ++
      transcriptMessage .certificateVerify verify <:+: c.engine.transcript := by
    obtain ⟨after, isTranscript⟩ := sent
    refine ⟨start, transcriptMessage .finished body ++ after, Eq.trans ?_ isTranscript⟩
    simp only [List.append_assoc]
  have failed := unsigned list heardList.mem_bodiesRead verify heard.mem_bodiesRead inside
  -- The suite plays no part in a CertificateVerify.
  have ok : Nom.parse (Body.parseWithOptions 0 .certificateVerify none false) verify =
      .ok (.certificateVerify signed, left) := parsed
  rw [ok] at failed
  cases failed

end Dtls13

/-- That client connects although no signature over the transcript through the
server's Certificate was verified. -/
theorem not_connected_authenticated :
    ∃ c : Dtls13.Client, c.Reached ∧ c.Connected ∧ ¬Dtls13.ServerVerified c.endpoint := by
  have facts : Dtls13.Client.garbled.state = .awaitApplicationData ∧
      Dtls13.Client.garbled.Unsigned := by
    decide +kernel
  exact ⟨_, Dtls13.Client.garbled_reached, .inl facts.1, facts.2.not_verified⟩

/-- A server that requires a client certificate and was sent no empty list of
certificates has connected only to a client that signed with the first certificate of
its list. -/
theorem client_authenticated (server13 : Dtls13.Server) (server12 : Dtls12.Server) :
    (server13.Reached → server13.engine.config.requireClientCertificate = true →
      server13.Connected → ¬Dtls13.EmptyCertificateSent server13.engine.log →
      Dtls13.PeerSigned Dtls13.clientLabel server13.engine) ∧
      (server12.Reached → server12.asksForCertificate = true → server12.Connected →
        ¬Dtls12.EmptyCertificateSent server12.engine.log →
        Dtls12.Server.ClientSigned server12.engine) := by
  constructor
  · intro reached required connected notEmpty
    have verified := connected.verified reached
    exact verified.signed (verified.asked required) notEmpty
  · intro reached asks connected notEmpty
    exact (connected.verified reached).1 ⟨asks, notEmpty⟩

/-- The server of a handshake with a certificate has verified its client. -/
theorem client_authenticated_signed :
    Dtls13.Exchange.connected.server.Connected ∧
      Dtls13.PeerSigned Dtls13.clientLabel Dtls13.Exchange.connected.server.engine := by
  have facts : Dtls13.Exchange.connected.server.state = .awaitApplicationData ∧
      Dtls13.Exchange.connected.server.engine.config.requireClientCertificate = true ∧
      ¬Dtls13.EmptyCertificateSent Dtls13.Exchange.connected.server.engine.log := by
    decide +kernel
  exact ⟨.inl facts.1, (client_authenticated _ Dtls12.Server.sample).1
    Dtls13.Exchange.connected_reached.server facts.2.1 (.inl facts.1) facts.2.2⟩

/-- A server that requires a certificate and a client that has none. -/
def Dtls13.Exchange.withoutCertificate : Dtls13.Exchange :=
  run Dtls13.Exchange.exec
    (Dtls13.Exchange.sample { Sample.config with requireClientCertificate := true, mtu := 150 }
      { Sample.certificate with certificate := [] })
    (Dtls13.Exchange.flights ++ (List.range 4).map .toServer)

/-- The server connects to that client, which has signed nothing. -/
theorem not_client_authenticated :
    ∃ s : Dtls13.Server, s.Reached ∧ s.engine.config.requireClientCertificate = true ∧
      s.Connected ∧ ¬Dtls13.PeerSigned Dtls13.clientLabel s.engine := by
  have reached : Dtls13.Exchange.withoutCertificate.Reached :=
    ⟨_, _, Dtls13.Exchange.sample_start, rfl⟩
  have facts : Dtls13.Exchange.withoutCertificate.server.state = .awaitApplicationData ∧
      Dtls13.Exchange.withoutCertificate.server.engine.config.requireClientCertificate = true ∧
      Dtls13.Exchange.withoutCertificate.server.engine.bodiesRead .certificateVerify = [] := by
    decide +kernel
  refine ⟨_, reached.server, facts.2.1, .inl facts.1, ?_⟩
  rintro ⟨suite, through, certificate, others, before, body, _, _, _, heard, _⟩
  have member := heard.mem_bodiesRead
  rw [facts.2.2] at member
  cases member

end Dimpl
