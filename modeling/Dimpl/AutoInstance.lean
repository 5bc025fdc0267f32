import Dimpl.Auto
import Dimpl.Dtls12.Server
import Dimpl.Dtls13.Server

/-!
# Instances that sense the version

The calls of `lib.rs` on an instance of `Dtls::new_auto`. In the client role it is a
`ClientPending` that the first answer of the server turns into a client of one version. In
the server role it is a server of DTLS 1.3 that keeps the datagrams of the hello; a hello
without DTLS 1.3 turns it into a server of DTLS 1.2, which gets those datagrams.
-/

namespace Dimpl

open Nom

namespace ClientPending

/-- `ClientPending::new`, with the hello that was built. -/
def new (hybrid : HybridClientHello) (wirePacket : Bytes) (config : Config)
    (certificate : DtlsCertificate) (now : Instant) : ClientPending where
  hybrid := hybrid
  config := config
  certificate := certificate
  wirePacket := wirePacket
  needsSend := true
  lastNow := now
  retransmitAt := none
  retransmitCount := 0

/-- One second. -/
def second : Duration := 1000000000

/-- `handle_timeout`. The first call arms the timer, later ones send the hello again after
2, 4, 8 seconds and so on. -/
def handleTimeout (now : Instant) : EStateM Fault ClientPending Unit := do
  modify fun (pending : ClientPending) => { pending with lastNow := now }
  let pending ← get
  match pending.retransmitAt with
  | none => set { pending with retransmitAt := some (now + second) }
  | some deadline =>
    if now ≥ deadline then
      if pending.retransmitCount ≥ pending.config.flightRetries then
        throw (.fatal (.timeout .hybridClientHello))
      else
        let count := pending.retransmitCount + 1
        set { pending with
          retransmitCount := count
          needsSend := true
          retransmitAt := some (now + second * 2 ^ min count 5) }
    else pure ()

/-- `poll_output`. -/
def pollOutput (bufLen : Nat) : EStateM Fault ClientPending Output := do
  let pending ← get
  let next := pending.retransmitAt.getD (pending.lastNow + second)
  if pending.needsSend then
    if bufLen < pending.wirePacket.length then return .timeout next
    else
      set { pending with needsSend := false }
      return .packet pending.wirePacket
  else return .timeout next

end ClientPending

/-- Runs a program on a part of an instance, which it stays. -/
def through {σ τ α : Type} (wrap : σ → τ) (program : EStateM Fault σ α) (part : σ) : EStateM Fault τ α :=
  fun _ =>
    match program part with
    | .ok value part' => .ok value (wrap part')
    | .error fault part' => .error fault (wrap part')

namespace Dtls

/-- The instance that holds a part. -/
def holding (inner : Inner) : Dtls := ⟨some inner⟩

/-- `handle_packet`. The generators are those of an engine that may be built. -/
def handlePacket (rng entropy : SeededRng) (packet : Bytes) : DtlsM Unit := do
  match (← get).inner with
  | none => throw (.panic .assertion)
  | some (.clientPending _) => handlePendingAutoClient rng entropy packet
  | some (.client12 c) => through (holding ∘ .client12) (Dtls12.Client.handlePacket packet) c
  | some (.client13 c) => through (holding ∘ .client13) (Dtls13.Client.handlePacket packet) c

/-- `handle_timeout`. -/
def handleTimeout (now : Instant) : DtlsM Unit := do
  match (← get).inner with
  | none => throw (.panic .assertion)
  | some (.clientPending pending) => through (holding ∘ .clientPending) (ClientPending.handleTimeout now) pending
  | some (.client12 c) => through (holding ∘ .client12) (Dtls12.Client.handleTimeout now) c
  | some (.client13 c) => through (holding ∘ .client13) (Dtls13.Client.handleTimeout now) c

/-- `poll_output`. -/
def pollOutput (bufLen : Nat) : DtlsM Output := do
  match (← get).inner with
  | none => throw (.panic .assertion)
  | some (.clientPending pending) => through (holding ∘ .clientPending) (ClientPending.pollOutput bufLen) pending
  | some (.client12 c) => through (holding ∘ .client12) (Dtls12.Client.pollOutput bufLen) c
  | some (.client13 c) => through (holding ∘ .client13) (Dtls13.Client.pollOutput bufLen) c

/-- `send_application_data`. -/
def sendApplicationData (data : Bytes) : DtlsM Unit := do
  match (← get).inner with
  | none => throw (.panic .assertion)
  | some (.clientPending _) => throw (.fatal .handshakePending)
  | some (.client12 c) => through (holding ∘ .client12) (Dtls12.Client.sendApplicationData data) c
  | some (.client13 c) => through (holding ∘ .client13) (Dtls13.Client.sendApplicationData data) c

/-- `close`. -/
def close : DtlsM Unit := do
  match (← get).inner with
  | none => throw (.panic .assertion)
  | some (.clientPending _) => throw (.fatal .handshakePending)
  | some (.client12 c) => through (holding ∘ .client12) Dtls12.Client.close c
  | some (.client13 c) => through (holding ∘ .client13) Dtls13.Client.close c

end Dtls

namespace Auto

/-- `client_hello_handshake`: the handshake bytes of a datagram that starts with a ClientHello. -/
def clientHelloHandshake (packet : Bytes) : Option Bytes :=
  if packet.length < 13 ∨ packet.getD 0 0 ≠ 0x16 then none
  else
    match getRange packet 13 (13 + beValue (slice packet ⟨11, 13⟩)) with
    | none => none
    | some recordBody =>
      if recordBody.length < 12 ∨ recordBody.getD 0 0 ≠ 0x01 then none else some recordBody

/-- The numbers in a list of two bytes each. -/
def chunks : Bytes → List Nat
  | high :: low :: rest => (high.toNat * 256 + low.toNat) :: chunks rest
  | _ => []

/-- The suites of a ClientHello body, as far as the peek gets to them. -/
def peekSuites (body : Bytes) : Option (List Nat) := do
  let sidLen ← body[34]?
  let cookieAt := 34 + (1 + sidLen.toNat)
  let cookieLen ← body[cookieAt]?
  let pos := cookieAt + (1 + cookieLen.toNat)
  if pos + 2 > body.length then none
  else
    let suitesLen := beValue (slice body ⟨pos, pos + 2⟩)
    if pos + 2 + suitesLen > body.length ∨ suitesLen % 2 ≠ 0 then none
    else some (chunks (slice body ⟨pos + 2, pos + 2 + suitesLen⟩))

/-- `client_hello_wants_psk`: the first suite that is allowed is a PSK suite. -/
def clientHelloWantsPsk (packet : Bytes) (config : Config) : Bool :=
  match clientHelloHandshake packet with
  | none => false
  | some recordBody =>
    if beValue (slice recordBody ⟨6, 9⟩) ≠ 0 then false
    else
      match getRange recordBody 12 (12 + beValue (slice recordBody ⟨9, 12⟩)) with
      | none => false
      | some body =>
        match peekSuites body with
        | none => false
        | some suites =>
          let allowed := config.dtls12CipherSuites.map SupportedDtls12CipherSuite.suite
          match (suites.map Dtls12CipherSuite.mk).find? allowed.contains with
          | none => false
          | some suite => suite.isPsk

end Auto

/-- `Inner`, as far as an auto-sensing server goes through it. -/
inductive ServerInner where
  | server13 (server : Dtls13.Server)
  | server12 (server : Dtls12.Server)

/-- `Dtls` in the server role. The field is empty while a server is being built. -/
structure DtlsServer where
  inner : Option ServerInner

/-- Programs over an instance in the server role. -/
abbrev DtlsServerM := EStateM Fault DtlsServer

namespace DtlsServer

/-- The instance that holds a part. -/
def holding (inner : ServerInner) : DtlsServer := ⟨some inner⟩

/-- How the server of DTLS 1.2 is to authenticate. -/
def usePsk (config : Config) (buffered : List Bytes) : Bool :=
  config.psk.isSome && buffered.any fun packet => Auto.clientHelloWantsPsk packet config

/-- `Server12::new_psk` or `Server12::new`. -/
def newServer12 (config : Config) (certificate : DtlsCertificate) (psk : Bool) (rng entropy : SeededRng)
    (now : Instant) : Except Panic Dtls12.Server :=
  if psk then .ok (.newWithEngine (.new config .psk rng entropy) now)
  else if certificate.certificate.isEmpty then .error .assertion
  else .ok (.newWithEngine (.new config (.certificate certificate) rng entropy) now)

/-- The loop over the buffered datagrams. -/
def replay : List Bytes → Dtls12.ServerM Unit
  | [] => pure ()
  | packet :: rest => do
    Dtls12.Server.handlePacket packet
    replay rest

/-- `handle_pending_auto_server`. -/
def handlePendingAutoServer (rng entropy : SeededRng) (server : Dtls13.Server) : DtlsServerM Unit := do
  set ({ inner := none } : DtlsServer)
  let config := server.engine.config
  let now := server.endpoint.lastNow
  let buffered := server.retainedHello
  match newServer12 config server.engine.certificate (usePsk config buffered) rng entropy now with
  | .error site => throw (.panic site)
  | .ok server12 =>
    match Dtls12.Server.handleTimeout now server12 with
    | .error fault _ => throw fault
    | .ok () server12 => through (holding ∘ .server12) (replay buffered) server12

/-- `handle_packet`. The generators are those of an engine that may be built. -/
def handlePacket (rng entropy : SeededRng) (packet : Bytes) : DtlsServerM Unit := do
  match (← get).inner with
  | none => throw (.panic .assertion)
  | some (.server12 s) => through (holding ∘ .server12) (Dtls12.Server.handlePacket packet) s
  | some (.server13 s) =>
    match Dtls13.Server.handlePacket packet s with
    | .ok () s' => set (holding (.server13 s'))
    | .error fault s' =>
      set (holding (.server13 s'))
      if s.autoMode && fault = .fatal .dtls12Fallback then handlePendingAutoServer rng entropy s'
      else throw fault

/-- `handle_timeout`. -/
def handleTimeout (now : Instant) : DtlsServerM Unit := do
  match (← get).inner with
  | none => throw (.panic .assertion)
  | some (.server12 s) => through (holding ∘ .server12) (Dtls12.Server.handleTimeout now) s
  | some (.server13 s) => through (holding ∘ .server13) (Dtls13.Server.handleTimeout now) s

/-- `poll_output`. -/
def pollOutput (bufLen : Nat) : DtlsServerM Output := do
  match (← get).inner with
  | none => throw (.panic .assertion)
  | some (.server12 s) => through (holding ∘ .server12) (Dtls12.Server.pollOutput bufLen) s
  | some (.server13 s) => through (holding ∘ .server13) (Dtls13.Server.pollOutput bufLen) s

/-- `send_application_data`. -/
def sendApplicationData (data : Bytes) : DtlsServerM Unit := do
  match (← get).inner with
  | none => throw (.panic .assertion)
  | some (.server12 s) => through (holding ∘ .server12) (Dtls12.Server.sendApplicationData data) s
  | some (.server13 s) =>
    if s.autoMode then throw (.fatal .handshakePending)
    else through (holding ∘ .server13) (Dtls13.Server.sendApplicationData data) s

/-- `close`. -/
def close : DtlsServerM Unit := do
  match (← get).inner with
  | none => throw (.panic .assertion)
  | some (.server12 s) => through (holding ∘ .server12) Dtls12.Server.close s
  | some (.server13 s) =>
    if s.autoMode then throw (.fatal .handshakePending)
    else through (holding ∘ .server13) Dtls13.Server.close s

end DtlsServer

end Dimpl
