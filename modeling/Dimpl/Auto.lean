import Dimpl.Dtls12.Client
import Dimpl.Dtls13.Client

/-!
# The auto-sensing client

`auto.rs` and the part of `lib.rs` that ends the waiting: a client that has sent a
hello for both versions looks at the first datagram of the server, builds the client
of the version it finds there and hands the datagram on.
-/

namespace Dimpl

open Nom

/-- What the first datagram of a server tells. -/
inductive DetectedVersion where
  | dtls12
  | dtls13
  | unknown
  deriving DecidableEq, Repr

namespace Auto

/-- Indexing of a slice, which panics outside of it. -/
def index (bytes : Bytes) (position : Nat) : Except Panic UInt8 :=
  match bytes[position]? with
  | some byte => .ok byte
  | none => .error .assertion

/-- A 16-bit number from two indexed bytes. -/
def indexU16 (bytes : Bytes) (position : Nat) : Except Panic Nat := do
  let high ← index bytes position
  let low ← index bytes (position + 1)
  return high.toNat * 256 + low.toNat

/-- `get` of a range, which is refused when it does not lie inside. -/
def getRange (bytes : Bytes) (start stop : Nat) : Option Bytes :=
  if start ≤ stop ∧ stop ≤ bytes.length then some (slice bytes ⟨start, stop⟩) else none

/-- The loop over the extensions, looking for `supported_versions`. An extension takes
at least four bytes, so the fuel is more than the rounds. -/
def walkExtensions (body : Bytes) (extEnd : Nat) : (fuel : Nat) → (pos : Nat) →
    Except Panic DetectedVersion
  | 0, _ => .error .assertion
  | fuel + 1, pos =>
    if pos + 4 ≤ extEnd then do
      let extType ← indexU16 body pos
      let extLen ← indexU16 body (pos + 2)
      if extType = 0x002B then
        if extLen ≥ 2 then
          let version ← indexU16 body (pos + 4)
          return if version = 0xFEFC then .dtls13 else .dtls12
        else return .dtls12
      else walkExtensions body extEnd fuel (pos + 4 + extLen)
    else return .dtls12

/-- The version a ServerHello body selects. -/
def bodyVersion (body : Bytes) : Except Panic (Option DetectedVersion) :=
  if body.length < 35 then return some .dtls12
  else
    match body[34]? with
    | none => return none
    | some sidLen =>
      let pos := 34 + (1 + sidLen.toNat) + 2 + 1
      if pos + 2 > body.length then return some .dtls12
      else do
        let extTotalLen ← indexU16 body pos
        let extEnd := pos + 2 + extTotalLen
        if extEnd > body.length then return some .dtls12
        else return some (← walkExtensions body extEnd (extEnd + 1) (pos + 2))

/-- The version a handshake record of the server stands for. -/
def recordVersion (recordBody : Bytes) : Except Panic (Option DetectedVersion) :=
  if recordBody.length < 12 then return none
  else do
    let msgType ← index recordBody 0
    if msgType = 3 then return some .dtls12
    else if msgType ≠ 2 then return none
    else
      let high ← index recordBody 9
      let middle ← index recordBody 10
      let low ← index recordBody 11
      let fragmentLen := high.toNat * 65536 + middle.toNat * 256 + low.toNat
      match getRange recordBody 12 (12 + fragmentLen) with
      | none => return none
      | some body => bodyVersion body

/-- `server_hello_version_inner`. -/
def serverHelloVersionInner (packet : Bytes) : Except Panic (Option DetectedVersion) :=
  if packet.length < 13 then return none
  else do
    let contentType ← index packet 0
    if contentType ≠ 0x16 then return none
    else
      let recordLen ← indexU16 packet 11
      match getRange packet 13 (13 + recordLen) with
      | none => return none
      | some recordBody => recordVersion recordBody

/-- `server_hello_version`. -/
def serverHelloVersion (packet : Bytes) : Except Panic DetectedVersion := do
  return (← serverHelloVersionInner packet).getD .unknown

end Auto

/-- `HybridClientHello`: what is kept of the hello that was sent for both versions. -/
structure HybridClientHello where
  random : Random
  activeKeyExchange : ActiveKeyExchange
  transcriptBytes : Bytes
  handshakeFragment : Bytes

/-- `ClientPending`: an auto-sensing client that waits for the server. -/
structure ClientPending where
  hybrid : HybridClientHello
  config : Config
  certificate : DtlsCertificate
  wirePacket : Bytes
  needsSend : Bool
  lastNow : Instant
  retransmitAt : Option Instant
  retransmitCount : Nat

/-- `Inner`, as far as a client that started out auto-sensing goes through it. -/
inductive Inner where
  | clientPending (pending : ClientPending)
  | client12 (client : Dtls12.Client)
  | client13 (client : Dtls13.Client)

/-- `Dtls`. The field is empty while a client is being built. -/
structure Dtls where
  inner : Option Inner

/-- Programs over an instance. -/
abbrev DtlsM := EStateM Fault Dtls

/-- Runs a constructor that may fail and a first call on what it built. An error of
the constructor ends the call at once; one of the call leaves the new client in its
place. -/
def Dtls.install {σ : Type} (wrap : σ → Inner) (construct handle : EStateM Fault σ Unit)
    (initial : σ) : DtlsM Unit := fun d =>
  match construct initial with
  | .error fault _ => .error fault d
  | .ok () client =>
    match handle client with
    | .error (.panic site) _ => .error (.panic site) d
    | .error fault client => .error fault { d with inner := some (wrap client) }
    | .ok () client => .ok () { d with inner := some (wrap client) }

/-- `Client12::new_from_hybrid`: a certificate has to be there, and the first timeout
call has to succeed. -/
def Dtls12.Client.beginHybrid (certificate : DtlsCertificate) (now : Instant) : Dtls12.ClientM Unit :=
  if certificate.certificate.isEmpty then throw (.panic .assertion)
  else Dtls12.Client.handleTimeout now

/-- `handle_pending_auto_client`. The generators are those of the new engine. -/
def Dtls.handlePendingAutoClient (rng entropy : SeededRng) (packet : Bytes) : DtlsM Unit := do
  match Auto.serverHelloVersion packet with
  | .error site => throw (.panic site)
  | .ok .unknown => throw (.fatal (.unexpectedMessage .unrecognizedAutoServerResponse))
  | .ok version =>
    match (← get).inner with
    | some (.clientPending pending) =>
      set ({ inner := none } : Dtls)
      let hybrid := pending.hybrid
      if version = .dtls12 then
        install .client12 (Dtls12.Client.beginHybrid pending.certificate pending.lastNow)
          (Dtls12.Client.handlePacket packet)
          (Dtls12.Client.newFromHybrid hybrid.random hybrid.handshakeFragment
            (Dtls12.Engine.new pending.config (.certificate pending.certificate) rng entropy)
            pending.lastNow)
      else
        install .client13 (Dtls13.Client.handleTimeout pending.lastNow)
          (Dtls13.Client.handlePacket packet)
          (Dtls13.Client.newFromHybrid hybrid.random hybrid.transcriptBytes hybrid.activeKeyExchange
            (Dtls13.Engine.new pending.config pending.certificate rng) entropy pending.lastNow)
    | _ => throw (.panic .assertion)

end Dimpl
