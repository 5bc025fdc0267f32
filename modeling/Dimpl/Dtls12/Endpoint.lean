import Dimpl.Dtls12.Engine.Handshake

/-!
# What client and server share

The events an endpoint reports, the history of its checks, and the parts of the
handshake that are the same on both sides.
-/

namespace Dimpl.Dtls12

open Nom

/-- An event of an endpoint that waits for `poll_output`. -/
inductive LocalEvent where
  | peerCert
  | connected
  | keyingMaterial (material : Bytes) (profile : SrtpProfile)
  deriving DecidableEq

/-- What the history of an endpoint records. -/
inductive Check where
  /-- `verify_signature` returned Ok on data under a certificate. -/
  | signature (certificate data signature : Bytes) (algorithm : SignatureAndHashAlgorithm)
  /-- `process_ecdh_params` was called with the parameters of the peer. -/
  | exchanged (group : NamedGroup) (publicKey : Bytes)
  /-- A Finished was equal to the verify data over a transcript. -/
  | finished (transcript verifyData : Bytes)
  deriving DecidableEq

/-- `LocalEvent::into_output`: the certificate has to be there and to fit. -/
def LocalEvent.intoOutput {σ : Type} (bufLen : Nat) (peerCerts : List Bytes) :
    LocalEvent → EStateM Fault σ Output
  | .peerCert =>
    match peerCerts with
    | [] => throw (.panic .assertion)
    | certificate :: _ =>
      if certificate.length ≤ bufLen then return .peerCert certificate
      else throw (.panic .assertion)
  | .connected => return .connected
  | .keyingMaterial material profile => return .keyingMaterial material profile

/-- `Random::new_with_time`; instants count from the Unix epoch. -/
def newRandom (now : Instant) : EngineM Random := do
  let bytes ← randomArr 28
  return ⟨be32 (now / 1000000000) ++ bytes⟩

/-- A close_notify alert. -/
def closeNotifyAlert : Bytes := [1, 0]

/-- Sends data that was queued before the handshake was over; what comes after an
error is lost. -/
def sendQueued : List Bytes → EngineM Unit
  | [] => pure ()
  | data :: rest => do
    createRecord .applicationData 1 false data
    sendQueued rest

/-- `handshake_create_certificate`. -/
def createCertificate : EngineM Bytes := withContext CryptoContext.serializeClientCertificate

/-- The body of a Finished. -/
def createFinished (isClient : Bool) : EngineM Bytes := generateVerifyData isClient

/-- The master secret and the keys of a session. -/
def deriveSessionKeys (suite : Dtls12CipherSuite) (sessionHash : Bytes)
    (clientRandom serverRandom : Random) : EngineM Unit := do
  let provider := (← get).config.cryptoProvider
  withContext (CryptoContext.deriveExtendedMasterSecret provider sessionHash suite.hashAlgorithm)
  withContext (CryptoContext.deriveKeys provider suite clientRandom.bytes serverRandom.bytes)

/-- The keying material event of a negotiated profile, when it can be extracted. -/
def keyingMaterialEvent (e : Engine) (suite : Dtls12CipherSuite) (profile : SrtpProfile) :
    List LocalEvent :=
  match e.cryptoContext.extractSrtpKeyingMaterial e.config.cryptoProvider profile
      suite.hashAlgorithm with
  | .ok material => [.keyingMaterial material profile]
  | .error _ => []

/-- A push to the groups of a hello, which holds four. -/
def supportedGroups (config : Config) : EngineM (List NamedGroup) :=
  let groups := config.kxGroups.map SupportedKxGroup.name
  if groups.length ≤ 4 then return groups else throw (.panic .capacityExceeded)

end Dimpl.Dtls12
