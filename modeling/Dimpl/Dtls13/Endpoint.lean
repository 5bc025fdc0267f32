import Dimpl.Dtls13.Engine.Handshake

/-!
# What a DTLS 1.3 client and server share

The fields that `Client` and `Server` have in common, the history of their checks
and the handlers that are the same in `dtls13/client.rs` and `dtls13/server.rs`:
checking a CertificateVerify and a Finished, the end of the handshake and
everything behind it.
-/

namespace Dimpl.Dtls13

open Nom

/-- An event of an endpoint that waits for `poll_output`. -/
inductive LocalEvent where
  | peerCert
  | connected
  | keyingMaterial (material : Bytes) (profile : SrtpProfile)
  deriving DecidableEq

/-- What the history of an endpoint records. -/
inductive Check where
  /-- The certificates of a Certificate message were taken over. -/
  | certificates (list : List Bytes)
  /-- `verify_signature` returned Ok: on the content over a transcript, under a
  certificate. -/
  | signature (certificate transcript content signature : Bytes) (scheme : SignatureScheme)
  /-- A Finished was equal to the verify data over a transcript. -/
  | finished (transcript verifyData : Bytes)
  deriving DecidableEq

/-- The common fields. `peerCertificates` are the `server_certificates` of a client
and the `client_certificates` of a server. `entropy` stands for the provider's own
randomness; the `log` is history and read by no function. -/
structure Endpoint where
  engine : Engine
  random : Option Random
  negotiatedSrtpProfile : Option SrtpProfile
  peerCertificates : List Bytes
  clientAuthRequested : Bool
  lastNow : Instant
  localEvents : List LocalEvent
  queuedData : List Bytes
  pendingKeyUpdateResponse : Bool
  helloRetry : Bool
  handshakeSecret : Option Bytes
  clientHsTrafficSecret : Option Bytes
  serverHsTrafficSecret : Option Bytes
  entropy : SeededRng
  log : List Check

/-- Programs over the common fields. -/
abbrev EndpointM := EStateM Fault Endpoint

/-- `LocalEvent::into_output`: the certificate has to be there and to fit. -/
def LocalEvent.intoOutput {σ : Type} (bufLen : Nat) (peerCerts : List Bytes) :
    LocalEvent → EStateM Fault σ Output
  | .peerCert =>
    match peerCerts with
    | [] => throw (.panic .assertion)
    | certificate :: _ =>
      if certificate.length ≤ bufLen then return .peerCert certificate
      else throw (.panic .assertion)
  | .connected => return .connected
  | .keyingMaterial material profile => return .keyingMaterial material profile

/-- `Engine::random`. -/
def newRandom : EngineM Random := do
  return ⟨← randomArr 32⟩

/-- A close_notify alert. -/
def closeNotifyAlert : Bytes := [1, 0]

/-- The groups of the configuration; a list of them holds four. -/
def supportedGroups (config : Config) : EngineM (List NamedGroup) :=
  let groups := config.kxGroups.map SupportedKxGroup.name
  if groups.length ≤ 4 then return groups else throw (.panic .capacityExceeded)

/-- `handshake_create_certificate`: one certificate without extensions. -/
def createCertificate (context : Bytes) : EngineM Bytes := do
  let certificate := (← get).certificate.certificate
  let message : Certificate :=
    { contextRange := ⟨0, context.length⟩
      certificateList := [⟨⟨context.length, context.length + certificate.length⟩, ⟨0, 0⟩⟩] }
  return message.serialize (context ++ certificate)

/-- What a CertificateVerify signs. -/
def signedContent (label : String) (transcriptHash : Bytes) : Bytes :=
  List.replicate 64 0x20 ++ ascii label ++ [0] ++ transcriptHash

/-- The label of a server's CertificateVerify. -/
def serverLabel : String := "TLS 1.3, server CertificateVerify"

/-- The label of a client's CertificateVerify. -/
def clientLabel : String := "TLS 1.3, client CertificateVerify"

/-- The scheme of a signature algorithm and a hash. -/
def signatureScheme (signature : SignatureAlgorithm) (hash : HashAlgorithm) :
    Option SignatureScheme :=
  if signature = .ecdsa ∧ hash = .sha256 then some .ecdsaSecp256r1Sha256
  else if signature = .ecdsa ∧ hash = .sha384 then some .ecdsaSecp384r1Sha384
  else if signature = .rsa ∧ hash = .sha256 then some ⟨0x0804⟩
  else none

/-- `handshake_create_certificate_verify`: a signature over the transcript hash. -/
def createCertificateVerify (label : String) : EngineM Bytes := do
  let transcriptHash ← transcriptHash
  let key := (← get).certificate.signingKey
  let signature ← liftCrypto (key.sign (signedContent label transcriptHash) key.hashAlgorithm)
  let scheme ← orThrow (Fault.ofCrypto (.unsupportedSignaturePair key.algorithm key.hashAlgorithm))
    (signatureScheme key.algorithm key.hashAlgorithm)
  return be16 scheme.asU16 ++ be16 signature.length ++ signature

/-- `signature_scheme_to_components`. -/
def signatureSchemeToComponents (scheme : SignatureScheme) :
    Except SecurityError (HashAlgorithm × SignatureAlgorithm) :=
  if scheme = .ecdsaSecp256r1Sha256 then .ok (.sha256, .ecdsa)
  else if scheme = .ecdsaSecp384r1Sha384 then .ok (.sha384, .ecdsa)
  else if scheme.asU16 = 0x0603 then .ok (.sha512, .ecdsa)
  else if scheme.asU16 ∈ [0x0804, 0x0809] then .ok (.sha256, .rsa)
  else if scheme.asU16 ∈ [0x0805, 0x080a] then .ok (.sha384, .rsa)
  else if scheme.asU16 ∈ [0x0806, 0x080b] then .ok (.sha512, .rsa)
  else .error (.unsupportedSignatureScheme scheme)

/-- `verify_scheme_curve`: the curve of an ECDSA scheme is that of the certificate. -/
def verifySchemeCurve (provider : CryptoProvider) (scheme : SignatureScheme) (certDer : Bytes) :
    Except Error Unit :=
  match scheme.namedGroup with
  | none => .ok ()
  | some expected =>
    match provider.certNamedGroup certDer with
    | .error reason => .error (.certificateError reason)
    | .ok actual =>
      if expected ≠ actual then
        .error (.securityError (.signatureSchemeCertificateCurveMismatch scheme expected actual))
      else .ok ()

/-- Cuts the transcript back to an earlier length. -/
def Engine.truncateTranscript (length : Nat) (e : Engine) : Engine :=
  { e with transcript := e.transcript.take length }

/-- The loop over data that was queued before the handshake was over; what comes
after an error is lost. -/
def sendQueued (epoch : Nat) : List Bytes → EngineM Unit
  | [] => pure ()
  | data :: rest => do
    createCiphertextRecord .applicationData epoch false data
    sendQueued epoch rest

namespace Endpoint

/-- The common fields of a new client or server. -/
def new (engine : Engine) (entropy : SeededRng) (now : Instant) : Endpoint where
  engine := engine
  random := none
  negotiatedSrtpProfile := none
  peerCertificates := []
  clientAuthRequested := false
  lastNow := now
  localEvents := []
  queuedData := []
  pendingKeyUpdateResponse := false
  helloRetry := false
  handshakeSecret := none
  clientHsTrafficSecret := none
  serverHsTrafficSecret := none
  entropy := entropy
  log := []

/-- A program over the engine. -/
def withEngine {α : Type} (program : EngineM α) : EndpointM α :=
  zoom Endpoint.engine (fun engine p => { p with engine }) program

/-- Appends to the history. -/
def logCheck (check : Check) : EndpointM Unit :=
  modify fun (p : Endpoint) => { p with log := p.log ++ [check] }

/-- Appends an event for `poll_output`. -/
def pushEvent (event : LocalEvent) : EndpointM Unit :=
  modify fun (p : Endpoint) => { p with localEvents := p.localEvents ++ [event] }

/-- `start_exchange` of a group. -/
def startExchange (kx : SupportedKxGroup) : EndpointM ActiveKeyExchange := do
  let p ← get
  let (entropy, rest) := p.entropy.random (2 ^ 64)
  set { p with entropy := rest }
  liftCrypto (kx.startExchange entropy)

/-- Derives the handshake secrets, keeps them for the Finished messages and the
application keys, and installs their keys. -/
def installHandshakeSecrets (sharedSecret : Bytes) : EndpointM Unit := do
  let (cHsTraffic, sHsTraffic, handshakeSecret) ← withEngine (deriveHandshakeSecrets sharedSecret)
  modify fun (p : Endpoint) => { p with
    handshakeSecret := some handshakeSecret
    serverHsTrafficSecret := some sHsTraffic
    clientHsTrafficSecret := some cHsTraffic }
  withEngine (installHandshakeKeys cHsTraffic sHsTraffic)

/-- Derives the application secrets and installs their keys. -/
def installApplicationSecrets : EndpointM Unit := do
  let handshakeSecret ← orThrow
    (.fatal (.invalidState .noHandshakeSecretForApplicationKeyDerivation)) (← get).handshakeSecret
  let (cApTraffic, sApTraffic) ← withEngine (deriveApplicationSecrets handshakeSecret)
  withEngine (installApplicationKeys cApTraffic sApTraffic)

/-- Takes over the certificates of a Certificate message. -/
def takeCertificates (certificate : Certificate) (buffer : Bytes) : EndpointM Unit := do
  let list := certificate.certificateList.map fun entry => slice buffer entry.cert
  modify fun (p : Endpoint) => { p with peerCertificates := p.peerCertificates ++ list }
  logCheck (.certificates list)
  if (← get).peerCertificates.isEmpty then pure () else pushEvent LocalEvent.peerCert

/-- What the signature of a CertificateVerify is refused for before it is checked. -/
def refuseSignature (provider : CryptoProvider) (scheme : SignatureScheme) (signature : Bytes)
    (certificate : Option Bytes) (missing : CertificateError) :
    Except Error (Bytes × HashAlgorithm × SignatureAlgorithm) :=
  if !scheme.isSupported then .error (.securityError (.signatureSchemeNotOffered scheme))
  else if signature.length > 512 then .error (.securityError .signatureTooLarge)
  else
    match certificate with
    | none => .error (.certificateError missing)
    | some certDer =>
      match verifySchemeCurve provider scheme certDer with
      | .error reason => .error reason
      | .ok () =>
        match signatureSchemeToComponents scheme with
        | .error reason => .error (.securityError reason)
        | .ok (hash, algorithm) => .ok (certDer, hash, algorithm)

/-- The check of a CertificateVerify under the first certificate of the peer. The
transcript and its hash are those from before the message. -/
def checkCertificateVerify (label : String) (missing : CertificateError)
    (transcript transcriptHash : Bytes) (signed : DigitallySigned) (buffer : Bytes) :
    EndpointM Unit := do
  let p ← get
  let signature := signed.signature buffer
  let content := signedContent label transcriptHash
  match refuseSignature p.engine.config.cryptoProvider signed.scheme signature
      p.peerCertificates.head? missing with
  | .error reason => throw (.fatal reason)
  | .ok (certDer, hash, algorithm) =>
    withEngine (verifySignature certDer content signature hash algorithm)
    logCheck (.signature certDer transcript content signature signed.scheme)
    withEngine (modify Engine.advancePeerHandshakeSeq)

/-- The check of a Finished against the value over the transcript before it. -/
def checkFinished (failed : SecurityError) (transcript expected verifyData : Bytes) :
    EndpointM Unit := do
  if verifyData ≠ expected then
    throw (.fatal (.securityError failed))
  else
    logCheck (.finished transcript verifyData)
    withEngine (modify Engine.advancePeerHandshakeSeq)

/-- The keying material of a negotiated profile, when it can be extracted. -/
def emitKeyingMaterial : EndpointM Unit := do
  let p ← get
  match p.negotiatedSrtpProfile with
  | none => pure ()
  | some profile =>
    match extractSrtpKeyingMaterial profile p.engine with
    | .ok material _ => pushEvent (.keyingMaterial material profile)
    | .error (.panic site) _ => throw (.panic site)
    | .error _ _ => pure ()

/-- The handshake is over: the connection is reported and application data
released. -/
def completeHandshake : EndpointM Unit := do
  pushEvent LocalEvent.connected
  emitKeyingMaterial
  withEngine (modify Engine.releaseApplicationData)

/-- The KeyUpdate that the AEAD limit asks for, unless one is in flight. -/
def initiateKeyUpdate : EndpointM Unit := do
  let needed ← withEngine needsKeyUpdate
  let inFlight := (← get).engine.isKeyUpdateInFlight
  withEngine (runIf (needed && !inFlight) (createKeyUpdate .updateRequested))

/-- Sends the queued application data. -/
def sendQueuedData : EndpointM Unit := do
  let p ← get
  set { p with queuedData := [] }
  withEngine (sendQueued p.engine.appSendEpoch p.queuedData)

/-- The KeyUpdate that answers a requested one. -/
def answerKeyUpdate : EndpointM Unit := do
  if (← get).pendingKeyUpdateResponse then
    withEngine (createKeyUpdate .updateNotRequested)
    modify fun (p : Endpoint) => { p with pendingKeyUpdateResponse := false }
  else pure ()

/-- Runs a handler on a complete KeyUpdate message, if there is one. -/
def onKeyUpdate (handle : KeyUpdateRequest → EndpointM Unit) : EndpointM Unit := do
  match ← withEngine (nextHandshakeNoTranscript .keyUpdate) with
  | none => pure ()
  | some (handshake, _) =>
    match handshake.body with
    | .keyUpdate request => handle request
    | _ => throw (.panic .assertion)

/-- A KeyUpdate of the peer: new receive keys, an acknowledgement and, when it is
asked for, an own KeyUpdate at the next call. -/
def receiveKeyUpdate (request : KeyUpdateRequest) : EndpointM Unit := do
  withEngine updateRecvKeys
  withEngine sendAck
  modify fun (p : Endpoint) => { p with
    pendingKeyUpdateResponse := p.pendingKeyUpdateResponse || request = .updateRequested }
  withEngine (modify Engine.advancePeerHandshakeSeq)

/-- `await_application_data`. -/
def awaitApplicationData : EndpointM Unit := do
  initiateKeyUpdate
  sendQueuedData
  answerKeyUpdate
  onKeyUpdate receiveKeyUpdate

/-- A KeyUpdate of the peer after the own write half is closed: neither
acknowledged nor answered. -/
def receiveKeyUpdateHalfClosed : EndpointM Unit := do
  withEngine updateRecvKeys
  withEngine (modify Engine.advancePeerHandshakeSeq)

/-- `half_closed_local`: whether the peer has closed too. -/
def halfClosedLocal : EndpointM Bool := do
  onKeyUpdate fun _ => receiveKeyUpdateHalfClosed
  return (← get).engine.closeNotifyReceived

/-- The random of an endpoint, drawn at the first timeout. -/
def initRandom : EndpointM Unit := do
  match (← get).random with
  | some _ => pure ()
  | none =>
    let random ← withEngine newRandom
    modify fun (p : Endpoint) => { p with random := some random }

/-- `handle_timeout` up to the call of `make_progress`. -/
def handleTimeout (now : Instant) : EndpointM Unit := do
  modify fun (p : Endpoint) => { p with lastNow := now }
  initRandom
  withEngine (Engine.handleTimeout now)

/-- `poll_output`. -/
def pollOutput (bufLen : Nat) : EndpointM Output := do
  let p ← get
  match p.localEvents with
  | event :: rest =>
    set { p with localEvents := rest }
    event.intoOutput bufLen p.peerCertificates
  | [] => withEngine (Engine.pollOutput bufLen p.lastNow)

/-- Sends application data on the current epoch. -/
def sendData (data : Bytes) : EndpointM Unit := do
  let epoch := (← get).engine.appSendEpoch
  withEngine (createCiphertextRecord .applicationData epoch false data)

/-- Keeps application data until the handshake is over. -/
def queueData (data : Bytes) : EndpointM Unit :=
  modify fun (p : Endpoint) => { p with queuedData := p.queuedData ++ [data] }

/-- Sends a close_notify and stops all retransmission. -/
def closeWrite : EndpointM Unit := do
  let epoch := (← get).engine.appSendEpoch
  withEngine (createCiphertextRecord .alert epoch false closeNotifyAlert)
  withEngine (modify Engine.cancelFlights)

end Endpoint

end Dimpl.Dtls13
