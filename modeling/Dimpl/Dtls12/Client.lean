import Dimpl.Dtls12.Endpoint

/-!
# DTLS 1.2 client

The state machine of `dtls12/client.rs`. A handler returns the next state and is
called again until the state stays the same; an error leaves the state where it
was and keeps what the handler did before.
-/

namespace Dimpl.Dtls12

open Nom

/-- The states of a client. -/
inductive Client.State where
  | sendClientHello
  | awaitHelloVerifyRequest
  | awaitServerHello
  | awaitCertificate
  | awaitServerKeyExchange
  | awaitCertificateRequest
  | awaitServerHelloDone
  | sendCertificate
  | sendClientKeyExchange
  | sendCertificateVerify
  | sendChangeCipherSpec
  | sendFinished
  | awaitChangeCipherSpec
  | awaitNewSessionTicket
  | awaitFinished
  | awaitApplicationData
  | closed
  deriving DecidableEq, Repr

/-- `Client`. The `log` is history and read by no function. -/
structure Client where
  state : Client.State
  engine : Engine
  random : Option Random
  sessionId : Option Bytes
  cookie : Option Bytes
  negotiatedSrtpProfile : Option SrtpProfile
  serverRandom : Option Random
  serverCertificates : List Bytes
  certificateVerify : Bool
  capturedSessionHash : Option Bytes
  lastNow : Instant
  localEvents : List LocalEvent
  queuedData : List Bytes
  log : List Check

/-- Programs over the client. -/
abbrev ClientM := EStateM Fault Client

namespace Client

/-- `Client::new_with_engine`. -/
def newWithEngine (engine : Engine) (now : Instant) : Client where
  state := .sendClientHello
  engine := engine.setClient true
  random := none
  sessionId := none
  cookie := none
  negotiatedSrtpProfile := none
  serverRandom := none
  serverCertificates := []
  certificateVerify := false
  capturedSessionHash := none
  lastNow := now
  localEvents := []
  queuedData := []
  log := []

/-- A program over the engine of a client. -/
def withEngine {α : Type} (program : EngineM α) : ClientM α :=
  zoom Client.engine (fun engine c => { c with engine }) program

/-- Appends to the history. -/
def logCheck (check : Check) : ClientM Unit :=
  modify fun (c : Client) => { c with log := c.log ++ [check] }

/-- `next_handshake` for the wanted message; without it the state stays. -/
def onHandshake (wanted : MessageType) (stay : State) (handle : Body → Bytes → ClientM State) :
    ClientM State := do
  match ← withEngine (nextHandshake wanted) with
  | none => return stay
  | some (handshake, buffer) => handle handshake.body buffer

/-- The extensions for ECDHE, when the provider has it. -/
def curveExtensions (config : Config) : EngineM (List (ExtensionType × Bytes)) := do
  if config.cryptoProvider.hasEcdh then
    let groups ← supportedGroups config
    return [(.supportedGroups, serializeSupportedGroups groups),
      (.ecPointFormats, defaultEcPointFormats)]
  else return []

/-- The extensions of `with_extensions`. -/
def clientHelloExtensions (config : Config) : EngineM (List (ExtensionType × Bytes)) := do
  let curves ← curveExtensions config
  return curves ++
    [(.signatureAlgorithms, serializeSignatureAlgorithms SignatureAndHashAlgorithm.supported),
     (.useSrtp, UseSrtpExtension.default.serialize), (.extendedMasterSecret, [])]

/-- `handshake_create_client_hello`. -/
def createClientHello (cookie : Bytes) (random : Random) (sessionId : Bytes) : EngineM Bytes := do
  let e ← get
  let cipherSuites := ((e.config.dtls12CipherSuites.map SupportedDtls12CipherSuite.suite).filter
    e.cryptoContext.isCipherSuiteCompatible).take Dtls12CipherSuite.supported.length
  let parts ← clientHelloExtensions e.config
  let (extensions, extensionData) := Extension.layout parts
  let hello : ClientHello :=
    { clientVersion := .dtls12, random, sessionId, cookie, cipherSuites
      compressionMethods := [.null], extensions }
  return hello.serialize extensionData

/-- `send_client_hello`. -/
def sendClientHello : ClientM State := do
  let c ← get
  let random ← orThrow (.panic .assertion) c.random
  withEngine (modify Engine.flightBegin)
  withEngine (createHandshake .clientHello
    (createClientHello (c.cookie.getD []) random (c.sessionId.getD [])))
  return if c.cookie.isNone then .awaitHelloVerifyRequest else .awaitServerHello

/-- A HelloVerifyRequest: the cookie is for the next ClientHello. -/
def handleHelloVerifyRequest (request : HelloVerifyRequest) : ClientM State := do
  if request.serverVersion ≠ .dtls12 ∧ request.serverVersion ≠ .dtls10 then
    throw (.fatal (.securityError
      (.unsupportedHelloVerifyRequestVersion request.serverVersion)))
  else
    modify fun (c : Client) => { c with cookie := some request.cookie }
    withEngine (modify Engine.resetClientForHelloVerifyRequest)
    return .sendClientHello

/-- `await_hello_verify_request`: a ServerHello may come without one. -/
def awaitHelloVerifyRequest : ClientM State := do
  if (← get).engine.hasCompleteHandshake .serverHello then
    return .awaitServerHello
  else
    onHandshake .helloVerifyRequest .awaitHelloVerifyRequest fun body _ =>
      match body with
      | .helloVerifyRequest request => handleHelloVerifyRequest request
      | _ => throw (.panic .assertion)

/-- The loop over the extensions of a ServerHello: whether the extended master
secret is negotiated. -/
def handleExtensions (buffer : Bytes) : List Extension → Bool → ClientM Bool
  | [], extendedMasterSecret => return extendedMasterSecret
  | ext :: rest, extendedMasterSecret => do
    if ext.extensionType = .useSrtp then
      match Nom.parse UseSrtpExtension.parse (ext.extensionData buffer) with
      | .error err => throw (Fault.ofNom err)
      | .ok (useSrtp, _) =>
        modify fun (c : Client) => { c with
          negotiatedSrtpProfile := useSrtp.profiles.head?.or c.negotiatedSrtpProfile }
        handleExtensions buffer rest extendedMasterSecret
    else
      handleExtensions buffer rest
        (extendedMasterSecret || ext.extensionType = .extendedMasterSecret)

/-- What a ServerHello is refused for before anything of it is kept. -/
def refuseServerHello (c : Client) (hello : ServerHello) : Option SecurityError :=
  let suite := hello.cipherSuite
  if hello.serverVersion ≠ .dtls12 then some (.unsupportedServerVersion hello.serverVersion)
  else if hello.compressionMethod ≠ .null then
    some (.unsupportedServerCompression hello.compressionMethod)
  else if suite.isUnknown then some .serverSelectedUnknownCipherSuite
  else if !c.engine.cryptoContext.isCipherSuiteCompatible suite then
    some (.serverSelectedIncompatibleCipherSuite suite)
  else if !c.engine.isCipherSuiteAllowed suite then
    some (.serverSelectedDisallowedCipherSuite suite)
  else none

/-- A ServerHello. -/
def handleServerHello (hello : ServerHello) (buffer : Bytes) : ClientM State := do
  let c ← get
  match refuseServerHello c hello with
  | some reason => throw (.fatal (.securityError reason))
  | none =>
    withEngine (setCipherSuite hello.cipherSuite)
    modify fun (c : Client) => { c with
      sessionId := some hello.sessionId
      serverRandom := some hello.random }
    match hello.extensions with
    | none => throw (.fatal .incompleteServerHello)
    | some extensions =>
      let extendedMasterSecret ← handleExtensions buffer extensions false
      if !extendedMasterSecret then
        throw (.fatal (.securityError .extendedMasterSecretNotNegotiated))
      else return if hello.cipherSuite.isPsk then .awaitServerKeyExchange else .awaitCertificate

/-- `await_server_hello`. -/
def awaitServerHello : ClientM State :=
  onHandshake .serverHello .awaitServerHello fun body buffer =>
    match body with
    | .serverHello hello => handleServerHello hello buffer
    | _ => throw (.panic .assertion)

/-- `await_certificate`. -/
def awaitCertificate : ClientM State :=
  onHandshake .certificate .awaitCertificate fun body buffer =>
    match body with
    | .certificate certificateList => do
      if certificateList.isEmpty then
        throw (.fatal (.certificateError .noServerCertificateReceived))
      else
        modify fun (c : Client) => { c with
          serverCertificates := c.serverCertificates ++ certificateList.map (slice buffer) }
        return .awaitServerKeyExchange
    | _ => throw (.panic .assertion)

/-- What the signature of a ServerKeyExchange covers. -/
def signedParams (clientRandom serverRandom : Random) (params : EcdhParams) (buffer : Bytes) :
    Bytes :=
  clientRandom.bytes ++ serverRandom.bytes ++
    EcdhParams.serializeBytes params.curveType params.namedGroup (slice buffer params.publicKeyRange)

/-- What the algorithm of a ServerKeyExchange signature is refused for. -/
def refuseAlgorithm (suite : Dtls12CipherSuite) (algorithm : SignatureAndHashAlgorithm) :
    Option CryptoError :=
  if !algorithm.isSupported then some .signatureAlgorithmNotOfferedByClient
  else
    match suite.signatureAlgorithm with
    | some expected =>
      if algorithm.signature ≠ expected then
        some (.signatureAlgorithmMismatch expected algorithm.signature)
      else none
    | none => none

/-- ECDHE parameters with their signature: checked under the first certificate of
the server, then used. -/
def handleSignedParams (params : EcdhParams) (signed : DigitallySigned) (buffer : Bytes) :
    ClientM State := do
  let c ← get
  let clientRandom ← orThrow (.panic .assertion) c.random
  let serverRandom ← orThrow (.panic .assertion) c.serverRandom
  let suite ← withEngine selectedCipherSuite
  match refuseAlgorithm suite signed.algorithm with
  | some reason => throw (Fault.ofCrypto reason)
  | none =>
    let certificate ← orThrow (.panic .assertion) c.serverCertificates.head?
    let data := signedParams clientRandom serverRandom params buffer
    let signature := signed.signature buffer
    let provider := c.engine.config.cryptoProvider
    liftCrypto (CryptoContext.verifySignature provider data signed.algorithm signature certificate)
    logCheck (.signature certificate data signature signed.algorithm)
    let publicKey := slice buffer params.publicKeyRange
    logCheck (.exchanged params.namedGroup publicKey)
    withEngine (withContext
      (CryptoContext.processEcdhParams provider params.namedGroup publicKey))
    return .awaitCertificateRequest

/-- `await_server_key_exchange_ecdhe`. -/
def awaitServerKeyExchangeEcdhe : ClientM State :=
  onHandshake .serverKeyExchange .awaitServerKeyExchange fun body buffer =>
    match body with
    | .serverKeyExchange exchange =>
      match exchange with
      | .ecdh params =>
        match params.signature with
        | some signed => handleSignedParams params signed buffer
        | none => throw (.fatal (.unexpectedMessage .serverKeyExchangeWithoutSignature))
      | .psk _ => throw (.fatal (.unexpectedMessage .serverKeyExchangeWithoutSignature))
    | _ => throw (.panic .assertion)

/-- `await_server_key_exchange_psk`: the hint is not used. -/
def awaitServerKeyExchangePsk : ClientM State := do
  if (← get).engine.hasCompleteHandshake .serverHelloDone then
    return .awaitServerHelloDone
  else
    onHandshake .serverKeyExchange .awaitServerKeyExchange fun body _ =>
      match body with
      | .serverKeyExchange (.psk _) => return .awaitServerHelloDone
      | .serverKeyExchange (.ecdh _) =>
        throw (.fatal (.unexpectedMessage .ecdheServerKeyExchangeInPskPath))
      | _ => throw (.panic .assertion)

/-- `await_server_key_exchange`. -/
def awaitServerKeyExchange : ClientM State := do
  let suite ← withEngine selectedCipherSuite
  if suite.isPsk then awaitServerKeyExchangePsk else awaitServerKeyExchangeEcdhe

/-- `await_certificate_request`. -/
def awaitCertificateRequest : ClientM State := do
  if (← get).engine.hasCompleteHandshake .serverHelloDone then
    return .awaitServerHelloDone
  else
    onHandshake .certificateRequest .awaitCertificateRequest fun body _ =>
      match body with
      | .certificateRequest request => do
        let hash ← orThrow (.panic .assertion)
          (← get).engine.cryptoContext.privateKeyDefaultHashAlgorithm
        if !request.supportsHashAlgorithm hash then
          throw (.fatal (.certificateError (.unsupportedHashAlgorithm hash)))
        else
          modify fun (c : Client) => { c with certificateVerify := true }
          return .awaitServerHelloDone
      | _ => throw (.panic .assertion)

/-- `await_server_hello_done`. -/
def awaitServerHelloDone : ClientM State :=
  onHandshake .serverHelloDone .awaitServerHelloDone fun body _ =>
    match body with
    | .serverHelloDone => do
      let suite ← withEngine selectedCipherSuite
      let c ← get
      if suite.isPsk then
        return .sendClientKeyExchange
      else if c.serverCertificates.isEmpty then
        throw (.fatal (.certificateError .noServerCertificateReceived))
      else
        set { c with localEvents := c.localEvents ++ [LocalEvent.peerCert] }
        return if c.certificateVerify then .sendCertificate else .sendClientKeyExchange
    | _ => throw (.panic .assertion)

/-- `send_certificate`. -/
def sendCertificate : ClientM State := do
  withEngine (modify Engine.flightBegin)
  withEngine (createHandshake .certificate createCertificate)
  return .sendClientKeyExchange

/-- `handshake_create_client_key_exchange`. -/
def createClientKeyExchange : EngineM Bytes := do
  let suite ← selectedCipherSuite
  let e ← get
  match keyExchangeAlgorithm suite with
  | .eecdh =>
    let _ ← orThrow (.panic .assertion) e.cryptoContext.getKeyExchangeGroupInfo
    let publicKey ← withContext CryptoContext.maybeInitKeyExchange
    return UInt8.ofNat publicKey.length :: publicKey
  | .psk =>
    let identity ← orThrow (.fatal (.pskError .noPskIdentityConfigured)) e.config.pskIdentity
    let resolve ← orThrow (.fatal (.pskError .noPskResolverConfigured)) e.config.pskResolver
    let psk ← orThrow (.fatal (.pskError .resolverReturnedNoKey)) (resolve identity)
    withContext (modify (CryptoContext.setPsk psk))
    withContext CryptoContext.computePskPreMasterSecret
    return be16 identity.length ++ identity
  | .unknown => throw (.fatal (.securityError .unsupportedKeyExchangeAlgorithm))

/-- `send_client_key_exchange`: the session hash covers the messages so far. -/
def sendClientKeyExchange : ClientM State := do
  let c ← get
  withEngine (runIf (!c.certificateVerify) (modify Engine.flightBegin))
  withEngine (createHandshake .clientKeyExchange createClientKeyExchange)
  let suite ← withEngine selectedCipherSuite
  modify fun (c : Client) => { c with
    capturedSessionHash := some (c.engine.transcriptHash suite.hashAlgorithm) }
  return if c.certificateVerify then .sendCertificateVerify else .sendChangeCipherSpec

/-- `handshake_create_certificate_verify`: a signature over the transcript. -/
def createCertificateVerify : EngineM Bytes := do
  let e ← get
  let hash ← orThrow (.panic .assertion) e.cryptoContext.privateKeyDefaultHashAlgorithm
  let algorithm ← orThrow (.panic .assertion) e.cryptoContext.signatureAlgorithm
  let signature ← withContext (CryptoContext.signData e.transcript hash)
  return DigitallySigned.serializeBytes ⟨hash, algorithm⟩ signature

/-- `send_certificate_verify`. -/
def sendCertificateVerify : ClientM State := do
  withEngine (createHandshake .certificateVerify createCertificateVerify)
  return .sendChangeCipherSpec

/-- `derive_keys`. -/
def deriveKeys : ClientM Unit := do
  let suite ← withEngine selectedCipherSuite
  let c ← get
  let serverRandom ← orThrow (.fatal (.invalidState .noServerRandom)) c.serverRandom
  let clientRandom ← orThrow (.panic .assertion) c.random
  let sessionHash ← orThrow (.fatal (.invalidState .extendedMasterSecretSessionHashMissing))
    c.capturedSessionHash
  withEngine (deriveSessionKeys suite sessionHash clientRandom serverRandom)

/-- `send_change_cipher_spec`. -/
def sendChangeCipherSpec : ClientM State := do
  deriveKeys
  withEngine (createRecord .changeCipherSpec 0 true [1])
  return .sendFinished

/-- `send_finished`. -/
def sendFinished : ClientM State := do
  withEngine (createHandshake .finished (createFinished true))
  return .awaitChangeCipherSpec

/-- `await_change_cipher_spec`. -/
def awaitChangeCipherSpec : ClientM State := do
  match ← withEngine (nextRecord .changeCipherSpec) with
  | none => return .awaitChangeCipherSpec
  | some _ =>
    withEngine dropPendingCcs
    withEngine enablePeerEncryption
    return .awaitNewSessionTicket

/-- `await_new_session_ticket`: the ticket is not used. -/
def awaitNewSessionTicket : ClientM State := do
  if (← get).engine.hasCompleteHandshake .finished then
    return .awaitFinished
  else
    onHandshake .newSessionTicket .awaitNewSessionTicket fun body _ =>
      match body with
      | .newSessionTicket _ => return .awaitFinished
      | _ => throw (.panic .assertion)

/-- Emits the keying material of a negotiated profile. -/
def emitKeyingMaterial : ClientM Unit := do
  let c ← get
  match c.negotiatedSrtpProfile with
  | none => pure ()
  | some profile =>
    let suite ← orThrow (.panic .assertion) c.engine.cipherSuite
    set { c with localEvents := c.localEvents ++ keyingMaterialEvent c.engine suite profile }

/-- The server's Finished was equal: the handshake is over. -/
def completeHandshake : ClientM State := do
  withEngine (modify Engine.flightStopResendTimers)
  modify fun (c : Client) => { c with localEvents := c.localEvents ++ [LocalEvent.connected] }
  emitKeyingMaterial
  withEngine (modify Engine.releaseApplicationData)
  return .awaitApplicationData

/-- `await_finished`: the expected value is over the transcript without the
Finished. -/
def awaitFinished : ClientM State := do
  let transcript := (← get).engine.transcript
  let expected ← withEngine (generateVerifyData false)
  onHandshake .finished .awaitFinished fun body buffer =>
    match body with
    | .finished verifyDataRange => do
      let verifyData := slice buffer verifyDataRange
      if verifyData ≠ expected then
        throw (.fatal (.securityError .serverFinishedVerificationFailed))
      else
        logCheck (.finished transcript verifyData)
        completeHandshake
    | _ => throw (.panic .assertion)

/-- `await_application_data`. -/
def awaitApplicationData : ClientM State := do
  let c ← get
  if c.engine.closeNotifyReceived then
    withEngine (modify Engine.discardPendingWrites)
    withEngine (createRecord .alert 1 false closeNotifyAlert)
    return .closed
  else
    set { c with queuedData := [] }
    withEngine (sendQueued c.queuedData)
    return .awaitApplicationData

/-- `State::make_progress`. -/
def State.makeProgress : State → ClientM State
  | .sendClientHello => Client.sendClientHello
  | .awaitHelloVerifyRequest => Client.awaitHelloVerifyRequest
  | .awaitServerHello => Client.awaitServerHello
  | .awaitCertificate => Client.awaitCertificate
  | .awaitServerKeyExchange => Client.awaitServerKeyExchange
  | .awaitCertificateRequest => Client.awaitCertificateRequest
  | .awaitServerHelloDone => Client.awaitServerHelloDone
  | .sendCertificate => Client.sendCertificate
  | .sendClientKeyExchange => Client.sendClientKeyExchange
  | .sendCertificateVerify => Client.sendCertificateVerify
  | .sendChangeCipherSpec => Client.sendChangeCipherSpec
  | .sendFinished => Client.sendFinished
  | .awaitChangeCipherSpec => Client.awaitChangeCipherSpec
  | .awaitNewSessionTicket => Client.awaitNewSessionTicket
  | .awaitFinished => Client.awaitFinished
  | .awaitApplicationData => Client.awaitApplicationData
  | .closed => pure .closed

/-- The loop of `make_progress`. The states have an order that only the first
HelloVerifyRequest goes against, so the rounds are bounded. -/
def progressLoop : (fuel : Nat) → ClientM Unit
  | 0 => throw (.panic .assertion)
  | fuel + 1 => do
    let state := (← get).state
    let next ← state.makeProgress
    if next = state then pure ()
    else
      modify fun (c : Client) => { c with state := next }
      progressLoop fuel

/-- `make_progress`. -/
def makeProgress : ClientM Unit := progressLoop 20

/-- `handle_packet`. -/
def handlePacket (packet : Bytes) : ClientM Unit :=
  publicResult do
    withEngine (receivePacket packet)
    makeProgress

/-- The random of the client, drawn at the first timeout. -/
def initRandom (now : Instant) : ClientM Unit := do
  match (← get).random with
  | some _ => pure ()
  | none =>
    let random ← withEngine (newRandom now)
    modify fun (c : Client) => { c with random := some random }

/-- `handle_timeout`. -/
def handleTimeout (now : Instant) : ClientM Unit := do
  modify fun (c : Client) => { c with lastNow := now }
  initRandom now
  withEngine (Engine.handleTimeout now)
  publicResult makeProgress

/-- `poll_output`. -/
def pollOutput (bufLen : Nat) : ClientM Output := do
  let c ← get
  match c.localEvents with
  | event :: rest =>
    set { c with localEvents := rest }
    event.intoOutput bufLen c.serverCertificates
  | [] => withEngine (Engine.pollOutput bufLen c.lastNow)

/-- `send_application_data`. -/
def sendApplicationData (data : Bytes) : ClientM Unit := do
  let c ← get
  if c.state = .closed then throw (.fatal .connectionClosed)
  else if c.state ≠ .awaitApplicationData then
    set { c with queuedData := c.queuedData ++ [data] }
  else withEngine (createRecord .applicationData 1 false data)

/-- `close`. -/
def close : ClientM Unit := do
  let c ← get
  if c.state = .closed then pure ()
  else if c.state ≠ .awaitApplicationData then
    set { c with engine := c.engine.abort, state := .closed }
  else
    withEngine (createRecord .alert 1 false closeNotifyAlert)
    modify fun (c : Client) => { c with state := .closed }

/-- `Client::new_from_hybrid` up to its call of `handle_timeout`: the first hello
was sent outside of the engine. -/
def newFromHybrid (random : Random) (handshakeFragment : Bytes) (engine : Engine) (now : Instant) :
    Client :=
  { newWithEngine (((engine.setNextHandshakeSeqNo 1).addToTranscript
      handshakeFragment).advanceEpoch0Sequence) now with
    state := .awaitHelloVerifyRequest
    random := some random }

end Client

end Dimpl.Dtls12
