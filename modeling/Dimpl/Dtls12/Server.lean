import Dimpl.Dtls12.Endpoint

/-!
# DTLS 1.2 server

The state machine of `dtls12/server.rs`, read as the client's.
-/

namespace Dimpl.Dtls12

open Nom

/-- The states of a server. -/
inductive Server.State where
  | awaitClientHello
  | sendServerHello
  | sendCertificate
  | sendServerKeyExchange
  | sendCertificateRequest
  | sendServerHelloDone
  | awaitCertificate
  | awaitClientKeyExchange
  | awaitCertificateVerify
  | awaitChangeCipherSpec
  | awaitFinished
  | sendChangeCipherSpec
  | sendFinished
  | awaitApplicationData
  | closed
  deriving DecidableEq, Repr

/-- `Server`. The `log` is history and read by no function. -/
structure Server where
  state : Server.State
  engine : Engine
  random : Option Random
  sessionId : Option Bytes
  cookieSecret : Bytes
  negotiatedSrtpProfile : Option SrtpProfile
  clientSupportedGroups : Option (List NamedGroup)
  clientSignatureAlgorithms : Option (List SignatureAndHashAlgorithm)
  clientRandom : Option Random
  clientCertificates : List Bytes
  capturedSessionHash : Option Bytes
  pskValid : Option Bool
  lastNow : Instant
  localEvents : List LocalEvent
  queuedData : List Bytes
  log : List Check

/-- Programs over the server. -/
abbrev ServerM := EStateM Fault Server

namespace Server

/-- `Server::new_with_engine`: the secret of the cookies is drawn here. -/
def newWithEngine (engine : Engine) (now : Instant) : Server :=
  let engine := engine.setClient false
  let (cookieSecret, rng) := engine.rng.randomBytes 32
  { state := .awaitClientHello
    engine := { engine with rng }
    random := none
    sessionId := none
    cookieSecret
    negotiatedSrtpProfile := none
    clientSupportedGroups := none
    clientSignatureAlgorithms := none
    clientRandom := none
    clientCertificates := []
    capturedSessionHash := none
    pskValid := none
    lastNow := now
    localEvents := []
    queuedData := []
    log := [] }

/-- A program over the engine of a server. -/
def withEngine {α : Type} (program : EngineM α) : ServerM α :=
  zoom Server.engine (fun engine s => { s with engine }) program

/-- Appends to the history. -/
def logCheck (check : Check) : ServerM Unit :=
  modify fun (s : Server) => { s with log := s.log ++ [check] }

/-- `next_handshake` for the wanted message; without it the state stays. -/
def onHandshake (wanted : MessageType) (stay : State) (handle : Body → Bytes → ServerM State) :
    ServerM State := do
  match ← withEngine (nextHandshake wanted) with
  | none => return stay
  | some (handshake, buffer) => handle handshake.body buffer

/-- `compute_cookie`: the code of the secret over the client's random. A cookie
has at most 255 bytes. -/
def computeCookie (provider : CryptoProvider) (secret : Bytes) (clientRandom : Random) :
    Except CryptoError Bytes := do
  let tag ← provider.hmac .sha256 secret clientRandom.bytes
  if tag.length ≤ 255 then return tag else throw (.operationFailed 0)

/-- `verify_cookie`. -/
def verifyCookie (provider : CryptoProvider) (secret : Bytes) (clientRandom : Random)
    (cookie : Bytes) : Bool :=
  if cookie.length ≠ 32 then false
  else
    match computeCookie provider secret clientRandom with
    | .ok expected => expected = cookie
    | .error _ => false

/-- Asks for a cookie: the exchange leaves no trace in the handshake. -/
def sendHelloVerifyRequest (clientRandom : Random) : ServerM State := do
  let s ← get
  let cookie ← liftCrypto
    (computeCookie s.engine.config.cryptoProvider s.cookieSecret clientRandom)
  withEngine (modify Engine.flightBegin)
  withEngine (createHandshake .helloVerifyRequest
    (pure (HelloVerifyRequest.serialize ⟨.dtls10, cookie⟩)))
  withEngine (modify Engine.resetServerForHelloVerifyRequest)
  return .awaitClientHello

/-- What a client offers in its extensions. -/
structure Offers where
  extendedMasterSecret : Bool
  srtpProfiles : Option (List SrtpProfile)
  supportedGroups : Option (List NamedGroup)
  signatureAlgorithms : Option (List SignatureAndHashAlgorithm)

/-- One extension of a ClientHello. Signature algorithms that do not parse are
ignored, the others are refused. -/
def Offers.add (offers : Offers) (ext : Extension) (buffer : Bytes) : Except Err Offers := do
  let data := ext.extensionData buffer
  if ext.extensionType = .useSrtp then
    let (useSrtp, _) ← Nom.parse UseSrtpExtension.parse data
    return { offers with srtpProfiles := some useSrtp.profiles }
  else if ext.extensionType = .extendedMasterSecret then
    return { offers with extendedMasterSecret := true }
  else if ext.extensionType = .supportedGroups then
    let (groups, _) ← Nom.parse parseSupportedGroups data
    return { offers with supportedGroups := some groups }
  else if ext.extensionType = .ecPointFormats then
    let _ ← Nom.parse parseEcPointFormats data
    return offers
  else if ext.extensionType = .signatureAlgorithms then
    match Nom.parse parseSignatureAlgorithms data with
    | .ok (algorithms, _) => return { offers with signatureAlgorithms := some algorithms }
    | .error _ => return offers
  else return offers

/-- The loop over the extensions of a ClientHello. -/
def Offers.collect (buffer : Bytes) (extensions : List Extension) : Except Err Offers :=
  extensions.foldlM (fun offers ext => offers.add ext buffer) ⟨false, none, none, none⟩

/-- The profile of the client that the server prefers. -/
def selectProfile (profiles : List SrtpProfile) : Option SrtpProfile :=
  [SrtpProfile.aeadAes256Gcm, .aeadAes128Gcm, .aes128CmSha1_80].find? fun preferred =>
    profiles.contains preferred

/-- A ClientHello with a valid cookie. -/
def acceptClientHello (hello : ClientHello) (buffer : Bytes) : ServerM State := do
  let e := (← get).engine
  let suite ← orThrow (.fatal (.securityError .noMutuallyAcceptableCipherSuite))
    (hello.cipherSuites.find? fun suite =>
      e.isCipherSuiteAllowed suite && e.cryptoContext.isCipherSuiteCompatible suite)
  withEngine (setCipherSuite suite)
  modify fun (s : Server) => { s with clientRandom := some hello.random }
  match Offers.collect buffer hello.extensions with
  | .error err => throw (Fault.ofNom err)
  | .ok offers =>
    if !offers.extendedMasterSecret then
      throw (.fatal (.securityError .extendedMasterSecretNotNegotiated))
    else
      modify fun (s : Server) => { s with
        negotiatedSrtpProfile :=
          match offers.srtpProfiles with
          | some profiles => selectProfile profiles
          | none => s.negotiatedSrtpProfile
        clientSupportedGroups := offers.supportedGroups
        clientSignatureAlgorithms := offers.signatureAlgorithms }
      return .sendServerHello

/-- A ClientHello. -/
def handleClientHello (hello : ClientHello) (buffer : Bytes) : ServerM State := do
  let s ← get
  if hello.clientVersion ≠ .dtls12 then
    throw (.fatal (.securityError (.unsupportedClientVersion hello.clientVersion)))
  else if !hello.compressionMethods.contains .null then
    throw (.fatal (.securityError .unsupportedClientCompression))
  else if s.engine.config.useServerCookie && !verifyCookie s.engine.config.cryptoProvider
      s.cookieSecret hello.random hello.cookie then
    sendHelloVerifyRequest hello.random
  else acceptClientHello hello buffer

/-- `await_client_hello`. -/
def awaitClientHello : ServerM State :=
  onHandshake .clientHello .awaitClientHello fun body buffer =>
    match body with
    | .clientHello hello => handleClientHello hello buffer
    | _ => throw (.panic .assertion)

/-- `ServerHello::with_extensions`. -/
def serverHelloExtensions (profile : Option SrtpProfile) : List (ExtensionType × Bytes) :=
  (match profile with
    | some profile => [(.useSrtp, UseSrtpExtension.serialize ⟨[profile], []⟩)]
    | none => []) ++ [(.extendedMasterSecret, []), (.renegotiationInfo, [0])]

/-- `handshake_create_server_hello`. -/
def createServerHello (random : Random) (sessionId : Bytes) (profile : Option SrtpProfile) :
    EngineM Bytes := do
  let suite ← orThrow (.fatal (.invalidState .noCipherSuite)) (← get).cipherSuite
  let (extensions, extensionData) := Extension.layout (serverHelloExtensions profile)
  let hello : ServerHello :=
    { serverVersion := .dtls12, random, sessionId, cipherSuite := suite, compressionMethod := .null
      extensions := some extensions }
  return hello.serialize extensionData

/-- `send_server_hello`. -/
def sendServerHello : ServerM State := do
  withEngine (modify Engine.flightBegin)
  let s ← get
  let random ← orThrow (.panic .assertion) s.random
  withEngine (createHandshake .serverHello
    (createServerHello random (s.sessionId.getD []) s.negotiatedSrtpProfile))
  let suite ← withEngine selectedCipherSuite
  return if suite.isPsk then .sendServerKeyExchange else .sendCertificate

/-- `send_certificate`. -/
def sendCertificate : ServerM State := do
  withEngine (createHandshake .certificate createCertificate)
  return .sendServerKeyExchange

/-- `select_named_group`: a group of both in the order of the server, or its first
when the client names none. -/
def selectNamedGroup (clientGroups : Option (List NamedGroup)) (serverGroups : List NamedGroup) :
    Option NamedGroup :=
  match clientGroups with
  | some groups => serverGroups.find? fun group => groups.contains group
  | none => serverGroups.head?

/-- `select_ske_signature_algorithm`: the hash of the key first. -/
def selectSkeSignatureAlgorithm (clientAlgs : Option (List SignatureAndHashAlgorithm))
    (ourSig : SignatureAlgorithm) (ourHash : HashAlgorithm)
    (supportedHashes : List HashAlgorithm) : SignatureAndHashAlgorithm :=
  let hashPref : List HashAlgorithm := if ourHash = .sha384 then [.sha384, .sha256]
    else [.sha256, .sha384]
  let candidates := (hashPref.filter fun hash => supportedHashes.contains hash).filterMap fun hash =>
    (clientAlgs.getD []).find? fun algorithm =>
      algorithm.signature = ourSig && algorithm.hash = hash
  candidates.head?.getD ⟨ourHash, ourSig⟩

/-- `handshake_create_server_key_exchange`. -/
def createServerKeyExchange (clientRandom serverRandom : Random) (group : NamedGroup)
    (algorithm : SignatureAndHashAlgorithm) : EngineM Bytes := do
  let suite ← selectedCipherSuite
  match keyExchangeAlgorithm suite with
  | .eecdh =>
    let provider := (← get).config.cryptoProvider
    let pubkey ← withContext (CryptoContext.initEcdhServer provider group)
    -- The curve type of a named curve.
    let params := EcdhParams.serializeBytes 3 group pubkey
    let signature ← withContext (CryptoContext.signData
      (clientRandom.bytes ++ serverRandom.bytes ++ params) algorithm.hash)
    return params ++ DigitallySigned.serializeBytes algorithm signature
  | _ => throw (.fatal (.securityError .unsupportedKeyExchangeAlgorithm))

/-- `send_server_key_exchange_psk`: without a hint there is no message. -/
def sendServerKeyExchangePsk : ServerM State := do
  match (← get).engine.config.pskIdentityHint with
  | none => return .sendServerHelloDone
  | some hint =>
    withEngine (createHandshake .serverKeyExchange (pure (be16 hint.length ++ hint)))
    return .sendServerHelloDone

/-- The ECDHE half of `send_server_key_exchange`. -/
def sendServerKeyExchangeEcdhe : ServerM State := do
  let s ← get
  let clientRandom ← orThrow (.fatal (.invalidState .noClientRandom)) s.clientRandom
  let serverRandom ← orThrow (.panic .assertion) s.random
  let group ← orThrow
    (.fatal (if s.clientSupportedGroups.isSome then .securityError .noCommonKeyExchangeGroup
      else .cryptoError .noDtls12KeyExchangeGroupsConfigured))
    (selectNamedGroup s.clientSupportedGroups
      (s.engine.config.kxGroups.map SupportedKxGroup.name))
  let context := s.engine.cryptoContext
  let ourSig ← orThrow (.panic .assertion) context.signatureAlgorithm
  let ourHash ← orThrow (.panic .assertion) context.privateKeyDefaultHashAlgorithm
  let algorithm := selectSkeSignatureAlgorithm s.clientSignatureAlgorithms ourSig ourHash
    context.privateKeySupportedHashAlgorithms
  withEngine (createHandshake .serverKeyExchange
    (createServerKeyExchange clientRandom serverRandom group algorithm))
  return if s.engine.config.requireClientCertificate then .sendCertificateRequest
    else .sendServerHelloDone

/-- `send_server_key_exchange`. -/
def sendServerKeyExchange : ServerM State := do
  let suite ← withEngine selectedCipherSuite
  if suite.isPsk then sendServerKeyExchangePsk else sendServerKeyExchangeEcdhe

/-- `select_certificate_request_sig_algs`. -/
def selectCertificateRequestSigAlgs (clientAlgs : Option (List SignatureAndHashAlgorithm)) :
    List SignatureAndHashAlgorithm :=
  (clientAlgs.getD []).filter SignatureAndHashAlgorithm.isSupported

/-- `handshake_serialize_certificate_request`. -/
def serializeCertificateRequest (sigAlgs : List SignatureAndHashAlgorithm) : Bytes :=
  CertificateRequest.serializeBytes [CertificateRequest.ecdsaSign]
    (if sigAlgs.isEmpty then SignatureAndHashAlgorithm.supported else sigAlgs)

/-- `send_certificate_request`. -/
def sendCertificateRequest : ServerM State := do
  let sigAlgs := selectCertificateRequestSigAlgs (← get).clientSignatureAlgorithms
  withEngine (createHandshake .certificateRequest (pure (serializeCertificateRequest sigAlgs)))
  return .sendServerHelloDone

/-- `send_server_hello_done`. -/
def sendServerHelloDone : ServerM State := do
  withEngine (createHandshake .serverHelloDone (pure []))
  let suite ← withEngine selectedCipherSuite
  return if !suite.isPsk && (← get).engine.config.requireClientCertificate then .awaitCertificate
    else .awaitClientKeyExchange

/-- `await_certificate`: a client may have none. -/
def awaitCertificate : ServerM State :=
  onHandshake .certificate .awaitCertificate fun body buffer =>
    match body with
    | .certificate certificateList => do
      modify fun (s : Server) =>
        if certificateList.isEmpty then s
        else { s with
          clientCertificates := s.clientCertificates ++ certificateList.map (slice buffer)
          localEvents := s.localEvents ++ [LocalEvent.peerCert] }
      return .awaitClientKeyExchange
    | _ => throw (.panic .assertion)

/-- The length of the key in place of one that cannot be found. -/
def dummyPskLen : Nat := 32

/-- The key of an identity; an unknown one gets a random key and is remembered as
such. -/
def resolvePsk (identity : Bytes) : ServerM Unit := do
  let resolve ← orThrow (.fatal (.pskError .noPskResolverConfigured))
    (← get).engine.config.pskResolver
  match resolve identity with
  | some psk =>
    modify fun (s : Server) => { s with pskValid := some true }
    withEngine (withContext (modify (CryptoContext.setPsk psk)))
  | none =>
    let dummy ← withEngine (randomArr dummyPskLen)
    modify fun (s : Server) => { s with pskValid := some false }
    withEngine (withContext (modify (CryptoContext.setPsk dummy)))

/-- The premaster secret of a ClientKeyExchange. -/
def agreeOnSecret (suite : Dtls12CipherSuite) (exchange : ClientKeyExchange) (buffer : Bytes) :
    ServerM Unit := do
  if suite.isPsk then
    match exchange with
    | .psk identityRange =>
      resolvePsk (slice buffer identityRange)
      withEngine (withContext CryptoContext.computePskPreMasterSecret)
    | .ecdh _ => throw (.fatal (.unexpectedMessage .ecdheClientKeyExchangeInPskPath))
  else
    match exchange with
    | .ecdh publicKeyRange =>
      withEngine (withContext (CryptoContext.computeSharedSecret (slice buffer publicKeyRange)))
    | .psk _ => throw (.fatal (.unexpectedMessage .pskClientKeyExchangeInEcdhePath))

/-- A ClientKeyExchange: the secret is agreed on and the keys are derived. -/
def handleClientKeyExchange (exchange : ClientKeyExchange) (buffer : Bytes) : ServerM State := do
  let suite ← withEngine selectedCipherSuite
  agreeOnSecret suite exchange buffer
  modify fun (s : Server) => { s with
    capturedSessionHash := some (s.engine.transcriptHash suite.hashAlgorithm) }
  let s ← get
  let clientRandom ← orThrow (.panic .assertion) s.clientRandom
  let serverRandom ← orThrow (.panic .assertion) s.random
  let sessionHash ← orThrow (.fatal (.invalidState .extendedMasterSecretSessionHashMissing))
    s.capturedSessionHash
  withEngine (deriveSessionKeys suite sessionHash clientRandom serverRandom)
  return if s.clientCertificates.isEmpty then .awaitChangeCipherSpec else .awaitCertificateVerify

/-- `await_client_key_exchange`. -/
def awaitClientKeyExchange : ServerM State :=
  onHandshake .clientKeyExchange .awaitClientKeyExchange fun body buffer =>
    match body with
    | .clientKeyExchange exchange => handleClientKeyExchange exchange buffer
    | _ => throw (.panic .assertion)

/-- `await_certificate_verify`: over the transcript without the message itself. -/
def awaitCertificateVerify : ServerM State := do
  let data := (← get).engine.transcript
  onHandshake .certificateVerify .awaitCertificateVerify fun body buffer =>
    match body with
    | .certificateVerify signed => do
      let s ← get
      let certificate ← orThrow
        (.fatal (.certificateError .noClientCertificateForVerification)) s.clientCertificates.head?
      let signature := signed.signature buffer
      liftCrypto (CryptoContext.verifySignature s.engine.config.cryptoProvider data
        signed.algorithm signature certificate)
      logCheck (.signature certificate data signature signed.algorithm)
      return .awaitChangeCipherSpec
    | _ => throw (.panic .assertion)

/-- `await_change_cipher_spec`. -/
def awaitChangeCipherSpec : ServerM State := do
  match ← withEngine (nextRecord .changeCipherSpec) with
  | none => return .awaitChangeCipherSpec
  | some _ =>
    withEngine dropPendingCcs
    withEngine enablePeerEncryption
    return .awaitFinished

/-- The checks on a client's Finished that was equal: an identity that was not
found is refused here at the latest. -/
def acceptFinished : ServerM State := do
  let s ← get
  if (s.engine.cipherSuite.any Dtls12CipherSuite.isPsk) && s.pskValid.isNone then
    throw (.panic .assertion)
  else if s.pskValid = some false then
    throw (.fatal (.securityError .clientFinishedVerificationFailed))
  else return .sendChangeCipherSpec

/-- `await_finished`. -/
def awaitFinished : ServerM State := do
  let transcript := (← get).engine.transcript
  let expected ← withEngine (generateVerifyData true)
  onHandshake .finished .awaitFinished fun body buffer =>
    match body with
    | .finished verifyDataRange => do
      let verifyData := slice buffer verifyDataRange
      if verifyData ≠ expected then
        throw (.fatal (.securityError .clientFinishedVerificationFailed))
      else
        logCheck (.finished transcript verifyData)
        acceptFinished
    | _ => throw (.panic .assertion)

/-- `send_change_cipher_spec`. -/
def sendChangeCipherSpec : ServerM State := do
  withEngine (modify Engine.flightBegin)
  withEngine (createRecord .changeCipherSpec 0 true [1])
  return .sendFinished

/-- Emits the keying material of a negotiated profile. -/
def emitKeyingMaterial : ServerM Unit := do
  let s ← get
  match s.negotiatedSrtpProfile with
  | none => pure ()
  | some profile =>
    let suite ← orThrow (.panic .assertion) s.engine.cipherSuite
    set { s with localEvents := s.localEvents ++ keyingMaterialEvent s.engine suite profile }

/-- `send_finished`: the handshake is over. -/
def sendFinished : ServerM State := do
  withEngine (createHandshake .finished (createFinished false))
  withEngine (modify Engine.flightStopResendTimers)
  modify fun (s : Server) => { s with localEvents := s.localEvents ++ [LocalEvent.connected] }
  emitKeyingMaterial
  withEngine (modify Engine.releaseApplicationData)
  return .awaitApplicationData

/-- `await_application_data`. -/
def awaitApplicationData : ServerM State := do
  let s ← get
  if s.engine.closeNotifyReceived then
    withEngine (modify Engine.discardPendingWrites)
    withEngine (createRecord .alert 1 false closeNotifyAlert)
    return .closed
  else
    set { s with queuedData := [] }
    withEngine (sendQueued s.queuedData)
    return .awaitApplicationData

/-- `State::make_progress`. -/
def State.makeProgress : State → ServerM State
  | .awaitClientHello => Server.awaitClientHello
  | .sendServerHello => Server.sendServerHello
  | .sendCertificate => Server.sendCertificate
  | .sendServerKeyExchange => Server.sendServerKeyExchange
  | .sendCertificateRequest => Server.sendCertificateRequest
  | .sendServerHelloDone => Server.sendServerHelloDone
  | .awaitCertificate => Server.awaitCertificate
  | .awaitClientKeyExchange => Server.awaitClientKeyExchange
  | .awaitCertificateVerify => Server.awaitCertificateVerify
  | .awaitChangeCipherSpec => Server.awaitChangeCipherSpec
  | .awaitFinished => Server.awaitFinished
  | .sendChangeCipherSpec => Server.sendChangeCipherSpec
  | .sendFinished => Server.sendFinished
  | .awaitApplicationData => Server.awaitApplicationData
  | .closed => pure .closed

/-- The loop of `make_progress`. The states have an order that no transition goes
against, so the rounds are bounded. -/
def progressLoop : (fuel : Nat) → ServerM Unit
  | 0 => throw (.panic .assertion)
  | fuel + 1 => do
    let state := (← get).state
    let next ← state.makeProgress
    if next = state then pure ()
    else
      modify fun (s : Server) => { s with state := next }
      progressLoop fuel

/-- `make_progress`. -/
def makeProgress : ServerM Unit := progressLoop 20

/-- `handle_packet`. -/
def handlePacket (packet : Bytes) : ServerM Unit :=
  publicResult do
    withEngine (receivePacket packet)
    makeProgress

/-- The random of the server, drawn at the first timeout. -/
def initRandom (now : Instant) : ServerM Unit := do
  match (← get).random with
  | some _ => pure ()
  | none =>
    let random ← withEngine (newRandom now)
    modify fun (s : Server) => { s with random := some random }

/-- `handle_timeout`. -/
def handleTimeout (now : Instant) : ServerM Unit := do
  modify fun (s : Server) => { s with lastNow := now }
  initRandom now
  withEngine (Engine.handleTimeout now)
  publicResult makeProgress

/-- `poll_output`. -/
def pollOutput (bufLen : Nat) : ServerM Output := do
  let s ← get
  match s.localEvents with
  | event :: rest =>
    set { s with localEvents := rest }
    event.intoOutput bufLen s.clientCertificates
  | [] => withEngine (Engine.pollOutput bufLen s.lastNow)

/-- `send_application_data`. -/
def sendApplicationData (data : Bytes) : ServerM Unit := do
  let s ← get
  if s.state = .closed then throw (.fatal .connectionClosed)
  else if s.state ≠ .awaitApplicationData then
    set { s with queuedData := s.queuedData ++ [data] }
  else withEngine (createRecord .applicationData 1 false data)

/-- `close`. -/
def close : ServerM Unit := do
  let s ← get
  if s.state = .closed then pure ()
  else if s.state ≠ .awaitApplicationData then
    set { s with engine := s.engine.abort, state := .closed }
  else
    withEngine (createRecord .alert 1 false closeNotifyAlert)
    modify fun (s : Server) => { s with state := .closed }

end Server

end Dimpl.Dtls12
