import Dimpl.Dtls13.Endpoint

/-!
# DTLS 1.3 server

The state machine of `dtls13/server.rs`. A handler returns the next state and is
called again until the state stays the same; an error leaves the state where it
was and keeps what the handler did before.
-/

namespace Dimpl.Dtls13

open Nom

/-- The states of a server. -/
inductive Server.State where
  | awaitClientHello
  | sendServerHello
  | sendEncryptedExtensions
  | sendCertificateRequest
  | sendCertificate
  | sendCertificateVerify
  | sendFinished
  | awaitCertificate
  | awaitCertificateVerify
  | awaitFinished
  | awaitApplicationData
  | halfClosedLocal
  | closed
  deriving DecidableEq, Repr

/-- `Server`. The active key exchange of the source is never set and left out. -/
structure Server where
  state : Server.State
  endpoint : Endpoint
  clientSessionId : Option Bytes
  extensionData : Bytes
  sharedSecret : Option Bytes
  cookieSecret : Bytes
  autoMode : Bool
  retainedHello : List Bytes

/-- Programs over the server. -/
abbrev ServerM := EStateM Fault Server

/-- The most datagrams kept while the version is not decided. -/
def maxRetainedClientHello : Nat := 64

namespace Server

/-- The engine of a server. -/
def engine (s : Server) : Engine := s.endpoint.engine

/-- `Server::new_with_engine`. -/
def newWithEngine (engine : Engine) (entropy : SeededRng) (now : Instant) (autoMode : Bool) :
    Server :=
  let (cookieSecret, rng) := engine.rng.randomBytes 32
  { state := .awaitClientHello
    endpoint := Endpoint.new { engine with rng } entropy now
    clientSessionId := none
    extensionData := []
    sharedSecret := none
    cookieSecret
    autoMode
    retainedHello := [] }

/-- A program over the common fields. -/
def withEndpoint {α : Type} (program : EndpointM α) : ServerM α :=
  zoom Server.endpoint (fun endpoint s => { s with endpoint }) program

/-- A program over the engine of a server. -/
def withEngine {α : Type} (program : EngineM α) : ServerM α :=
  withEndpoint (Endpoint.withEngine program)

/-- Runs a handler on a message that was found; without one the state stays. -/
def onMessage (next : EngineM (Option (Handshake × Bytes))) (stay : State)
    (handle : Body → Bytes → ServerM State) : ServerM State := do
  match ← withEngine next with
  | none => return stay
  | some (handshake, buffer) => handle handshake.body buffer

/-- The message is dealt with. -/
def advance (next : State) : ServerM State := do
  withEngine (modify Engine.advancePeerHandshakeSeq)
  return next

/-- What a ClientHello is refused for before its extensions are read. -/
def refuseClientHello (hello : ClientHello) : Option SecurityError :=
  if hello.legacyVersion ≠ .dtls12 then some .clientHelloLegacyVersionNotDtls12
  else if !hello.legacyCompressionMethods.contains .null then
    some .clientHelloMustOfferNullCompression
  else none

/-- What the extensions of a ClientHello say. -/
structure HelloExtensions where
  versionOk : Bool
  keyShares : Option (List KeyShareEntry)
  groups : Option (List NamedGroup)
  profiles : Option (List SrtpProfile)
  cookie : Option Bytes

/-- A parsed extension, or parser noise. -/
def parseExtension {α : Type} (parser : Parser α) (data : Bytes) : Except Fault α :=
  match Nom.parse parser data with
  | .ok (value, _) => .ok value
  | .error err => .error (Fault.ofNom err)

/-- One extension of a ClientHello. The signature algorithms are read and not used;
a cookie is at most 32 bytes. -/
def readExtension (buffer : Bytes) (found : HelloExtensions) (ext : Extension) :
    Except Fault HelloExtensions := do
  let data := ext.extensionData buffer
  if ext.extensionType = .supportedVersions then
    let versions ← parseExtension parseSupportedVersionsClientHello data
    return { found with versionOk := found.versionOk || versions.contains .dtls13 }
  else if ext.extensionType = .keyShare then
    let shares ← parseExtension (parseKeyShareClientHello ext.extensionDataRange.start) data
    return { found with keyShares := some shares }
  else if ext.extensionType = .supportedGroups then
    let groups ← parseExtension parseSupportedGroups data
    return { found with groups := some groups }
  else if ext.extensionType = .useSrtp then
    let useSrtp ← parseExtension UseSrtpExtension.parse data
    return { found with profiles := some useSrtp.profiles }
  else if ext.extensionType = .cookie then
    let cookie ← parseExtension parseCookieExtension data
    if cookie.length > 32 then throw (.fatal (.securityError .invalidCookieInClientHello))
    else return { found with cookie := some cookie }
  else return found

/-- The loop over the extensions of a ClientHello. -/
def readExtensions (buffer : Bytes) (extensions : List Extension) : Except Fault HelloExtensions :=
  extensions.foldlM (readExtension buffer)
    { versionOk := false, keyShares := none, groups := none, profiles := none, cookie := none }

/-- A result without state. -/
def ofExcept {α : Type} : Except Fault α → ServerM α
  | .ok value => pure value
  | .error fault => throw fault

/-- `compute_cookie`: the HMAC of the client's random under the cookie secret. -/
def computeCookie (random : Random) : ServerM Bytes := do
  let s ← get
  match s.engine.config.cryptoProvider.hmac .sha256 s.cookieSecret random.bytes with
  | .ok cookie => return cookie
  | .error _ => throw (.panic .assertion)

/-- Whether the cookie rules are met: a cookie has to be right, and one is missing
only where it is asked for. -/
def checkCookie (random : Random) (cookie : Option Bytes) : ServerM Bool := do
  if (← get).engine.config.useServerCookie || cookie.isSome then
    let expected ← computeCookie random
    match cookie with
    | some cookie =>
      if cookie ≠ expected then throw (.fatal (.securityError .invalidCookieInClientHello))
      else return true
    | none => return false
  else return true

/-- The body of a HelloRetryRequest, a ServerHello with a fixed random. -/
def helloRetryRequest (sessionId : Bytes) (suite : Dtls13CipherSuite) (cookie : Bytes)
    (group : Option NamedGroup) : Bytes :=
  let (extensions, extensionData) := Extension.layout
    ([(.supportedVersions, ProtocolVersion.dtls13.serialize)] ++
      (group.toList.map fun group => (.keyShare, be16 group.asU16)) ++
      [(.cookie, be16 cookie.length ++ cookie)])
  let hello : ServerHello :=
    { legacyVersion := .dtls12, random := ⟨hrrRandom⟩, legacySessionId := sessionId
      cipherSuite := suite, legacyCompressionMethod := .null, extensions := some extensions }
  hello.serialize extensionData

/-- `send_hello_retry_request`. -/
def sendHelloRetryRequest (suite : Dtls13CipherSuite) (cookie : Bytes) (group : Option NamedGroup) :
    ServerM Unit := do
  let sessionId := (← get).clientSessionId.getD []
  withEngine (modify Engine.flightBegin)
  withEngine (createHandshake .serverHello
    (pure (helloRetryRequest sessionId suite cookie group)))

/-- Asks the client for another hello: the first one is replaced by its hash before
the request is added to the transcript. -/
def retryHello (suite : Dtls13CipherSuite) (random : Random) (group : Option NamedGroup) :
    ServerM State := do
  withEngine (modify (Engine.setCipherSuite suite))
  let length := (← get).engine.transcript.length
  withEngine (replaceTranscriptWithMessageHash length)
  let cookie ← computeCookie random
  sendHelloRetryRequest suite cookie group
  withEngine (modify Engine.advancePeerHandshakeSeq)
  withEngine (modify Engine.resetForHelloRetry)
  withEndpoint (modify fun (p : Endpoint) => { p with helloRetry := true })
  return .awaitClientHello

/-- The key exchange with the share of the client. The own key and group wait in
`extension_data` for the ServerHello: the key, the group and where the key is. -/
def acceptShare (suite : Dtls13CipherSuite) (share : KeyShareEntry)
    (profiles : Option (List SrtpProfile)) (buffer : Bytes) : ServerM State := do
  let kx ← orThrow (Fault.ofCrypto (.keyExchangeGroupNotFound share.group))
    ((← get).engine.findKxGroup share.group)
  let exchange ← withEndpoint (Endpoint.startExchange kx)
  modify fun (s : Server) => { s with extensionData := exchange.pubKey }
  let sharedSecret ← liftCrypto (exchange.complete (share.keyExchange buffer))
  modify fun (s : Server) => { s with
    sharedSecret := some sharedSecret
    endpoint := { s.endpoint with
      negotiatedSrtpProfile := (profiles.bind List.head?).or s.endpoint.negotiatedSrtpProfile } }
  withEngine (modify (Engine.setCipherSuite suite))
  modify fun (s : Server) => { s with
    extensionData := exchange.pubKey ++ be16 share.group.asU16 ++ be32 0 ++
      be32 exchange.pubKey.length }
  advance .sendServerHello

/-- The share of a client: one of a configured group, or a retry for a group both
sides have. -/
def selectShare (suite : Dtls13CipherSuite) (random : Random) (groups : List NamedGroup)
    (found : HelloExtensions) (buffer : Bytes) : ServerM State := do
  match (found.keyShares.getD []).find? fun share => groups.contains share.group with
  | some share => acceptShare suite share found.profiles buffer
  | none =>
    match groups.find? fun group => (found.groups.getD []).contains group with
    | none => throw (.fatal (.securityError .noCommonKeyExchangeGroup))
    | some group =>
      if (← get).endpoint.helloRetry then
        throw (.fatal (.securityError .cannotSendSecondHelloRetryRequest))
      else retryHello suite random (some group)

/-- The group a retry for a cookie also asks for: none when a share is there. -/
def retryGroup (groups : List NamedGroup) (found : HelloExtensions) : Option NamedGroup :=
  if (found.keyShares.getD []).any fun share => groups.contains share.group then none
  else groups.find? fun group => (found.groups.getD []).contains group

/-- A ClientHello of DTLS 1.3. One without a cookie after a retry is an old copy and
dropped with what it added to the transcript. -/
def acceptClientHello (lengthBefore : Nat) (hello : ClientHello) (found : HelloExtensions)
    (buffer : Bytes) : ServerM State := do
  let e := (← get).engine
  let suite ← orThrow (.fatal (.securityError .noCommonCipherSuite))
    (hello.cipherSuites.find? e.isCipherSuiteAllowed)
  modify fun (s : Server) => { s with clientSessionId := some hello.legacySessionId }
  let groups ← withEngine (supportedGroups e.config)
  if ← checkCookie hello.random found.cookie then
    selectShare suite hello.random groups found buffer
  else if (← get).endpoint.helloRetry then
    withEngine (modify (Engine.truncateTranscript lengthBefore))
    return .awaitClientHello
  else retryHello suite hello.random (retryGroup groups found)

/-- A ClientHello. -/
def handleClientHello (lengthBefore : Nat) (hello : ClientHello) (buffer : Bytes) :
    ServerM State := do
  match refuseClientHello hello with
  | some reason => throw (.fatal (.securityError reason))
  | none =>
    let found ← ofExcept (readExtensions buffer hello.extensions)
    if !found.versionOk then
      if (← get).autoMode then throw (.fatal .dtls12Fallback)
      else throw (.fatal (.securityError .clientHelloMissingDtls13SupportedVersions))
    else acceptClientHello lengthBefore hello found buffer

/-- `await_client_hello`. -/
def awaitClientHello : ServerM State := do
  let s ← get
  let next := if s.autoMode then nextClientHelloForAutoSense else nextHandshake .clientHello
  onMessage next .awaitClientHello fun body buffer =>
    match body with
    | .clientHello hello => handleClientHello s.engine.transcript.length hello buffer
    | _ => throw (.panic .assertion)

/-- The key share that waits in `extension_data`: the group, where the key is, and
the data in front of the ten bytes that say so. -/
def storedShare (data : Bytes) : Option (KeyShareEntry × Bytes) :=
  if data.length < 10 then none
  else
    let metaStart := data.length - 10
    let stored := data.drop metaStart
    some (⟨⟨beValue (stored.take 2)⟩,
      ⟨beValue ((stored.drop 2).take 4), beValue ((stored.drop 6).take 4)⟩⟩, data.take metaStart)

/-- `handshake_create_server_hello`. -/
def createServerHello (random : Random) (sessionId : Bytes) (share : KeyShareEntry)
    (extensionData : Bytes) : EngineM Bytes := do
  let suite ← orThrow (.panic .assertion) (← get).cipherSuite
  let range := share.keyExchangeRange
  if range.stop < range.start ∨ extensionData.length < range.stop then
    throw (.panic .assertion)
  else
    let (extensions, buffer) := Extension.layout
      [(.supportedVersions, ProtocolVersion.dtls13.serialize),
       (.keyShare, share.serialize extensionData)]
    let hello : ServerHello :=
      { legacyVersion := .dtls12, random, legacySessionId := sessionId, cipherSuite := suite
        legacyCompressionMethod := .null, extensions := some extensions }
    return hello.serialize buffer

/-- `send_server_hello`. -/
def sendServerHello : ServerM State := do
  let s ← get
  let random ← orThrow (.panic .assertion) s.endpoint.random
  let (share, extensionData) ← orThrow (.panic .assertion) (storedShare s.extensionData)
  set { s with extensionData }
  withEngine (modify Engine.flightBegin)
  withEngine (createHandshake .serverHello
    (createServerHello random (s.clientSessionId.getD []) share extensionData))
  let sharedSecret ← orThrow (.fatal (.invalidState .noSharedSecretForHandshakeKeyDerivation))
    (← get).sharedSecret
  modify fun (s : Server) => { s with sharedSecret := none }
  withEndpoint (Endpoint.installHandshakeSecrets sharedSecret)
  return .sendEncryptedExtensions

/-- The body of a message that is an extension list. -/
def extensionList (parts : List (ExtensionType × Bytes)) : Bytes :=
  let (extensions, buffer) := Extension.layout parts
  Extension.serializeAll extensions buffer

/-- `handshake_create_encrypted_extensions`. -/
def createEncryptedExtensions (profile : Option SrtpProfile) : Bytes :=
  extensionList (profile.toList.map fun profile =>
    (.useSrtp, UseSrtpExtension.serialize ⟨[profile], []⟩))

/-- `send_encrypted_extensions`. -/
def sendEncryptedExtensions : ServerM State := do
  let profile := (← get).endpoint.negotiatedSrtpProfile
  withEngine (createHandshake .encryptedExtensions (pure (createEncryptedExtensions profile)))
  return if (← get).engine.config.requireClientCertificate then .sendCertificateRequest
    else .sendCertificate

/-- `handshake_create_certificate_request`: an empty context, the signature
algorithms and an empty list of authorities. -/
def createCertificateRequest : Bytes :=
  0 :: extensionList
    [(.signatureAlgorithms, serializeSignatureAlgorithms SignatureScheme.supported),
     (.certificateAuthorities, be16 0)]

/-- `send_certificate_request`. -/
def sendCertificateRequest : ServerM State := do
  withEngine (createHandshake .certificateRequest (pure createCertificateRequest))
  withEndpoint (modify fun (p : Endpoint) => { p with clientAuthRequested := true })
  return .sendCertificate

/-- `send_certificate`. -/
def sendCertificate : ServerM State := do
  withEngine (createHandshake .certificate (createCertificate []))
  return .sendCertificateVerify

/-- `send_certificate_verify`. -/
def sendCertificateVerify : ServerM State := do
  withEngine (createHandshake .certificateVerify (createCertificateVerify serverLabel))
  return .sendFinished

/-- `send_finished`. -/
def sendFinished : ServerM State := do
  let secret ← orThrow (.fatal (.invalidState .noServerHandshakeTrafficSecretForFinished))
    (← get).endpoint.serverHsTrafficSecret
  withEngine (createHandshake .finished (computeVerifyData secret))
  withEndpoint Endpoint.installApplicationSecrets
  withEngine enablePeerEncryption
  return if (← get).endpoint.clientAuthRequested then .awaitCertificate else .awaitFinished

/-- `await_certificate`: an empty list is accepted. The timers stop, since the
server's flight has arrived. -/
def awaitCertificate : ServerM State :=
  onMessage (nextHandshake .certificate) .awaitCertificate fun body buffer =>
    match body with
    | .certificate certificate => do
      if certificate.certificateList.isEmpty then
        withEngine (modify Engine.advancePeerHandshakeSeq)
        withEngine (modify Engine.flightStopResendTimers)
        return .awaitFinished
      else
        withEndpoint (Endpoint.takeCertificates certificate buffer)
        withEngine (modify Engine.flightStopResendTimers)
        advance .awaitCertificateVerify
    | _ => throw (.panic .assertion)

/-- `await_certificate_verify`: the hash is over the transcript without the
message. -/
def awaitCertificateVerify : ServerM State := do
  let transcript := (← get).engine.transcript
  let transcriptHash ← withEngine transcriptHash
  onMessage (nextHandshake .certificateVerify) .awaitCertificateVerify fun body buffer =>
    match body with
    | .certificateVerify signed => do
      withEndpoint (Endpoint.checkCertificateVerify clientLabel .noClientCertificateForVerification
        transcript transcriptHash signed buffer)
      return .awaitFinished
    | _ => throw (.panic .assertion)

/-- `await_finished`: the expected value is over the transcript without the
Finished. -/
def awaitFinished : ServerM State := do
  let transcript := (← get).engine.transcript
  let secret ← orThrow (.fatal (.invalidState .noClientHandshakeTrafficSecret))
    (← get).endpoint.clientHsTrafficSecret
  let expected ← withEngine (computeVerifyData secret)
  onMessage (nextHandshake .finished) .awaitFinished fun body buffer =>
    match body with
    | .finished verifyDataRange => do
      withEndpoint (Endpoint.checkFinished .clientFinishedVerificationFailed transcript expected
        (slice buffer verifyDataRange))
      withEngine sendAck
      withEngine (modify Engine.flightStopResendTimers)
      withEndpoint Endpoint.completeHandshake
      return .awaitApplicationData
    | _ => throw (.panic .assertion)

/-- `await_application_data`. -/
def awaitApplicationData : ServerM State := do
  withEndpoint Endpoint.awaitApplicationData
  return .awaitApplicationData

/-- `half_closed_local`. -/
def halfClosedLocal : ServerM State := do
  return if ← withEndpoint Endpoint.halfClosedLocal then .closed else .halfClosedLocal

/-- `State::make_progress`. -/
def State.makeProgress : State → ServerM State
  | .awaitClientHello => Server.awaitClientHello
  | .sendServerHello => Server.sendServerHello
  | .sendEncryptedExtensions => Server.sendEncryptedExtensions
  | .sendCertificateRequest => Server.sendCertificateRequest
  | .sendCertificate => Server.sendCertificate
  | .sendCertificateVerify => Server.sendCertificateVerify
  | .sendFinished => Server.sendFinished
  | .awaitCertificate => Server.awaitCertificate
  | .awaitCertificateVerify => Server.awaitCertificateVerify
  | .awaitFinished => Server.awaitFinished
  | .awaitApplicationData => Server.awaitApplicationData
  | .halfClosedLocal => Server.halfClosedLocal
  | .closed => pure .closed

/-- The loop of `make_progress`. The states have an order, so the rounds are
bounded. -/
def progressLoop : (fuel : Nat) → ServerM Unit
  | 0 => throw (.panic .assertion)
  | fuel + 1 => do
    let state := (← get).state
    let next ← state.makeProgress
    if next = state then pure ()
    else
      modify fun (s : Server) => { s with state := next }
      progressLoop fuel

/-- `make_progress`. -/
def makeProgress : ServerM Unit := progressLoop 20

/-- Keeps the datagrams of an undecided server for the DTLS 1.2 server it may
become. -/
def retainHello (packet : Bytes) : ServerM Unit := do
  let s ← get
  if s.autoMode && s.state = .awaitClientHello then
    if s.retainedHello.length ≥ maxRetainedClientHello then
      throw (.fatal .tooManyClientHelloFragments)
    else set { s with retainedHello := s.retainedHello ++ [packet] }
  else pure ()

/-- Behind the ClientHello the version is decided. -/
def commitVersion (s : Server) : Server :=
  if s.autoMode && s.state ≠ .awaitClientHello then { s with retainedHello := [], autoMode := false }
  else s

/-- `handle_packet`. -/
def handlePacket (packet : Bytes) : ServerM Unit := do
  retainHello packet
  publicResult do
    withEngine (receivePacket packet)
    makeProgress
    modify commitVersion

/-- `handle_timeout`. -/
def handleTimeout (now : Instant) : ServerM Unit := do
  withEndpoint (Endpoint.handleTimeout now)
  publicResult makeProgress

/-- `poll_output`. -/
def pollOutput (bufLen : Nat) : ServerM Output := withEndpoint (Endpoint.pollOutput bufLen)

/-- `send_application_data`. -/
def sendApplicationData (data : Bytes) : ServerM Unit := do
  let s ← get
  if s.state = .closed ∨ s.state = .halfClosedLocal then throw (.fatal .connectionClosed)
  else if s.state ≠ .awaitApplicationData then withEndpoint (Endpoint.queueData data)
  else withEndpoint (Endpoint.sendData data)

/-- `close`. -/
def close : ServerM Unit := do
  let s ← get
  if s.state = .closed ∨ s.state = .halfClosedLocal then pure ()
  else if s.state ≠ .awaitApplicationData then
    withEngine (modify Engine.abort)
    modify fun (s : Server) => { s with state := .closed }
  else
    withEndpoint Endpoint.closeWrite
    modify fun (s : Server) => { s with state := .halfClosedLocal }

end Server

end Dimpl.Dtls13
