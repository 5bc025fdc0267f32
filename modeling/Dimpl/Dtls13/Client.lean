import Dimpl.Dtls13.Endpoint

/-!
# DTLS 1.3 client

The state machine of `dtls13/client.rs`. A handler returns the next state and is
called again until the state stays the same; an error leaves the state where it
was and keeps what the handler did before.
-/

namespace Dimpl.Dtls13

open Nom

/-- The states of a client. -/
inductive Client.State where
  | sendClientHello
  | awaitServerHello
  | awaitEncryptedExtensions
  | awaitCertificateRequest
  | awaitCertificate
  | awaitCertificateVerify
  | awaitFinished
  | sendCertificate
  | sendCertificateVerify
  | sendFinished
  | awaitApplicationData
  | halfClosedLocal
  | closed
  deriving DecidableEq, Repr

/-- `Client`. -/
structure Client where
  state : Client.State
  endpoint : Endpoint
  sessionId : Option Bytes
  certRequestContext : Option Bytes
  savedCookie : Option Bytes
  activeKeyExchange : Option ActiveKeyExchange
  hrrSelectedGroup : Option NamedGroup

/-- Programs over the client. -/
abbrev ClientM := EStateM Fault Client

namespace Client

/-- The engine of a client. -/
def engine (c : Client) : Engine := c.endpoint.engine

/-- `Client::new_with_engine`. -/
def newWithEngine (engine : Engine) (entropy : SeededRng) (now : Instant) : Client where
  state := .sendClientHello
  endpoint := Endpoint.new (engine.setClient true) entropy now
  sessionId := none
  certRequestContext := none
  savedCookie := none
  activeKeyExchange := none
  hrrSelectedGroup := none

/-- `Client::new_from_hybrid` up to its call of `handle_timeout`: the first hello
was sent outside of the engine. -/
def newFromHybrid (random : Random) (transcriptBytes : Bytes) (exchange : ActiveKeyExchange)
    (engine : Engine) (entropy : SeededRng) (now : Instant) : Client :=
  let client := newWithEngine (engine.injectHybridClientHello transcriptBytes) entropy now
  { client with
    state := .awaitServerHello
    endpoint := { client.endpoint with random := some random }
    activeKeyExchange := some exchange }

/-- A program over the common fields. -/
def withEndpoint {α : Type} (program : EndpointM α) : ClientM α :=
  zoom Client.endpoint (fun endpoint c => { c with endpoint }) program

/-- A program over the engine of a client. -/
def withEngine {α : Type} (program : EngineM α) : ClientM α :=
  withEndpoint (Endpoint.withEngine program)

/-- `next_handshake` for the wanted message; without it the state stays. -/
def onHandshake (wanted : MessageType) (stay : State) (handle : Body → Bytes → ClientM State) :
    ClientM State := do
  match ← withEngine (nextHandshake wanted) with
  | none => return stay
  | some (handshake, buffer) => handle handshake.body buffer

/-- The message is dealt with. -/
def advance (next : State) : ClientM State := do
  withEngine (modify Engine.advancePeerHandshakeSeq)
  return next

/-- The extensions of a ClientHello before the padding. -/
def clientHelloExtensions (groups : List NamedGroup) (group : NamedGroup) (publicKey : Bytes)
    (cookie : Option Bytes) : List (ExtensionType × Bytes) :=
  [(.supportedVersions, serializeSupportedVersionsClientHello [.dtls13]),
   (.supportedGroups, serializeSupportedGroups groups),
   (.keyShare, serializeKeyShareClientHello [⟨group, ⟨0, publicKey.length⟩⟩] publicKey),
   (.signatureAlgorithms, serializeSignatureAlgorithms SignatureScheme.supported),
   (.useSrtp, UseSrtpExtension.default.serialize)] ++
    cookie.toList.map fun cookie => (.cookie, cookie)

/-- The padding that fills a ClientHello up to the MTU, when an extension fits. -/
def paddingExtension (mtu suites : Nat) (parts : List (ExtensionType × Bytes)) :
    List (ExtensionType × Bytes) :=
  let bodyWithoutPadding := 2 + 32 + 1 + 1 + 2 + suites * 2 + 1 + 1 + 2 + parts.length * 4 +
    (parts.map fun part => part.2.length).sum
  let deficit := mtu - (13 + 12 + bodyWithoutPadding)
  if deficit ≥ 4 then [(.padding, List.replicate (deficit - 4) 0)] else []

/-- `handshake_create_client_hello`. -/
def createClientHello (random : Random) (group : NamedGroup) (publicKey : Bytes)
    (cookie : Option Bytes) : EngineM Bytes := do
  let e ← get
  let cipherSuites := (e.config.dtls13CipherSuites.map SupportedDtls13CipherSuite.suite).take 3
  let groups ← supportedGroups e.config
  let parts := clientHelloExtensions groups group publicKey cookie
  let (extensions, extensionData) :=
    Extension.layout (parts ++ paddingExtension e.config.mtu cipherSuites.length parts)
  let hello : ClientHello :=
    { legacyVersion := .dtls12, random, legacySessionId := [], legacyCookie := [], cipherSuites
      legacyCompressionMethods := [.null], extensions }
  return hello.serialize extensionData

/-- The group of the key share: the one a HelloRetryRequest selected or else the
first one configured. -/
def keyShareGroup : ClientM NamedGroup := do
  let c ← get
  match c.hrrSelectedGroup with
  | some group => return group
  | none =>
    orThrow (Fault.ofCrypto .noSupportedKeyExchangeGroups)
      (c.engine.config.kxGroups.head?.map SupportedKxGroup.name)

/-- `send_client_hello`. -/
def sendClientHello : ClientM State := do
  let random ← orThrow (.panic .assertion) (← get).endpoint.random
  withEngine (modify Engine.flightBegin)
  let group ← keyShareGroup
  let kx ← orThrow (Fault.ofCrypto (.keyExchangeGroupNotFound group))
    ((← get).engine.findKxGroup group)
  let exchange ← withEndpoint (Endpoint.startExchange kx)
  modify fun (c : Client) => { c with activeKeyExchange := some exchange }
  let cookie := (← get).savedCookie
  withEngine (createHandshake .clientHello
    (createClientHello random group exchange.pubKey cookie))
  return .awaitServerHello

/-- The group a HelloRetryRequest selects, if its extension parses. -/
def selectedGroup (data : Bytes) : Option NamedGroup :=
  match Nom.parse parseKeyShareHelloRetryRequest data with
  | .ok (group, _) => some group
  | .error _ => none

/-- The loop over the extensions of a HelloRetryRequest: the selected group and the
cookie. A cookie that does not parse is parser noise. -/
def readRetryExtensions (buffer : Bytes) : List Extension → ClientM Unit
  | [] => pure ()
  | ext :: rest => do
    let data := ext.extensionData buffer
    if ext.extensionType = .keyShare then
      modify fun (c : Client) => { c with
        hrrSelectedGroup := (selectedGroup data).or c.hrrSelectedGroup }
      readRetryExtensions buffer rest
    else if ext.extensionType = .cookie then
      match Nom.parse parseCookieExtension data with
      | .error err => throw (Fault.ofNom err)
      | .ok _ =>
        modify fun (c : Client) => { c with savedCookie := some data }
        readRetryExtensions buffer rest
    else readRetryExtensions buffer rest

/-- Whether the last `supported_versions` that parses selects DTLS 1.3. -/
def retryVersionOk (buffer : Bytes) (extensions : List Extension) : Bool :=
  extensions.foldl (fun ok ext =>
    if ext.extensionType = .supportedVersions then
      match Nom.parse parseSupportedVersionsServerHello (ext.extensionData buffer) with
      | .ok (version, _) => version = .dtls13
      | .error _ => ok
    else ok) false

/-- A HelloRetryRequest. The transcript before it, the first hello, is replaced by
its hash; a repeated one is dropped with what it added to the transcript. -/
def handleHelloRetryRequest (lengthBefore : Nat) (hello : ServerHello) (buffer : Bytes) :
    ClientM State := do
  if (← get).endpoint.helloRetry then
    withEngine (modify (Engine.truncateTranscript lengthBefore))
    return .awaitServerHello
  else
    let extensions := hello.extensions.getD []
    readRetryExtensions buffer extensions
    if !(← get).engine.isCipherSuiteAllowed hello.cipherSuite then
      throw (.fatal (.securityError .hrrSelectedDisallowedCipherSuite))
    else
      withEngine (modify (Engine.setCipherSuite hello.cipherSuite))
      if !retryVersionOk buffer extensions then
        throw (.fatal (.securityError .hrrDidNotSelectDtls13))
      else
        withEngine (replaceTranscriptWithMessageHash lengthBefore)
        withEngine (modify Engine.advancePeerHandshakeSeq)
        withEngine (modify Engine.resetForHelloRetry)
        modify fun (c : Client) => { c with
          endpoint := { c.endpoint with helloRetry := true }
          activeKeyExchange := none }
        return .sendClientHello

/-- What a ServerHello is refused for before anything of it is kept. -/
def refuseServerHello (e : Engine) (hello : ServerHello) : Option SecurityError :=
  if hello.legacyVersion ≠ .dtls12 then some .serverHelloLegacyVersionNotDtls12
  else if hello.legacyCompressionMethod ≠ .null then some .serverHelloCompressionMustBeNull
  else if hello.cipherSuite.isUnknown then some .serverSelectedUnknownCipherSuite
  else if !e.isCipherSuiteAllowed hello.cipherSuite then
    some (.serverSelectedDisallowedDtls13CipherSuite hello.cipherSuite)
  else none

/-- What the extensions of a ServerHello say: whether DTLS 1.3 is selected, and the
group and key of the server. What does not parse is ignored. -/
def readServerExtensions (buffer : Bytes) :
    List Extension → Bool × Option (NamedGroup × Bytes) → Bool × Option (NamedGroup × Bytes)
  | [], found => found
  | ext :: rest, (versionOk, share) =>
    let data := ext.extensionData buffer
    if ext.extensionType = .supportedVersions then
      match Nom.parse parseSupportedVersionsServerHello data with
      | .ok (version, _) => readServerExtensions buffer rest (versionOk || version = .dtls13, share)
      | .error _ => readServerExtensions buffer rest (versionOk, share)
    else if ext.extensionType = .keyShare then
      match Nom.parse (parseKeyShareServerHello 0) data with
      | .ok (entry, _) =>
        readServerExtensions buffer rest (versionOk, some (entry.group, entry.keyExchange data))
      | .error _ => readServerExtensions buffer rest (versionOk, share)
    else readServerExtensions buffer rest (versionOk, share)

/-- The key exchange with the share of the server; the active exchange is used up. -/
def completeExchange (group : NamedGroup) (publicKey : Bytes) : ClientM Bytes := do
  let c ← get
  let exchange ← orThrow (.fatal (.invalidState .noActiveKeyExchange)) c.activeKeyExchange
  set { c with activeKeyExchange := none }
  if exchange.group ≠ group then
    throw (.fatal (.securityError (.serverKeyShareGroupMismatch exchange.group group)))
  else liftCrypto (exchange.complete publicKey)

/-- A ServerHello that is no HelloRetryRequest. -/
def handleServerHello (hello : ServerHello) (buffer : Bytes) : ClientM State := do
  match refuseServerHello (← get).engine hello with
  | some reason => throw (.fatal (.securityError reason))
  | none =>
    withEngine (modify (Engine.setCipherSuite hello.cipherSuite))
    modify fun (c : Client) => { c with sessionId := some hello.legacySessionId }
    match hello.extensions with
    | none => throw (.fatal .incompleteServerHello)
    | some extensions =>
      match readServerExtensions buffer extensions (false, none) with
      | (false, _) => throw (.fatal (.securityError .serverDidNotNegotiateDtls13))
      | (true, none) => throw (.fatal (.securityError .serverMissingKeyShare))
      | (true, some (group, publicKey)) =>
        let sharedSecret ← completeExchange group publicKey
        withEndpoint (Endpoint.installHandshakeSecrets sharedSecret)
        withEngine enablePeerEncryption
        advance .awaitEncryptedExtensions

/-- `await_server_hello`. -/
def awaitServerHello : ClientM State := do
  let lengthBefore := (← get).engine.transcript.length
  onHandshake .serverHello .awaitServerHello fun body buffer =>
    match body with
    | .serverHello hello =>
      if hello.isHelloRetryRequest then handleHelloRetryRequest lengthBefore hello buffer
      else handleServerHello hello buffer
    | _ => throw (.panic .assertion)

/-- The loop over the encrypted extensions: the SRTP profile. -/
def readEncryptedExtensions (buffer : Bytes) : List Extension → ClientM Unit
  | [] => pure ()
  | ext :: rest => do
    if ext.extensionType = .useSrtp then
      match Nom.parse UseSrtpExtension.parse (ext.extensionData buffer) with
      | .error err => throw (Fault.ofNom err)
      | .ok (useSrtp, _) =>
        withEndpoint (modify fun (p : Endpoint) => { p with
          negotiatedSrtpProfile := useSrtp.profiles.head?.or p.negotiatedSrtpProfile })
        readEncryptedExtensions buffer rest
    else readEncryptedExtensions buffer rest

/-- `await_encrypted_extensions`. -/
def awaitEncryptedExtensions : ClientM State :=
  onHandshake .encryptedExtensions .awaitEncryptedExtensions fun body buffer =>
    match body with
    | .encryptedExtensions extensions => do
      readEncryptedExtensions buffer extensions
      advance .awaitCertificateRequest
    | _ => throw (.panic .assertion)

/-- `parse_certificate_request`: the context, if there is one. The extensions only
have to fit; they are walked through and nothing of them is kept. -/
def parseCertificateRequest (data : Bytes) : Except UnexpectedMessageError (Option Bytes) :=
  match data with
  | [] => .ok none
  | contextLen :: rest =>
    let contextLen := contextLen.toNat
    if rest.length < contextLen then .error .certificateRequestContextTruncated
    else
      let context := if contextLen = 0 then none else some (rest.take contextLen)
      let extensions := rest.drop contextLen
      if extensions.length < 2 then .ok context
      else if extensions.length - 2 < beValue (extensions.take 2) then
        .error .certificateRequestExtensionsTruncated
      else .ok context

/-- `await_certificate_request`: the message is optional. -/
def awaitCertificateRequest : ClientM State := do
  if (← get).engine.hasCompleteHandshake .certificate then
    return .awaitCertificate
  else
    onHandshake .certificateRequest .awaitCertificateRequest fun body buffer =>
      match body with
      | .certificateRequest range =>
        match parseCertificateRequest (slice buffer range) with
        | .error reason => throw (.fatal (.unexpectedMessage reason))
        | .ok context => do
          modify fun (c : Client) => { c with
            certRequestContext := context.or c.certRequestContext
            endpoint := { c.endpoint with clientAuthRequested := true } }
          advance .awaitCertificate
      | _ => throw (.panic .assertion)

/-- `await_certificate`. -/
def awaitCertificate : ClientM State :=
  onHandshake .certificate .awaitCertificate fun body buffer =>
    match body with
    | .certificate certificate => do
      if certificate.contextRange.start < certificate.contextRange.stop then
        throw (.fatal (.certificateError .serverCertificateContextMustBeEmpty))
      else if certificate.certificateList.isEmpty then
        throw (.fatal (.certificateError .noServerCertificateReceived))
      else
        withEndpoint (Endpoint.takeCertificates certificate buffer)
        advance .awaitCertificateVerify
    | _ => throw (.panic .assertion)

/-- `await_certificate_verify`: the hash is over the transcript without the
message. -/
def awaitCertificateVerify : ClientM State := do
  let transcript := (← get).engine.transcript
  let transcriptHash ← withEngine transcriptHash
  onHandshake .certificateVerify .awaitCertificateVerify fun body buffer =>
    match body with
    | .certificateVerify signed => do
      withEndpoint (Endpoint.checkCertificateVerify serverLabel .noServerCertificateForVerification
        transcript transcriptHash signed buffer)
      return .awaitFinished
    | _ => throw (.panic .assertion)

/-- `await_finished`: the expected value is over the transcript without the
Finished. -/
def awaitFinished : ClientM State := do
  let transcript := (← get).engine.transcript
  let secret ← orThrow (.fatal (.invalidState .noServerHandshakeTrafficSecret))
    (← get).endpoint.serverHsTrafficSecret
  let expected ← withEngine (computeVerifyData secret)
  onHandshake .finished .awaitFinished fun body buffer =>
    match body with
    | .finished verifyDataRange => do
      withEndpoint (Endpoint.checkFinished .serverFinishedVerificationFailed transcript expected
        (slice buffer verifyDataRange))
      withEndpoint Endpoint.installApplicationSecrets
      return if (← get).endpoint.clientAuthRequested then .sendCertificate else .sendFinished
    | _ => throw (.panic .assertion)

/-- `send_certificate`: an empty list when there is no certificate. -/
def sendCertificate : ClientM State := do
  withEngine (modify Engine.flightBegin)
  let context := (← get).certRequestContext.getD []
  if (← get).engine.certificate.certificate.isEmpty then
    withEngine (createHandshake .certificate
      (pure (UInt8.ofNat context.length :: context ++ [0, 0, 0])))
    return .sendFinished
  else
    withEngine (createHandshake .certificate (createCertificate context))
    return .sendCertificateVerify

/-- `send_certificate_verify`. -/
def sendCertificateVerify : ClientM State := do
  withEngine (createHandshake .certificateVerify (createCertificateVerify clientLabel))
  return .sendFinished

/-- `send_finished`. The flight timer keeps running until the flight is
acknowledged. -/
def sendFinished : ClientM State := do
  withEngine (runIf (!(← get).endpoint.clientAuthRequested) (modify Engine.flightBegin))
  let secret ← orThrow (.fatal (.invalidState .noClientHandshakeTrafficSecretForFinished))
    (← get).endpoint.clientHsTrafficSecret
  withEngine (createHandshake .finished (computeVerifyData secret))
  withEndpoint Endpoint.completeHandshake
  return .awaitApplicationData

/-- `await_application_data`. -/
def awaitApplicationData : ClientM State := do
  withEndpoint Endpoint.awaitApplicationData
  return .awaitApplicationData

/-- `half_closed_local`. -/
def halfClosedLocal : ClientM State := do
  return if ← withEndpoint Endpoint.halfClosedLocal then .closed else .halfClosedLocal

/-- `State::make_progress`. -/
def State.makeProgress : State → ClientM State
  | .sendClientHello => Client.sendClientHello
  | .awaitServerHello => Client.awaitServerHello
  | .awaitEncryptedExtensions => Client.awaitEncryptedExtensions
  | .awaitCertificateRequest => Client.awaitCertificateRequest
  | .awaitCertificate => Client.awaitCertificate
  | .awaitCertificateVerify => Client.awaitCertificateVerify
  | .awaitFinished => Client.awaitFinished
  | .sendCertificate => Client.sendCertificate
  | .sendCertificateVerify => Client.sendCertificateVerify
  | .sendFinished => Client.sendFinished
  | .awaitApplicationData => Client.awaitApplicationData
  | .halfClosedLocal => Client.halfClosedLocal
  | .closed => pure .closed

/-- The loop of `make_progress`. The states have an order that only the first
HelloRetryRequest goes against, so the rounds are bounded. -/
def progressLoop : (fuel : Nat) → ClientM Unit
  | 0 => throw (.panic .assertion)
  | fuel + 1 => do
    let state := (← get).state
    let next ← state.makeProgress
    if next = state then pure ()
    else
      modify fun (c : Client) => { c with state := next }
      progressLoop fuel

/-- `make_progress`. -/
def makeProgress : ClientM Unit := progressLoop 20

/-- `handle_packet`. -/
def handlePacket (packet : Bytes) : ClientM Unit :=
  publicResult do
    withEngine (receivePacket packet)
    makeProgress

/-- `handle_timeout`. -/
def handleTimeout (now : Instant) : ClientM Unit := do
  withEndpoint (Endpoint.handleTimeout now)
  publicResult makeProgress

/-- `poll_output`. -/
def pollOutput (bufLen : Nat) : ClientM Output := withEndpoint (Endpoint.pollOutput bufLen)

/-- `send_application_data`. -/
def sendApplicationData (data : Bytes) : ClientM Unit := do
  let c ← get
  if c.state = .closed ∨ c.state = .halfClosedLocal then throw (.fatal .connectionClosed)
  else if c.state ≠ .awaitApplicationData then withEndpoint (Endpoint.queueData data)
  else withEndpoint (Endpoint.sendData data)

/-- `close`. -/
def close : ClientM Unit := do
  let c ← get
  if c.state = .closed ∨ c.state = .halfClosedLocal then pure ()
  else if c.state ≠ .awaitApplicationData then
    withEngine (modify Engine.abort)
    modify fun (c : Client) => { c with state := .closed }
  else
    withEndpoint Endpoint.closeWrite
    modify fun (c : Client) => { c with state := .halfClosedLocal }

end Client

end Dimpl.Dtls13
