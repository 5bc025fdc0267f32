import Dimpl.Types

/-!
# DTLS 1.2 handshake messages

The messages of `dtls12/message` with their parsers and serializers. Ranges point
into the buffer a message was parsed from.
-/

namespace Dimpl.Dtls12

open Nom

/-- A DTLS 1.2 extension code point. -/
structure ExtensionType where
  asU16 : Nat
  deriving DecidableEq, Repr

namespace ExtensionType

/-- `supported_groups`. -/
def supportedGroups : ExtensionType := ⟨0x000A⟩

/-- `ec_point_formats`. -/
def ecPointFormats : ExtensionType := ⟨0x000B⟩

/-- `signature_algorithms`. -/
def signatureAlgorithms : ExtensionType := ⟨0x000D⟩

/-- `use_srtp`. -/
def useSrtp : ExtensionType := ⟨0x000E⟩

/-- `encrypt_then_mac`. -/
def encryptThenMac : ExtensionType := ⟨0x0016⟩

/-- `extended_master_secret`. -/
def extendedMasterSecret : ExtensionType := ⟨0x0017⟩

/-- `session_ticket`. -/
def sessionTicket : ExtensionType := ⟨0x0023⟩

/-- `renegotiation_info`. -/
def renegotiationInfo : ExtensionType := ⟨0xFF01⟩

/-- The extensions kept when a message is parsed. -/
def supported : List ExtensionType :=
  [supportedGroups, ecPointFormats, signatureAlgorithms, useSrtp, encryptThenMac,
   extendedMasterSecret, renegotiationInfo, sessionTicket]

/-- Membership in `supported`. -/
def isSupported (type : ExtensionType) : Bool := supported.contains type

end ExtensionType

/-- An extension and where its data stands. -/
structure Extension where
  extensionType : ExtensionType
  extensionDataRange : Range
  deriving DecidableEq, Repr

namespace Extension

/-- `Extension::parse`. -/
def parse (baseOffset : Nat) : Parser Extension := do
  let original ← remaining
  let extensionType ← beU16
  let extensionLength ← beU16
  let range ← takeRange original baseOffset extensionLength
  return ⟨⟨extensionType⟩, range⟩

/-- The data of an extension in its buffer. -/
def extensionData (ext : Extension) (buf : Bytes) : Bytes := slice buf ext.extensionDataRange

/-- `Extension::serialize`. -/
def serialize (ext : Extension) (buf : Bytes) : Bytes :=
  let data := ext.extensionData buf
  be16 ext.extensionType.asU16 ++ be16 data.length ++ data

/-- Keeps an extension of a supported type and refuses a second one. -/
def push (extensions : List Extension) (ext : Extension) : Except ErrorKind (List Extension) :=
  if !ext.extensionType.isSupported then .ok extensions
  else if extensions.any fun existing => existing.extensionType = ext.extensionType then
    .error .lengthValue
  else pushBounded ExtensionType.supported.length .lengthValue extensions ext

/-- All extensions of a block. -/
def parseAll (baseOffset : Nat) : Parser (List Extension) :=
  foldItems parse push baseOffset []

/-- The block of extensions with its length. -/
def serializeAll (extensions : List Extension) (buf : Bytes) : Bytes :=
  be16 ((extensions.map fun ext => 4 + (ext.extensionData buf).length).sum) ++
    extensions.flatMap fun ext => ext.serialize buf

/-- Extensions with their data laid out one behind the other, and the buffer. -/
def layout (parts : List (ExtensionType × Bytes)) : List Extension × Bytes :=
  parts.foldl (fun acc part =>
    (acc.1 ++ [⟨part.1, ⟨acc.2.length, acc.2.length + part.2.length⟩⟩], acc.2 ++ part.2)) ([], [])

end Extension

/-- `SupportedGroupsExtension::parse`. -/
def parseSupportedGroups : Parser (List NamedGroup) := do
  let listLen ← beU16
  require (listLen % 2 = 0) .lengthValue
  let data ← take listLen
  require (← remaining).isEmpty .lengthValue
  let (groups, _) ← within data
    (foldItems (fun _ => NamedGroup.parse)
      (pushFiltered NamedGroup.isSupported 4 .lengthValue) 0 [])
  return groups

/-- `SupportedGroupsExtension::serialize`. -/
def serializeSupportedGroups (groups : List NamedGroup) : Bytes :=
  be16 (groups.length * 2) ++ groups.flatMap fun group => be16 group.asU16

/-- `ECPointFormatsExtension::parse`: the known formats, at most three. -/
def parseEcPointFormats : Parser (List UInt8) := do
  let listLen ← beU8
  let data ← take listLen.toNat
  require (← remaining).isEmpty .lengthValue
  let (formats, _) ← within data
    (foldItems (fun _ => beU8)
      (pushFiltered (fun format => [0, 1, 2].contains format) 3 .lengthValue) 0 [])
  return formats

/-- `ECPointFormatsExtension::serialize` of the default: uncompressed only. -/
def defaultEcPointFormats : Bytes := [1, 0]

/-- A DTLS 1.2 ClientHello. -/
structure ClientHello where
  clientVersion : ProtocolVersion
  random : Random
  sessionId : Bytes
  cookie : Bytes
  cipherSuites : List Dtls12CipherSuite
  compressionMethods : List CompressionMethod
  extensions : List Extension
  deriving DecidableEq, Repr

namespace ClientHello

/-- `ClientHello::parse_extensions`; what follows the block is left over. -/
def parseExtensions (baseOffset : Nat) : Parser (List Extension) := do
  let original ← remaining
  if original.isEmpty then
    return []
  let extensionsLen ← beU16
  if extensionsLen = 0 then
    return []
  let start ← consumedFrom original
  let data ← take extensionsLen
  let (extensions, _) ← within data (Extension.parseAll (baseOffset + start))
  return extensions

/-- `ClientHello::parse`. -/
def parse (baseOffset : Nat) : Parser ClientHello := do
  let original ← remaining
  let clientVersion ← ProtocolVersion.parse
  let random ← Random.parse
  let sessionId ← parseSessionId
  let cookie ← parseCookie
  let cipherSuitesLen ← beU16
  let inputCipher ← take cipherSuitesLen
  let (cipherSuites, rest) ← within inputCipher
    (many1 Dtls12CipherSuite.parse Dtls12CipherSuite.isSupported 4)
  require rest.isEmpty .lengthValue
  let compressionMethodsLen ← beU8
  let inputCompression ← take compressionMethodsLen.toNat
  let (compressionMethods, rest) ← within inputCompression
    (many1 CompressionMethod.parse CompressionMethod.isSupported 1)
  require rest.isEmpty .lengthValue
  let consumed ← consumedFrom original
  let extensions ← parseExtensions (baseOffset + consumed)
  return { clientVersion, random, sessionId, cookie, cipherSuites, compressionMethods, extensions }

/-- `ClientHello::serialize`. -/
def serialize (hello : ClientHello) (sourceBuf : Bytes) : Bytes :=
  be16 hello.clientVersion.asU16 ++ hello.random.bytes ++
    UInt8.ofNat hello.sessionId.length :: hello.sessionId ++
    UInt8.ofNat hello.cookie.length :: hello.cookie ++
    be16 (hello.cipherSuites.length * 2) ++
    hello.cipherSuites.flatMap (fun suite => be16 suite.asU16) ++
    UInt8.ofNat hello.compressionMethods.length ::
      hello.compressionMethods.map (fun method => method.asU8) ++
    if hello.extensions.isEmpty then [] else Extension.serializeAll hello.extensions sourceBuf

end ClientHello

/-- A HelloVerifyRequest. -/
structure HelloVerifyRequest where
  serverVersion : ProtocolVersion
  cookie : Bytes
  deriving DecidableEq, Repr

namespace HelloVerifyRequest

/-- `HelloVerifyRequest::parse`: the cookie must not be empty. -/
def parse : Parser HelloVerifyRequest := do
  let serverVersion ← ProtocolVersion.parse
  let cookie ← parseCookie
  require (!cookie.isEmpty) .lengthValue
  return ⟨serverVersion, cookie⟩

/-- `HelloVerifyRequest::serialize`. -/
def serialize (request : HelloVerifyRequest) : Bytes :=
  be16 request.serverVersion.asU16 ++ UInt8.ofNat request.cookie.length :: request.cookie

end HelloVerifyRequest

/-- A DTLS 1.2 ServerHello. -/
structure ServerHello where
  serverVersion : ProtocolVersion
  random : Random
  sessionId : Bytes
  cipherSuite : Dtls12CipherSuite
  compressionMethod : CompressionMethod
  extensions : Option (List Extension)
  deriving DecidableEq, Repr

namespace ServerHello

/-- The optional extension block at the end of a ServerHello. -/
def parseExtensions (original : Bytes) (baseOffset : Nat) : Parser (Option (List Extension)) := do
  let input ← remaining
  if input.isEmpty then
    return none
  require (2 ≤ input.length) .eof
  let extensionsLen ← beU16
  let input ← remaining
  require (extensionsLen ≤ input.length) .eof
  if extensionsLen = 0 then
    return none
  let start ← consumedFrom original
  let inputExt ← take extensionsLen
  require (← remaining).isEmpty .lengthValue
  let (extensions, _) ← within inputExt (Extension.parseAll (baseOffset + start))
  return some extensions

/-- `ServerHello::parse`. -/
def parse (baseOffset : Nat) : Parser ServerHello := do
  let original ← remaining
  let serverVersion ← ProtocolVersion.parse
  let random ← Random.parse
  let sessionId ← parseSessionId
  let cipherSuite ← Dtls12CipherSuite.parse
  let compressionMethod ← CompressionMethod.parse
  let extensions ← parseExtensions original baseOffset
  return { serverVersion, random, sessionId, cipherSuite, compressionMethod, extensions }

/-- `ServerHello::serialize`. -/
def serialize (hello : ServerHello) (sourceBuf : Bytes) : Bytes :=
  be16 hello.serverVersion.asU16 ++ hello.random.bytes ++
    UInt8.ofNat hello.sessionId.length :: hello.sessionId ++
    be16 hello.cipherSuite.asU16 ++ [hello.compressionMethod.asU8] ++
    match hello.extensions with
    | some extensions => Extension.serializeAll extensions sourceBuf
    | none => []

end ServerHello

/-- `Asn1Cert::parse`. -/
def parseAsn1Cert (baseOffset : Nat) : Parser Range := do
  let original ← remaining
  let len ← beU24
  takeRange original baseOffset len

/-- `DistinguishedName::parse`: at least one byte. -/
def parseDistinguishedName (baseOffset : Nat) : Parser Range := do
  let original ← remaining
  let len ← beU16
  require (1 ≤ len) .lengthValue
  takeRange original baseOffset len

/-- `Certificate::parse`: the ranges of the certificates. -/
def parseCertificate (baseOffset : Nat) : Parser (List Range) := do
  let original ← remaining
  let totalLen ← beU24
  let start ← consumedFrom original
  let certsData ← take totalLen
  let (certificateList, _) ← within certsData
    (foldItems parseAsn1Cert (pushBounded 32 .lengthValue) (baseOffset + start) [])
  return certificateList

/-- `Certificate::serialize` of the certificates themselves. -/
def serializeCertificate (certificates : List Bytes) : Bytes :=
  be24 ((certificates.map fun cert => 3 + cert.length).sum) ++
    certificates.flatMap fun cert => be24 cert.length ++ cert

/-- `Certificate::serialize`. -/
def serializeCertificateList (certificateList : List Range) (buf : Bytes) : Bytes :=
  serializeCertificate (certificateList.map (slice buf))

/-- A hash and a signature algorithm. -/
structure SignatureAndHashAlgorithm where
  hash : HashAlgorithm
  signature : SignatureAlgorithm
  deriving DecidableEq, Repr

namespace SignatureAndHashAlgorithm

/-- `SignatureAndHashAlgorithm::as_u16`. -/
def asU16 (algorithm : SignatureAndHashAlgorithm) : Nat :=
  algorithm.hash.asU8.toNat * 256 + algorithm.signature.asU8.toNat

/-- `SignatureAndHashAlgorithm::parse`. -/
def parse : Parser SignatureAndHashAlgorithm := do
  let value ← beU16
  return ⟨⟨UInt8.ofNat (value / 256)⟩, ⟨UInt8.ofNat value⟩⟩

/-- The combinations that are offered and accepted. -/
def supported : List SignatureAndHashAlgorithm :=
  [⟨.sha256, .ecdsa⟩, ⟨.sha384, .ecdsa⟩, ⟨.sha256, .rsa⟩, ⟨.sha384, .rsa⟩]

/-- Membership in `supported`. -/
def isSupported (algorithm : SignatureAndHashAlgorithm) : Bool := supported.contains algorithm

end SignatureAndHashAlgorithm

/-- `SignatureAlgorithmsExtension::parse`. -/
def parseSignatureAlgorithms : Parser (List SignatureAndHashAlgorithm) := do
  let listLen ← beU16
  require (listLen ≠ 0 ∧ listLen % 2 = 0) .lengthValue
  let data ← take listLen
  require (← remaining).isEmpty .lengthValue
  let (algorithms, _) ← within data
    (foldItems (fun _ => SignatureAndHashAlgorithm.parse)
      (pushFiltered SignatureAndHashAlgorithm.isSupported 4 .lengthValue) 0 [])
  return algorithms

/-- `SignatureAlgorithmsExtension::serialize`. -/
def serializeSignatureAlgorithms (algorithms : List SignatureAndHashAlgorithm) : Bytes :=
  be16 (algorithms.length * 2) ++ algorithms.flatMap fun algorithm => be16 algorithm.asU16

/-- A signature and its algorithms. -/
structure DigitallySigned where
  algorithm : SignatureAndHashAlgorithm
  signatureRange : Range
  deriving DecidableEq, Repr

namespace DigitallySigned

/-- `DigitallySigned::parse`. -/
def parse (baseOffset : Nat) : Parser DigitallySigned := do
  let original ← remaining
  let algorithm ← SignatureAndHashAlgorithm.parse
  let signatureLen ← beU16
  let range ← takeRange original baseOffset signatureLen
  return ⟨algorithm, range⟩

/-- The signature in its buffer. -/
def signature (signed : DigitallySigned) (buf : Bytes) : Bytes := slice buf signed.signatureRange

/-- The bytes of a signature and its algorithms. -/
def serializeBytes (algorithm : SignatureAndHashAlgorithm) (signature : Bytes) : Bytes :=
  be16 algorithm.asU16 ++ be16 signature.length ++ signature

/-- `DigitallySigned::serialize`. -/
def serialize (signed : DigitallySigned) (buf : Bytes) : Bytes :=
  serializeBytes signed.algorithm (signed.signature buf)

end DigitallySigned

/-- How the keys are agreed on. -/
inductive KeyExchangeAlgorithm where
  | eecdh
  | psk
  | unknown
  deriving DecidableEq, Repr

/-- `as_key_exchange_algorithm`. -/
def keyExchangeAlgorithm (suite : Dtls12CipherSuite) : KeyExchangeAlgorithm :=
  if suite.hasEcc then .eecdh else if suite.isPsk then .psk else .unknown

/-- The ECDH parameters of a server. -/
structure EcdhParams where
  curveType : UInt8
  namedGroup : NamedGroup
  publicKeyRange : Range
  signature : Option DigitallySigned
  deriving DecidableEq, Repr

namespace EcdhParams

/-- A signature, when bytes are left. -/
def parseSignature (original : Bytes) (baseOffset : Nat) : Parser (Option DigitallySigned) := do
  let input ← remaining
  if input.isEmpty then
    return none
  let offset ← consumedFrom original
  let signed ← DigitallySigned.parse (baseOffset + offset)
  return some signed

/-- `EcdhParams::parse`. -/
def parse (baseOffset : Nat) : Parser EcdhParams := do
  let original ← remaining
  let curveType ← beU8
  let namedGroup ← NamedGroup.parse
  let publicKeyLen ← beU8
  let publicKeyRange ← takeRange original baseOffset publicKeyLen.toNat
  let signature ← parseSignature original baseOffset
  return { curveType, namedGroup, publicKeyRange, signature }

/-- The parameters without the signature, which is what is signed. -/
def serializeBytes (curveType : UInt8) (namedGroup : NamedGroup) (publicKey : Bytes) : Bytes :=
  curveType :: be16 namedGroup.asU16 ++ UInt8.ofNat publicKey.length :: publicKey

/-- The public key in its buffer. -/
def publicKey (params : EcdhParams) (buf : Bytes) : Bytes := slice buf params.publicKeyRange

/-- `EcdhParams::serialize`. -/
def serialize (params : EcdhParams) (buf : Bytes) (withSignature : Bool) : Bytes :=
  serializeBytes params.curveType params.namedGroup (params.publicKey buf) ++
    if withSignature then
      match params.signature with
      | some signed => signed.serialize buf
      | none => []
    else []

end EcdhParams

/-- The parameters of a ServerKeyExchange. -/
inductive ServerKeyExchange where
  | ecdh (params : EcdhParams)
  | psk (hintRange : Range)
  deriving DecidableEq, Repr

/-- A length of 16 bits and as many bytes, as `PskParams` and `ClientPskKeys`
have. -/
def parseOpaque16 (baseOffset : Nat) : Parser Range := do
  let original ← remaining
  let len ← beU16
  takeRange original baseOffset len

/-- The serializers of `PskParams` and `ClientPskKeys`. -/
def serializeOpaque16 (range : Range) (buf : Bytes) : Bytes :=
  be16 (slice buf range).length ++ slice buf range

/-- `ServerKeyExchange::serialize`. -/
def ServerKeyExchange.serialize (exchange : ServerKeyExchange) (buf : Bytes)
    (withSignature : Bool) : Bytes :=
  match exchange with
  | .ecdh params => params.serialize buf withSignature
  | .psk hintRange => serializeOpaque16 hintRange buf

/-- `ServerKeyExchange::parse`. -/
def ServerKeyExchange.parse (baseOffset : Nat) :
    KeyExchangeAlgorithm → Parser ServerKeyExchange
  | .eecdh => do return .ecdh (← EcdhParams.parse baseOffset)
  | .psk => do return .psk (← parseOpaque16 baseOffset)
  | .unknown => fail .tag

/-- The keys of a ClientKeyExchange. -/
inductive ClientKeyExchange where
  | ecdh (publicKeyRange : Range)
  | psk (identityRange : Range)
  deriving DecidableEq, Repr

/-- `ClientEcdhKeys::parse`. -/
def parseClientEcdhKeys (baseOffset : Nat) : Parser Range := do
  let original ← remaining
  let len ← beU8
  takeRange original baseOffset len.toNat

/-- `ClientKeyExchange::parse`. -/
def ClientKeyExchange.parse (baseOffset : Nat) :
    KeyExchangeAlgorithm → Parser ClientKeyExchange
  | .eecdh => do return .ecdh (← parseClientEcdhKeys baseOffset)
  | .psk => do return .psk (← parseOpaque16 baseOffset)
  | .unknown => fail .tag

/-- `ClientKeyExchange::serialize`; curve type and group of the ECDH keys are not written. -/
def ClientKeyExchange.serialize (exchange : ClientKeyExchange) (buf : Bytes) : Bytes :=
  match exchange with
  | .ecdh publicKeyRange =>
      UInt8.ofNat (slice buf publicKeyRange).length :: slice buf publicKeyRange
  | .psk identityRange => serializeOpaque16 identityRange buf

/-- A CertificateRequest; the only certificate type kept is ECDSA_SIGN. -/
structure CertificateRequest where
  certificateTypes : List UInt8
  supportedSignatureAlgorithms : List SignatureAndHashAlgorithm
  certificateAuthorities : List Range
  deriving DecidableEq, Repr

namespace CertificateRequest

/-- The certificate type of an ECDSA key. -/
def ecdsaSign : UInt8 := 64

/-- `CertificateRequest::parse`. -/
def parse (baseOffset : Nat) : Parser CertificateRequest := do
  let original ← remaining
  let certTypesLen ← beU8
  let inputType ← take certTypesLen.toNat
  let (certificateTypes, rest) ← within inputType (many1 beU8 (fun type => type = ecdsaSign) 1)
  require rest.isEmpty .lengthValue
  let sigAlgsLen ← beU16
  let inputSigs ← take sigAlgsLen
  let (supportedSignatureAlgorithms, rest) ← within inputSigs
    (many0 SignatureAndHashAlgorithm.parse SignatureAndHashAlgorithm.isSupported 4)
  require rest.isEmpty .lengthValue
  let certAuthsLen ← beU16
  let start ← consumedFrom original
  let inputAuths ← take certAuthsLen
  let (certificateAuthorities, _) ← within inputAuths
    (foldItems parseDistinguishedName (pushBounded 32 .lengthValue) (baseOffset + start) [])
  return { certificateTypes, supportedSignatureAlgorithms, certificateAuthorities }

/-- `CertificateRequest::serialize`. -/
def serialize (request : CertificateRequest) (buf : Bytes) : Bytes :=
  UInt8.ofNat request.certificateTypes.length :: request.certificateTypes ++
    be16 (request.supportedSignatureAlgorithms.length * 2) ++
    request.supportedSignatureAlgorithms.flatMap (fun algorithm => be16 algorithm.asU16) ++
    be16 ((request.certificateAuthorities.map fun name => 2 + (slice buf name).length).sum) ++
    request.certificateAuthorities.flatMap fun name =>
      be16 (slice buf name).length ++ slice buf name

/-- `CertificateRequest::serialize` without authorities, as the server sends it. -/
def serializeBytes (certificateTypes : List UInt8) (algorithms : List SignatureAndHashAlgorithm) :
    Bytes :=
  UInt8.ofNat certificateTypes.length :: certificateTypes ++ be16 (algorithms.length * 2) ++
    algorithms.flatMap (fun algorithm => be16 algorithm.asU16) ++ be16 0

theorem serialize_without_authorities (certificateTypes : List UInt8)
    (algorithms : List SignatureAndHashAlgorithm) (buf : Bytes) :
    (⟨certificateTypes, algorithms, []⟩ : CertificateRequest).serialize buf =
      serializeBytes certificateTypes algorithms :=
  List.append_nil _

/-- `supports_hash_algorithm`. -/
def supportsHashAlgorithm (request : CertificateRequest) (hash : HashAlgorithm) : Bool :=
  request.supportedSignatureAlgorithms.any fun algorithm => algorithm.hash = hash

end CertificateRequest

/-- `Finished::parse`: the range of the verify data. -/
def parseFinished (suite : Dtls12CipherSuite) : Parser Range := do
  let original ← remaining
  takeRange original 0 suite.verifyDataLength

/-- A DTLS 1.2 handshake message type. -/
structure MessageType where
  asU8 : UInt8
  deriving DecidableEq, Repr

namespace MessageType

/-- HelloRequest. -/
def helloRequest : MessageType := ⟨0⟩

/-- ClientHello. -/
def clientHello : MessageType := ⟨1⟩

/-- ServerHello. -/
def serverHello : MessageType := ⟨2⟩

/-- HelloVerifyRequest. -/
def helloVerifyRequest : MessageType := ⟨3⟩

/-- NewSessionTicket. -/
def newSessionTicket : MessageType := ⟨4⟩

/-- Certificate. -/
def certificate : MessageType := ⟨11⟩

/-- ServerKeyExchange. -/
def serverKeyExchange : MessageType := ⟨12⟩

/-- CertificateRequest. -/
def certificateRequest : MessageType := ⟨13⟩

/-- ServerHelloDone. -/
def serverHelloDone : MessageType := ⟨14⟩

/-- CertificateVerify. -/
def certificateVerify : MessageType := ⟨15⟩

/-- ClientKeyExchange. -/
def clientKeyExchange : MessageType := ⟨16⟩

/-- Finished. -/
def finished : MessageType := ⟨20⟩

/-- `MessageType::epoch`: what is sent behind the ChangeCipherSpec. -/
def epoch (type : MessageType) : Nat :=
  if type = newSessionTicket ∨ type = finished then 1 else 0

end MessageType

/-- The body of a message. -/
inductive Body where
  | helloRequest
  | clientHello (hello : ClientHello)
  | helloVerifyRequest (request : HelloVerifyRequest)
  | serverHello (hello : ServerHello)
  | certificate (certificateList : List Range)
  | serverKeyExchange (exchange : ServerKeyExchange)
  | certificateRequest (request : CertificateRequest)
  | serverHelloDone
  | certificateVerify (signed : DigitallySigned)
  | clientKeyExchange (exchange : ClientKeyExchange)
  | newSessionTicket (range : Range)
  | finished (verifyDataRange : Range)
  | unknown (type : UInt8)
  deriving DecidableEq, Repr

namespace Body

/-- A parser that needs the negotiated suite. -/
def withSuite {α : Type} (suite : Option Dtls12CipherSuite) (p : Dtls12CipherSuite → Parser α) :
    Parser α :=
  match suite with
  | some suite => p suite
  | none => fail .fail

/-- NewSessionTicket takes all that is left. -/
def parseTicket (baseOffset : Nat) : Parser Body := do
  let original ← remaining
  let range ← takeRange original baseOffset original.length
  return .newSessionTicket range

/-- `Body::parse`. -/
def parse (baseOffset : Nat) (type : MessageType) (suite : Option Dtls12CipherSuite) :
    Parser Body :=
  if type = .helloRequest then pure .helloRequest
  else if type = .clientHello then do return .clientHello (← ClientHello.parse baseOffset)
  else if type = .helloVerifyRequest then do
    return .helloVerifyRequest (← HelloVerifyRequest.parse)
  else if type = .serverHello then do return .serverHello (← ServerHello.parse baseOffset)
  else if type = .certificate then do return .certificate (← parseCertificate baseOffset)
  else if type = .serverKeyExchange then
    withSuite suite fun suite => do
      return .serverKeyExchange (← ServerKeyExchange.parse baseOffset (keyExchangeAlgorithm suite))
  else if type = .certificateRequest then do
    return .certificateRequest (← CertificateRequest.parse baseOffset)
  else if type = .serverHelloDone then pure .serverHelloDone
  else if type = .certificateVerify then do
    return .certificateVerify (← DigitallySigned.parse baseOffset)
  else if type = .clientKeyExchange then
    withSuite suite fun suite => do
      return .clientKeyExchange (← ClientKeyExchange.parse baseOffset (keyExchangeAlgorithm suite))
  else if type = .newSessionTicket then parseTicket baseOffset
  else if type = .finished then
    withSuite suite fun suite => do return .finished (← parseFinished suite)
  else pure (.unknown type.asU8)

end Body

/-- A handshake header. -/
structure Header where
  msgType : MessageType
  length : Nat
  messageSeq : Nat
  fragmentOffset : Nat
  fragmentLength : Nat
  deriving DecidableEq, Repr

/-- A complete message. -/
structure Handshake where
  header : Header
  body : Body
  deriving DecidableEq, Repr

/-- A fragment of a message in a record, and whether it was consumed. -/
structure Fragment where
  header : Header
  range : Range
  handled : Bool
  deriving DecidableEq, Repr

/-- `Handshake::parse_header`. -/
def Header.parse : Parser Header := do
  let msgType ← beU8
  let length ← beU24
  let messageSeq ← beU16
  let fragmentOffset ← beU24
  let fragmentLength ← beU24
  return { msgType := ⟨msgType⟩, length, messageSeq, fragmentOffset, fragmentLength }

/-- The header in front of the bytes of a fragment. -/
def Header.serializeFragment (header : Header) (fragment : Bytes) : Bytes :=
  header.msgType.asU8 :: be24 header.length ++ be16 header.messageSeq ++
    be24 header.fragmentOffset ++ be24 header.fragmentLength ++ fragment

namespace Fragment

/-- `Handshake::parse` of a fragment. -/
def parse (baseOffset : Nat) : Parser Fragment := do
  let original ← remaining
  let header ← Header.parse
  let range ← takeRange original baseOffset header.fragmentLength
  return { header, range, handled := false }

/-- `dupe_triggers_resend`: the first fragments that end a flight. -/
def dupeTriggersResend (fragment : Fragment) : Option Nat :=
  if fragment.header.fragmentOffset = 0 &&
      [MessageType.clientHello, .helloVerifyRequest, .serverHelloDone, .clientKeyExchange].contains
        fragment.header.msgType then
    some fragment.header.messageSeq
  else none

/-- `set_handled`. -/
def setHandled (fragment : Fragment) : Fragment := { fragment with handled := true }

end Fragment

end Dimpl.Dtls12
