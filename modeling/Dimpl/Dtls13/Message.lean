import Dimpl.Dtls13.Extension

/-!
# DTLS 1.3 handshake messages

Message bodies as the source parses them. Variable parts stay ranges of the
buffer that held the message.
-/

namespace Dimpl.Dtls13

open Nom

/-- A DTLS 1.3 ClientHello. -/
structure ClientHello where
  legacyVersion : ProtocolVersion
  random : Random
  legacySessionId : Bytes
  legacyCookie : Bytes
  cipherSuites : List Dtls13CipherSuite
  legacyCompressionMethods : List CompressionMethod
  extensions : List Extension
  deriving DecidableEq, Repr

namespace ClientHello

/-- `ClientHello::parse_extensions`: absent at the end of the message, else a
list that fills it. -/
def parseExtensions (baseOffset : Nat) : Parser (List Extension) := do
  let original ← remaining
  if original.isEmpty then
    return []
  let extensionsLen ← beU16
  let start ← consumedFrom original
  let data ← take extensionsLen
  require (← remaining).isEmpty .lengthValue
  let (extensions, _) ← within data (Extension.parseAll 8 (baseOffset + start))
  return extensions

/-- `ClientHello::parse_with_options`. -/
def parseWithOptions (baseOffset : Nat) (allowUnknownSuites : Bool) : Parser ClientHello := do
  let original ← remaining
  let legacyVersion ← ProtocolVersion.parse
  let random ← Random.parse
  let legacySessionId ← parseSessionId
  let legacyCookie ← parseCookie
  let cipherSuitesLen ← beU16
  require (cipherSuitesLen ≠ 0 ∧ cipherSuitesLen % 2 = 0) .lengthValue
  let inputCipher ← take cipherSuitesLen
  let (cipherSuites, rest) ← within inputCipher
    (if allowUnknownSuites then
      many0 Dtls13CipherSuite.parse Dtls13CipherSuite.isSupported 3
    else many1 Dtls13CipherSuite.parse Dtls13CipherSuite.isSupported 3)
  require rest.isEmpty .lengthValue
  let compressionMethodsLen ← beU8
  let inputCompression ← take compressionMethodsLen.toNat
  let (legacyCompressionMethods, rest) ← within inputCompression
    (many1 CompressionMethod.parse CompressionMethod.isSupported 1)
  require rest.isEmpty .lengthValue
  let consumed ← consumedFrom original
  let extensions ← parseExtensions (baseOffset + consumed)
  return { legacyVersion, random, legacySessionId, legacyCookie, cipherSuites,
           legacyCompressionMethods, extensions }

/-- `ClientHello::serialize`. -/
def serialize (hello : ClientHello) (sourceBuf : Bytes) : Bytes :=
  be16 hello.legacyVersion.asU16 ++ hello.random.bytes ++
    UInt8.ofNat hello.legacySessionId.length :: hello.legacySessionId ++
    UInt8.ofNat hello.legacyCookie.length :: hello.legacyCookie ++
    be16 (hello.cipherSuites.length * 2) ++
    hello.cipherSuites.flatMap (fun suite => be16 suite.asU16) ++
    UInt8.ofNat hello.legacyCompressionMethods.length ::
      hello.legacyCompressionMethods.map (fun method => method.asU8) ++
    if hello.extensions.isEmpty then [] else Extension.serializeAll hello.extensions sourceBuf

end ClientHello

/-- A DTLS 1.3 ServerHello or HelloRetryRequest. -/
structure ServerHello where
  legacyVersion : ProtocolVersion
  random : Random
  legacySessionId : Bytes
  cipherSuite : Dtls13CipherSuite
  legacyCompressionMethod : CompressionMethod
  extensions : Option (List Extension)
  deriving DecidableEq, Repr

/-- The random value that marks a HelloRetryRequest. -/
def hrrRandom : Bytes :=
  [0xCF, 0x21, 0xAD, 0x74, 0xE5, 0x9A, 0x61, 0x11, 0xBE, 0x1D, 0x8C, 0x02, 0x1E, 0x65, 0xB8, 0x91,
   0xC2, 0xA2, 0x11, 0x16, 0x7A, 0xBB, 0x8C, 0x5E, 0x07, 0x9E, 0x09, 0xE2, 0xC8, 0xA8, 0x33, 0x9C]

namespace ServerHello

/-- Whether the message is a HelloRetryRequest. -/
def isHelloRetryRequest (hello : ServerHello) : Bool := hello.random.bytes = hrrRandom

/-- The optional extension block at the end of a ServerHello. -/
def parseExtensions (original : Bytes) (baseOffset : Nat) : Parser (Option (List Extension)) := do
  let input ← remaining
  if input.isEmpty then
    return none
  require (2 ≤ input.length) .eof
  let extensionsLen ← beU16
  let input ← remaining
  require (extensionsLen ≤ input.length) .eof
  if extensionsLen = 0 then
    return none
  let start ← consumedFrom original
  let inputExt ← take extensionsLen
  require (← remaining).isEmpty .lengthValue
  let (extensions, _) ← within inputExt (Extension.parseAll 5 (baseOffset + start))
  return some extensions

/-- `ServerHello::parse`. -/
def parse (baseOffset : Nat) : Parser ServerHello := do
  let original ← remaining
  let legacyVersion ← ProtocolVersion.parse
  let random ← Random.parse
  let legacySessionId ← parseSessionId
  let cipherSuite ← Dtls13CipherSuite.parse
  let legacyCompressionMethod ← CompressionMethod.parse
  let extensions ← parseExtensions original baseOffset
  return { legacyVersion, random, legacySessionId, cipherSuite, legacyCompressionMethod,
           extensions }

/-- `ServerHello::serialize`. -/
def serialize (hello : ServerHello) (sourceBuf : Bytes) : Bytes :=
  be16 hello.legacyVersion.asU16 ++ hello.random.bytes ++
    UInt8.ofNat hello.legacySessionId.length :: hello.legacySessionId ++
    be16 hello.cipherSuite.asU16 ++ [hello.legacyCompressionMethod.asU8] ++
    match hello.extensions with
    | some extensions => Extension.serializeAll extensions sourceBuf
    | none => []

end ServerHello

/-- `EncryptedExtensions::parse`. -/
def parseEncryptedExtensions (baseOffset : Nat) : Parser (List Extension) := do
  let original ← remaining
  let extensionsLen ← beU16
  let start ← consumedFrom original
  let data ← take extensionsLen
  let (extensions, _) ← within data (Extension.parseAll 5 (baseOffset + start))
  return extensions

/-- A certificate and its extensions. -/
structure CertificateEntry where
  cert : Range
  extensionsRange : Range
  deriving DecidableEq, Repr

/-- A DTLS 1.3 Certificate message. -/
structure Certificate where
  contextRange : Range
  certificateList : List CertificateEntry
  deriving DecidableEq, Repr

namespace Certificate

/-- One entry of the certificate list; `Asn1Cert::parse` accepts any length. -/
def parseEntry (entryBase : Nat) : Parser CertificateEntry := do
  let original ← remaining
  let len ← beU24
  let cert ← takeRange original entryBase len
  let extLen ← beU16
  let extensionsRange ← takeRange original entryBase extLen
  return ⟨cert, extensionsRange⟩

/-- `Certificate::parse`. -/
def parse (baseOffset : Nat) : Parser Certificate := do
  let original ← remaining
  let contextLen ← beU8
  let contextRange ← takeRange original baseOffset contextLen.toNat
  let totalLen ← beU24
  let start ← consumedFrom original
  let certsData ← take totalLen
  let (certificateList, _) ← within certsData
    (foldItems parseEntry (pushBounded 32 .lengthValue) (baseOffset + start) [])
  return ⟨contextRange, certificateList⟩

/-- `Certificate::serialize`. -/
def serialize (certificate : Certificate) (buf : Bytes) : Bytes :=
  let context := slice buf certificate.contextRange
  UInt8.ofNat context.length :: context ++
    be24 ((certificate.certificateList.map fun entry =>
      5 + (slice buf entry.cert).length + (slice buf entry.extensionsRange).length).sum) ++
    certificate.certificateList.flatMap fun entry =>
      be24 (slice buf entry.cert).length ++ slice buf entry.cert ++
        be16 (slice buf entry.extensionsRange).length ++ slice buf entry.extensionsRange

end Certificate

/-- A signature and its scheme. -/
structure DigitallySigned where
  scheme : SignatureScheme
  signatureRange : Range
  deriving DecidableEq, Repr

namespace DigitallySigned

/-- `DigitallySigned::parse`. -/
def parse (baseOffset : Nat) : Parser DigitallySigned := do
  let original ← remaining
  let scheme ← SignatureScheme.parse
  let signatureLen ← beU16
  let signatureRange ← takeRange original baseOffset signatureLen
  return ⟨scheme, signatureRange⟩

/-- The signature bytes in their buffer. -/
def signature (signed : DigitallySigned) (buf : Bytes) : Bytes := slice buf signed.signatureRange

/-- `DigitallySigned::serialize`. -/
def serialize (signed : DigitallySigned) (buf : Bytes) : Bytes :=
  let signature := signed.signature buf
  be16 signed.scheme.asU16 ++ be16 signature.length ++ signature

end DigitallySigned

/-- `Finished::parse`: exactly the digest length of the suite. The range is
relative to the input, whatever the base offset. -/
def parseFinished (suite : Dtls13CipherSuite) : Parser Range := do
  let data ← take suite.verifyDataLength
  return ⟨0, data.length⟩

/-- Whether the receiver of a KeyUpdate has to answer it. -/
inductive KeyUpdateRequest where
  | updateNotRequested
  | updateRequested
  deriving DecidableEq, Repr

namespace KeyUpdateRequest

/-- `KeyUpdateRequest::from_u8`. -/
def fromU8 (value : UInt8) : Option KeyUpdateRequest :=
  if value = 0 then some .updateNotRequested
  else if value = 1 then some .updateRequested
  else none

/-- `KeyUpdateRequest::as_u8`. -/
def asU8 : KeyUpdateRequest → UInt8
  | .updateNotRequested => 0
  | .updateRequested => 1

end KeyUpdateRequest

/-- A handshake message type. -/
structure MessageType where
  asU8 : UInt8
  deriving DecidableEq, Repr

namespace MessageType

/-- ClientHello. -/
def clientHello : MessageType := ⟨1⟩

/-- ServerHello and HelloRetryRequest. -/
def serverHello : MessageType := ⟨2⟩

/-- EncryptedExtensions. -/
def encryptedExtensions : MessageType := ⟨8⟩

/-- Certificate. -/
def certificate : MessageType := ⟨11⟩

/-- CertificateRequest. -/
def certificateRequest : MessageType := ⟨13⟩

/-- CertificateVerify. -/
def certificateVerify : MessageType := ⟨15⟩

/-- Finished. -/
def finished : MessageType := ⟨20⟩

/-- KeyUpdate. -/
def keyUpdate : MessageType := ⟨24⟩

/-- `MessageType::parse`. -/
def parse : Parser MessageType := do
  return ⟨← beU8⟩

end MessageType

/-- The body of a reassembled handshake message. -/
inductive Body where
  | clientHello (hello : ClientHello)
  | serverHello (hello : ServerHello)
  | encryptedExtensions (extensions : List Extension)
  | certificate (certificate : Certificate)
  | certificateRequest (range : Range)
  | certificateVerify (signed : DigitallySigned)
  | finished (verifyDataRange : Range)
  | keyUpdate (request : KeyUpdateRequest)
  | unknown (type : UInt8)
  deriving DecidableEq, Repr

namespace Body

/-- `Body::parse_with_options`. -/
def parseWithOptions (baseOffset : Nat) (type : MessageType) (suite : Option Dtls13CipherSuite)
    (allowUnknownClientHelloSuites : Bool) : Parser Body := do
  if type = .clientHello then
    return .clientHello (← ClientHello.parseWithOptions baseOffset allowUnknownClientHelloSuites)
  else if type = .serverHello then
    return .serverHello (← ServerHello.parse baseOffset)
  else if type = .encryptedExtensions then
    return .encryptedExtensions (← parseEncryptedExtensions baseOffset)
  else if type = .certificate then
    return .certificate (← Certificate.parse baseOffset)
  else if type = .certificateRequest then
    -- The whole body is kept as one range and nothing is left over.
    let input ← take (← remaining).length
    return .certificateRequest ⟨baseOffset, baseOffset + input.length⟩
  else if type = .certificateVerify then
    return .certificateVerify (← DigitallySigned.parse baseOffset)
  else if type = .finished then
    match suite with
    | none => fail .fail
    | some suite => return .finished (← parseFinished suite)
  else if type = .keyUpdate then
    let byte ← beU8
    require (← remaining).isEmpty .lengthValue
    match KeyUpdateRequest.fromU8 byte with
    | none => fail .fail
    | some request => return .keyUpdate request
  else
    return .unknown type.asU8

end Body

/-- The DTLS handshake header. -/
structure Header where
  msgType : MessageType
  length : Nat
  messageSeq : Nat
  fragmentOffset : Nat
  fragmentLength : Nat
  deriving DecidableEq, Repr

/-- A reassembled handshake message. -/
structure Handshake where
  header : Header
  body : Body
  deriving DecidableEq, Repr

/-- A handshake fragment as it stands in a record: its body is a range of the
record's buffer, not interpreted yet. It is handled once reassembly took it. -/
structure Fragment where
  header : Header
  range : Range
  handled : Bool
  deriving DecidableEq, Repr

/-- `Handshake::parse_header`. -/
def Header.parse : Parser Header := do
  let msgType ← MessageType.parse
  let length ← beU24
  let messageSeq ← beU16
  let fragmentOffset ← beU24
  let fragmentLength ← beU24
  return { msgType, length, messageSeq, fragmentOffset, fragmentLength }

namespace Fragment

/-- `Handshake::parse` with `as_fragment` set, the only way the record layer
calls it. -/
def parse (baseOffset : Nat) : Parser Fragment := do
  let original ← remaining
  let header ← Header.parse
  let range ← takeRange original baseOffset header.fragmentLength
  return { header, range, handled := false }

/-- The position right behind the fragment in its message. -/
def stop (fragment : Fragment) : Nat :=
  fragment.header.fragmentOffset + fragment.header.fragmentLength

/-- The sequence number of a first ClientHello fragment. Such a message, when
it is a duplicate, makes the receiver resend its flight. -/
def dupeTriggersResend (fragment : Fragment) : Option Nat :=
  if fragment.header.fragmentOffset ≠ 0 then none
  else if fragment.header.msgType = .clientHello then some fragment.header.messageSeq
  else none

/-- Marks the fragment as taken. -/
def setHandled (fragment : Fragment) : Fragment := { fragment with handled := true }

end Fragment

/-- The handshake header and body of one fragment on the wire. -/
def Header.serializeFragment (header : Header) (fragment : Bytes) : Bytes :=
  header.msgType.asU8 :: be24 header.length ++ be16 header.messageSeq ++
    be24 header.fragmentOffset ++ be24 header.fragmentLength ++ fragment

end Dimpl.Dtls13
