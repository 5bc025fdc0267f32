import Dimpl.Types

/-!
# DTLS 1.3 extensions

The extension container and the extensions the handshake reads or writes. An
extension keeps the range of its data in the buffer it was parsed from.
-/

namespace Dimpl.Dtls13

open Nom

/-- An extension code point. -/
structure ExtensionType where
  asU16 : Nat
  deriving DecidableEq, Repr

namespace ExtensionType

/-- `supported_groups`. -/
def supportedGroups : ExtensionType := ⟨0x000A⟩

/-- `signature_algorithms`. -/
def signatureAlgorithms : ExtensionType := ⟨0x000D⟩

/-- `use_srtp`. -/
def useSrtp : ExtensionType := ⟨0x000E⟩

/-- `padding`, which is only written. -/
def padding : ExtensionType := ⟨0x0015⟩

/-- `supported_versions`. -/
def supportedVersions : ExtensionType := ⟨0x002B⟩

/-- `cookie`. -/
def cookie : ExtensionType := ⟨0x002C⟩

/-- `certificate_authorities`, which is only written. -/
def certificateAuthorities : ExtensionType := ⟨0x002F⟩

/-- `key_share`. -/
def keyShare : ExtensionType := ⟨0x0033⟩

/-- The extensions kept when a message is parsed. -/
def supported : List ExtensionType :=
  [supportedVersions, supportedGroups, signatureAlgorithms, keyShare, useSrtp, cookie]

/-- Membership in `supported`. -/
def isSupported (type : ExtensionType) : Bool := supported.contains type

/-- `ExtensionType::parse`. -/
def parse : Parser ExtensionType := do
  return ⟨← beU16⟩

end ExtensionType

/-- An extension and where its data stands. -/
structure Extension where
  extensionType : ExtensionType
  extensionDataRange : Range
  deriving DecidableEq, Repr

namespace Extension

/-- `Extension::parse`. -/
def parse (baseOffset : Nat) : Parser Extension := do
  let original ← remaining
  let extensionType ← ExtensionType.parse
  let extensionLength ← beU16
  let range ← takeRange original baseOffset extensionLength
  return ⟨extensionType, range⟩

/-- The data of an extension in its buffer. -/
def extensionData (ext : Extension) (buf : Bytes) : Bytes := slice buf ext.extensionDataRange

/-- `Extension::serialize`. -/
def serialize (ext : Extension) (buf : Bytes) : Bytes :=
  let data := ext.extensionData buf
  be16 ext.extensionType.asU16 ++ be16 data.length ++ data

/-- Keeps a supported extension; a second one of the same type or one too many
is refused. -/
def push (capacity : Nat) (extensions : List Extension) (ext : Extension) :
    Except ErrorKind (List Extension) :=
  if ext.extensionType.isSupported then
    if extensions.any (fun existing => existing.extensionType = ext.extensionType) then
      .error .lengthValue
    else pushBounded capacity .lengthValue extensions ext
  else .ok extensions

/-- Parses extensions up to the end of the input. -/
def parseAll (capacity baseOffset : Nat) : Parser (List Extension) :=
  foldItems parse (push capacity) baseOffset []

/-- The bytes of an extension list behind its 16-bit length. -/
def serializeAll (extensions : List Extension) (buf : Bytes) : Bytes :=
  be16 ((extensions.map fun ext => 4 + (ext.extensionData buf).length).sum) ++
    extensions.flatMap fun ext => ext.serialize buf

/-- Extensions with their data laid out one behind the other, and the buffer. -/
def layout (parts : List (ExtensionType × Bytes)) : List Extension × Bytes :=
  parts.foldl (fun acc part =>
    (acc.1 ++ [⟨part.1, ⟨acc.2.length, acc.2.length + part.2.length⟩⟩], acc.2 ++ part.2)) ([], [])

end Extension

/-- `parse_cookie_extension`: a non-empty cookie that fills the extension. -/
def parseCookieExtension : Parser Bytes := do
  let input ← remaining
  require (2 ≤ input.length) .lengthValue
  let cookieLen ← beU16
  let rest ← remaining
  require (cookieLen ≠ 0 ∧ rest.length = cookieLen) .lengthValue
  take rest.length

/-- One offered key share. -/
structure KeyShareEntry where
  group : NamedGroup
  keyExchangeRange : Range
  deriving DecidableEq, Repr

namespace KeyShareEntry

/-- `KeyShareEntry::parse`. -/
def parse (baseOffset : Nat) : Parser KeyShareEntry := do
  let original ← remaining
  let group ← NamedGroup.parse
  let keLen ← beU16
  let range ← takeRange original baseOffset keLen
  return ⟨group, range⟩

/-- The public key of a share in its buffer. -/
def keyExchange (entry : KeyShareEntry) (buf : Bytes) : Bytes := slice buf entry.keyExchangeRange

/-- `KeyShareEntry::serialize`. -/
def serialize (entry : KeyShareEntry) (buf : Bytes) : Bytes :=
  let ke := entry.keyExchange buf
  be16 entry.group.asU16 ++ be16 ke.length ++ ke

end KeyShareEntry

/-- `KeyShareClientHello::parse`: the shares of supported groups. -/
def parseKeyShareClientHello (baseOffset : Nat) : Parser (List KeyShareEntry) := do
  let original ← remaining
  let listLen ← beU16
  let start ← consumedFrom original
  let entriesData ← take listLen
  require (← remaining).isEmpty .lengthValue
  let (entries, _) ← within entriesData
    (foldItems KeyShareEntry.parse
      (pushFiltered (fun entry => entry.group.isSupported) NamedGroup.supported.length .lengthValue)
      (baseOffset + start) [])
  return entries

/-- `KeyShareClientHello::serialize`. -/
def serializeKeyShareClientHello (entries : List KeyShareEntry) (buf : Bytes) : Bytes :=
  be16 ((entries.map fun entry => 4 + (entry.keyExchange buf).length).sum) ++
    entries.flatMap fun entry => entry.serialize buf

/-- `KeyShareServerHello::parse`. -/
def parseKeyShareServerHello (baseOffset : Nat) : Parser KeyShareEntry := do
  let entry ← KeyShareEntry.parse baseOffset
  require (← remaining).isEmpty .lengthValue
  return entry

/-- `KeyShareServerHello::serialize`. -/
def serializeKeyShareServerHello (entry : KeyShareEntry) (buf : Bytes) : Bytes := entry.serialize buf

/-- `KeyShareHelloRetryRequest::parse`. -/
def parseKeyShareHelloRetryRequest : Parser NamedGroup := do
  let group ← NamedGroup.parse
  require (← remaining).isEmpty .lengthValue
  return group

/-- `KeyShareHelloRetryRequest::serialize`. -/
def serializeKeyShareHelloRetryRequest (group : NamedGroup) : Bytes := be16 group.asU16

/-- `SignatureAlgorithmsExtension::parse`. -/
def parseSignatureAlgorithms : Parser (List SignatureScheme) := do
  let listLen ← beU16
  require (listLen ≠ 0 ∧ listLen % 2 = 0) .lengthValue
  let data ← take listLen
  require (← remaining).isEmpty .lengthValue
  let (schemes, _) ← within data
    (foldItems (fun _ => SignatureScheme.parse)
      (pushFiltered SignatureScheme.isSupported 2 .lengthValue) 0 [])
  return schemes

/-- `SignatureAlgorithmsExtension::serialize`. -/
def serializeSignatureAlgorithms (schemes : List SignatureScheme) : Bytes :=
  be16 (schemes.length * 2) ++ schemes.flatMap fun scheme => be16 scheme.asU16

/-- `SupportedGroupsExtension::parse`. -/
def parseSupportedGroups : Parser (List NamedGroup) := do
  let listLen ← beU16
  require (listLen % 2 = 0) .lengthValue
  let data ← take listLen
  require (← remaining).isEmpty .lengthValue
  let (groups, _) ← within data
    (foldItems (fun _ => NamedGroup.parse)
      (pushFiltered NamedGroup.isSupported 4 .lengthValue) 0 [])
  return groups

/-- `SupportedGroupsExtension::serialize`. -/
def serializeSupportedGroups (groups : List NamedGroup) : Bytes :=
  be16 (groups.length * 2) ++ groups.flatMap fun group => be16 group.asU16

/-- `SupportedVersionsClientHello::parse`. -/
def parseSupportedVersionsClientHello : Parser (List ProtocolVersion) := do
  let listLen ← beU8
  require (listLen.toNat ≠ 0 ∧ listLen.toNat % 2 = 0) .lengthValue
  let data ← take listLen.toNat
  require (← remaining).isEmpty .lengthValue
  let (versions, _) ← within data
    (foldItems (fun _ => ProtocolVersion.parse)
      (pushFiltered (fun version => !version.isUnknown) 3 .lengthValue) 0 [])
  return versions

/-- `SupportedVersionsClientHello::serialize`. -/
def serializeSupportedVersionsClientHello (versions : List ProtocolVersion) : Bytes :=
  UInt8.ofNat (versions.length * 2) :: versions.flatMap ProtocolVersion.serialize

/-- `SupportedVersionsServerHello::parse`. -/
def parseSupportedVersionsServerHello : Parser ProtocolVersion := do
  let version ← ProtocolVersion.parse
  require (← remaining).isEmpty .lengthValue
  return version

/-- `SupportedVersionsServerHello::serialize`. -/
def serializeSupportedVersionsServerHello (version : ProtocolVersion) : Bytes := be16 version.asU16

end Dimpl.Dtls13
