import Dimpl.Lib.Nom

/-!
# Wire types shared by both protocol versions

The registries of `types.rs` are open: every code point is a value and the
named ones are constants, as in the source's transparent newtypes.
-/

namespace Dimpl

open Nom

/-- A 32-byte hello random. -/
structure Random where
  bytes : Bytes
  deriving DecidableEq, Repr

/-- `Random::parse`. -/
def Random.parse : Parser Random := do
  return ⟨← take 32⟩

/-- A key exchange group. -/
structure NamedGroup where
  asU16 : Nat
  deriving DecidableEq, Repr

namespace NamedGroup

/-- NIST P-256. -/
def secp256r1 : NamedGroup := ⟨23⟩

/-- NIST P-384. -/
def secp384r1 : NamedGroup := ⟨24⟩

/-- NIST P-521. -/
def secp521r1 : NamedGroup := ⟨25⟩

/-- Curve25519. -/
def x25519 : NamedGroup := ⟨29⟩

/-- The groups this implementation can negotiate. -/
def supported : List NamedGroup := [x25519, secp256r1, secp384r1, secp521r1]

/-- Membership in `supported`. -/
def isSupported (group : NamedGroup) : Bool := supported.contains group

/-- `NamedGroup::parse`. -/
def parse : Parser NamedGroup := do
  return ⟨← beU16⟩

end NamedGroup

/-- A hash function identifier. -/
structure HashAlgorithm where
  asU8 : UInt8
  deriving DecidableEq, Repr

namespace HashAlgorithm

/-- No hash. -/
def none : HashAlgorithm := ⟨0⟩

/-- SHA-256. -/
def sha256 : HashAlgorithm := ⟨4⟩

/-- SHA-384. -/
def sha384 : HashAlgorithm := ⟨5⟩

/-- SHA-512. -/
def sha512 : HashAlgorithm := ⟨6⟩

/-- The hash of an unrecognised suite or scheme. -/
def unknownDerived : HashAlgorithm := ⟨255⟩

/-- `HashAlgorithm::parse`. -/
def parse : Parser HashAlgorithm := do
  return ⟨← beU8⟩

/-- The digest length of the hash, zero when unknown. -/
def outputLen (hash : HashAlgorithm) : Nat :=
  if hash.asU8 = 1 then 16
  else if hash.asU8 = 2 then 20
  else if hash.asU8 = 3 then 28
  else if hash = sha256 then 32
  else if hash = sha384 then 48
  else if hash = sha512 then 64
  else 0

end HashAlgorithm

/-- A TLS 1.2 signature algorithm. -/
structure SignatureAlgorithm where
  asU8 : UInt8
  deriving DecidableEq, Repr

namespace SignatureAlgorithm

/-- RSA signatures. -/
def rsa : SignatureAlgorithm := ⟨1⟩

/-- ECDSA signatures. -/
def ecdsa : SignatureAlgorithm := ⟨3⟩

/-- The algorithm of an unrecognised suite. -/
def unknownDerived : SignatureAlgorithm := ⟨255⟩

/-- `SignatureAlgorithm::parse`. -/
def parse : Parser SignatureAlgorithm := do
  return ⟨← beU8⟩

end SignatureAlgorithm

/-- A record content type. -/
structure ContentType where
  asU8 : UInt8
  deriving DecidableEq, Repr

namespace ContentType

/-- The DTLS 1.2 key switch signal. -/
def changeCipherSpec : ContentType := ⟨20⟩

/-- Alerts. -/
def alert : ContentType := ⟨21⟩

/-- Handshake fragments. -/
def handshake : ContentType := ⟨22⟩

/-- Application payload; also the outer type of a DTLS 1.3 ciphertext. -/
def applicationData : ContentType := ⟨23⟩

/-- DTLS 1.3 acknowledgements. -/
def ack : ContentType := ⟨26⟩

/-- `ContentType::parse`. -/
def parse : Parser ContentType := do
  return ⟨← beU8⟩

end ContentType

/-- A record number: the key epoch and the position in it. -/
structure Sequence where
  epoch : Nat
  sequenceNumber : Nat
  deriving DecidableEq, Repr, Inhabited

namespace Sequence

/-- The first record number of an epoch. -/
def new (epoch : Nat) : Sequence := ⟨epoch, 0⟩

/-- Record numbers compare by epoch first. -/
def cmp (left right : Sequence) : Ordering :=
  if left.epoch < right.epoch then .lt
  else if left.epoch > right.epoch then .gt
  else compare left.sequenceNumber right.sequenceNumber

theorem eq_of_cmp {left right : Sequence} (equal : left.cmp right = .eq) : left = right := by
  unfold cmp at equal
  split at equal
  · cases equal
  · split at equal
    · cases equal
    · have number : left.sequenceNumber = right.sequenceNumber := Nat.compare_eq_eq.mp equal
      have epoch : left.epoch = right.epoch := by omega
      cases left
      cases right
      simp_all

end Sequence

/-- A TLS 1.3 signature scheme. -/
structure SignatureScheme where
  asU16 : Nat
  deriving DecidableEq, Repr

namespace SignatureScheme

/-- ECDSA on P-256 with SHA-256. -/
def ecdsaSecp256r1Sha256 : SignatureScheme := ⟨0x0403⟩

/-- ECDSA on P-384 with SHA-384. -/
def ecdsaSecp384r1Sha384 : SignatureScheme := ⟨0x0503⟩

/-- The schemes this implementation can use. -/
def supported : List SignatureScheme := [ecdsaSecp256r1Sha256, ecdsaSecp384r1Sha384]

/-- Membership in `supported`. -/
def isSupported (scheme : SignatureScheme) : Bool := supported.contains scheme

/-- `SignatureScheme::parse`. -/
def parse : Parser SignatureScheme := do
  return ⟨← beU16⟩

/-- The curve a scheme is bound to. -/
def namedGroup (scheme : SignatureScheme) : Option NamedGroup :=
  if scheme = ecdsaSecp256r1Sha256 then some .secp256r1
  else if scheme = ecdsaSecp384r1Sha384 then some .secp384r1
  else .none

/-- The hash of a scheme. -/
def hashAlgorithm (scheme : SignatureScheme) : HashAlgorithm :=
  if scheme.asU16 ∈ [0x0403, 0x0804, 0x0809, 0x0401] then .sha256
  else if scheme.asU16 ∈ [0x0503, 0x0805, 0x080a, 0x0501] then .sha384
  else if scheme.asU16 ∈ [0x0603, 0x0806, 0x080b, 0x0601] then .sha512
  else if scheme.asU16 ∈ [0x0807, 0x0808] then .none
  else .unknownDerived

end SignatureScheme

/-- A DTLS 1.3 cipher suite. -/
structure Dtls13CipherSuite where
  asU16 : Nat
  deriving DecidableEq, Repr

namespace Dtls13CipherSuite

/-- AES-128-GCM with SHA-256. -/
def aes128GcmSha256 : Dtls13CipherSuite := ⟨0x1301⟩

/-- AES-256-GCM with SHA-384. -/
def aes256GcmSha384 : Dtls13CipherSuite := ⟨0x1302⟩

/-- ChaCha20-Poly1305 with SHA-256. -/
def chacha20Poly1305Sha256 : Dtls13CipherSuite := ⟨0x1303⟩

/-- AES-128-CCM with SHA-256. -/
def aes128CcmSha256 : Dtls13CipherSuite := ⟨0x1304⟩

/-- AES-128-CCM-8 with SHA-256. -/
def aes128Ccm8Sha256 : Dtls13CipherSuite := ⟨0x1305⟩

/-- The suites this implementation can negotiate. -/
def supported : List Dtls13CipherSuite :=
  [aes128GcmSha256, aes256GcmSha384, chacha20Poly1305Sha256]

/-- Membership in `supported`. -/
def isSupported (suite : Dtls13CipherSuite) : Bool := supported.contains suite

/-- Whether the code point is not one of the named suites. -/
def isUnknown (suite : Dtls13CipherSuite) : Bool :=
  !([aes128GcmSha256, aes256GcmSha384, chacha20Poly1305Sha256, aes128CcmSha256,
     aes128Ccm8Sha256].contains suite)

/-- `Dtls13CipherSuite::parse`. -/
def parse : Parser Dtls13CipherSuite := do
  return ⟨← beU16⟩

/-- The transcript and key schedule hash of a suite. -/
def hashAlgorithm (suite : Dtls13CipherSuite) : HashAlgorithm :=
  if suite ∈ [aes128GcmSha256, chacha20Poly1305Sha256, aes128CcmSha256, aes128Ccm8Sha256] then
    .sha256
  else if suite = aes256GcmSha384 then .sha384
  else .unknownDerived

/-- The length of a Finished value. -/
def verifyDataLength (suite : Dtls13CipherSuite) : Nat := suite.hashAlgorithm.outputLen

end Dtls13CipherSuite

/-- A DTLS 1.2 cipher suite. -/
structure Dtls12CipherSuite where
  asU16 : Nat
  deriving DecidableEq, Repr

namespace Dtls12CipherSuite

/-- ECDHE with ECDSA, AES-256-GCM and SHA-384. -/
def ecdheEcdsaAes256GcmSha384 : Dtls12CipherSuite := ⟨0xC02C⟩

/-- ECDHE with ECDSA, AES-128-GCM and SHA-256. -/
def ecdheEcdsaAes128GcmSha256 : Dtls12CipherSuite := ⟨0xC02B⟩

/-- ECDHE with ECDSA and ChaCha20-Poly1305. -/
def ecdheEcdsaChacha20Poly1305Sha256 : Dtls12CipherSuite := ⟨0xCCA9⟩

/-- Pre-shared key with AES-128-CCM-8. -/
def pskAes128Ccm8 : Dtls12CipherSuite := ⟨0xC0A8⟩

/-- The suites this implementation can negotiate, all it names. -/
def supported : List Dtls12CipherSuite :=
  [ecdheEcdsaAes256GcmSha384, ecdheEcdsaAes128GcmSha256, ecdheEcdsaChacha20Poly1305Sha256,
   pskAes128Ccm8]

/-- Membership in `supported`. -/
def isSupported (suite : Dtls12CipherSuite) : Bool := supported.contains suite

/-- Whether the code point is not one of the named suites. -/
def isUnknown (suite : Dtls12CipherSuite) : Bool := !suite.isSupported

/-- `Dtls12CipherSuite::parse`. -/
def parse : Parser Dtls12CipherSuite := do
  return ⟨← beU16⟩

/-- The length of a Finished value, 12 for every suite. -/
def verifyDataLength (_suite : Dtls12CipherSuite) : Nat := 12

/-- Whether the suite uses ECDHE. -/
def hasEcc (suite : Dtls12CipherSuite) : Bool :=
  [ecdheEcdsaAes256GcmSha384, ecdheEcdsaAes128GcmSha256,
   ecdheEcdsaChacha20Poly1305Sha256].contains suite

/-- Whether the suite is authenticated by a pre-shared key. -/
def isPsk (suite : Dtls12CipherSuite) : Bool := suite = pskAes128Ccm8

/-- The PRF and transcript hash of a suite. -/
def hashAlgorithm (suite : Dtls12CipherSuite) : HashAlgorithm :=
  if suite = ecdheEcdsaAes256GcmSha384 then .sha384
  else if suite.isSupported then .sha256
  else .unknownDerived

/-- The signature algorithm of a suite, none for a pre-shared key. -/
def signatureAlgorithm (suite : Dtls12CipherSuite) : Option SignatureAlgorithm :=
  if suite.hasEcc then some .ecdsa
  else if suite = pskAes128Ccm8 then none
  else some .unknownDerived

end Dtls12CipherSuite

/-- A protocol version code point. -/
structure ProtocolVersion where
  asU16 : Nat
  deriving DecidableEq, Repr

namespace ProtocolVersion

/-- DTLS 1.0. -/
def dtls10 : ProtocolVersion := ⟨0xFEFF⟩

/-- DTLS 1.2. -/
def dtls12 : ProtocolVersion := ⟨0xFEFD⟩

/-- DTLS 1.3. -/
def dtls13 : ProtocolVersion := ⟨0xFEFC⟩

/-- Whether the code point is none of the three versions. -/
def isUnknown (version : ProtocolVersion) : Bool :=
  !([dtls10, dtls12, dtls13].contains version)

/-- `ProtocolVersion::parse`. -/
def parse : Parser ProtocolVersion := do
  return ⟨← beU16⟩

/-- `ProtocolVersion::serialize`. -/
def serialize (version : ProtocolVersion) : Bytes := be16 version.asU16

end ProtocolVersion

/-- A compression method. -/
structure CompressionMethod where
  asU8 : UInt8
  deriving DecidableEq, Repr

namespace CompressionMethod

/-- No compression. -/
def null : CompressionMethod := ⟨0⟩

/-- Only the null method is supported. -/
def isSupported (method : CompressionMethod) : Bool := [null].contains method

/-- `CompressionMethod::parse`. -/
def parse : Parser CompressionMethod := do
  return ⟨← beU8⟩

end CompressionMethod

/-- An opaque identifier of at most `max` bytes behind a one-byte length. -/
def parseVarArray (max : Nat) : Parser Bytes := do
  let len ← beU8
  require (len.toNat ≤ max % 256) .lengthValue
  take len.toNat

/-- `SessionId::parse`: at most 32 bytes. -/
def parseSessionId : Parser Bytes := parseVarArray 32

/-- `Cookie::parse`: at most 255 bytes. -/
def parseCookie : Parser Bytes := parseVarArray 255

/-- An SRTP protection profile. -/
inductive SrtpProfile where
  | aes128CmSha1_80
  | aeadAes128Gcm
  | aeadAes256Gcm
  deriving DecidableEq, Repr

namespace SrtpProfile

/-- The code point of a profile. -/
def asU16 : SrtpProfile → Nat
  | .aes128CmSha1_80 => 0x0001
  | .aeadAes128Gcm => 0x0007
  | .aeadAes256Gcm => 0x0008

/-- The profile of a known code point. -/
def ofU16 (value : Nat) : Option SrtpProfile :=
  if value = 0x0001 then some .aes128CmSha1_80
  else if value = 0x0007 then some .aeadAes128Gcm
  else if value = 0x0008 then some .aeadAes256Gcm
  else none

/-- `keying_material_len`: two master keys and two salts. -/
def keyingMaterialLen : SrtpProfile → Nat
  | .aes128CmSha1_80 => 16 * 2 + 14 * 2
  | .aeadAes128Gcm => 16 * 2 + 12 * 2
  | .aeadAes256Gcm => 32 * 2 + 12 * 2

end SrtpProfile

/-- The `use_srtp` extension, the same in both versions. -/
structure UseSrtpExtension where
  profiles : List SrtpProfile
  mki : Bytes
  deriving DecidableEq, Repr

namespace UseSrtpExtension

/-- All profiles in order of preference and no master key identifier. -/
def default : UseSrtpExtension :=
  ⟨[.aeadAes256Gcm, .aeadAes128Gcm, .aes128CmSha1_80], []⟩

/-- Keeps the known profiles; more of them than the three there are is a
duplicate and refused. -/
def pushProfile (profiles : List SrtpProfile) (value : Nat) :
    Except ErrorKind (List SrtpProfile) :=
  match SrtpProfile.ofU16 value with
  | some profile => pushBounded 3 .lengthValue profiles profile
  | none => .ok profiles

/-- The profile list: two bytes a profile, an odd byte at the end is refused. -/
def parseProfiles : (fuel : Nat) → List SrtpProfile → Parser (List SrtpProfile)
  | 0, profiles => pure profiles
  | fuel + 1, profiles => do
    let rest ← remaining
    if rest.length < 2 then
      require rest.isEmpty .lengthValue
      return profiles
    let value ← beU16
    match pushProfile profiles value with
    | .error kind => fail kind
    | .ok profiles => parseProfiles fuel profiles

/-- `UseSrtpExtension::parse`. -/
def parse : Parser UseSrtpExtension := do
  let profilesLength ← beU16
  let profilesData ← take profilesLength
  let (profiles, _) ← within profilesData (parseProfiles (profilesData.length + 1) [])
  let mkiLength ← beU8
  let mki ← take mkiLength.toNat
  require (← remaining).isEmpty .lengthValue
  return ⟨profiles, mki⟩

/-- `UseSrtpExtension::serialize`. -/
def serialize (ext : UseSrtpExtension) : Bytes :=
  be16 (ext.profiles.length * 2) ++ ext.profiles.flatMap (fun profile => be16 profile.asU16) ++
    UInt8.ofNat ext.mki.length :: ext.mki

end UseSrtpExtension

end Dimpl
