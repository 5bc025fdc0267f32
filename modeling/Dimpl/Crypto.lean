import Dimpl.Error

/-!
# Cryptography

The provider traits of `crypto/provider.rs` as a record of functions, so that
every result holds for every provider, and the compositions the library builds
on them: PRF, HKDF, nonces and additional data.
-/

namespace Dimpl

open Nom

/-- The bytes of an ASCII label. -/
def ascii (label : String) : Bytes := label.toList.map fun c => UInt8.ofNat c.toNat

/-- The bytes of any label. -/
def utf8 (label : String) : Bytes := label.toList.flatMap String.utf8EncodeChar

/-- A keyed AEAD: sealing appends the tag, opening removes it. -/
structure Cipher where
  encrypt : (plaintext aad nonce : Bytes) → Except CryptoError Bytes
  decrypt : (ciphertext aad nonce : Bytes) → Except CryptoError Bytes

/-- An AEAD with a tag of one length: opening gives back what was sealed. -/
def Cipher.Opens (cipher : Cipher) (tagLen : Nat) : Prop :=
  ∀ plaintext aad nonce ciphertext, cipher.encrypt plaintext aad nonce = .ok ciphertext →
    cipher.decrypt ciphertext aad nonce = .ok plaintext ∧
      ciphertext.length = plaintext.length + tagLen

/-- A started key exchange. -/
structure ActiveKeyExchange where
  group : NamedGroup
  pubKey : Bytes
  complete : (peerPub : Bytes) → Except CryptoError Bytes

/-- `SupportedKxGroup`; the entropy stands for the provider's own randomness. -/
structure SupportedKxGroup where
  name : NamedGroup
  startExchange : (entropy : Nat) → Except CryptoError ActiveKeyExchange

/-- `SupportedDtls12CipherSuite`. -/
structure SupportedDtls12CipherSuite where
  suite : Dtls12CipherSuite
  hashAlgorithm : HashAlgorithm
  macKeyLen : Nat
  encKeyLen : Nat
  fixedIvLen : Nat
  explicitNonceLen : Nat
  tagLen : Nat
  createCipher : (key : Bytes) → Except CryptoError Cipher

/-- The shortest fragment that can hold an explicit nonce and a tag. -/
def SupportedDtls12CipherSuite.minProtectedFragmentLen (suite : SupportedDtls12CipherSuite) : Nat :=
  suite.explicitNonceLen + suite.tagLen

/-- `SupportedDtls13CipherSuite`. -/
structure SupportedDtls13CipherSuite where
  suite : Dtls13CipherSuite
  keyLen : Nat
  ivLen : Nat
  tagLen : Nat
  createCipher : (key : Bytes) → Except CryptoError Cipher
  encryptSn : (snKey sample : Bytes) → Bytes

/-- The shortest fragment that can hold a tag. -/
def SupportedDtls13CipherSuite.minProtectedFragmentLen (suite : SupportedDtls13CipherSuite) : Nat :=
  suite.tagLen

/-- A loaded private key. -/
structure SigningKey where
  sign : (data : Bytes) → HashAlgorithm → Except CryptoError Bytes
  algorithm : SignatureAlgorithm
  hashAlgorithm : HashAlgorithm
  supportedHashAlgorithms : List HashAlgorithm

/-- The pluggable cryptography. `certNamedGroup` stands for the X.509 curve
lookup of `cert_named_group`. -/
structure CryptoProvider where
  kxGroups : List SupportedKxGroup
  cipherSuites : List SupportedDtls12CipherSuite
  dtls13CipherSuites : List SupportedDtls13CipherSuite
  hash : HashAlgorithm → Bytes → Bytes
  hmac : HashAlgorithm → (key data : Bytes) → Except CryptoError Bytes
  verifySignature : (certDer data signature : Bytes) → HashAlgorithm → SignatureAlgorithm →
    Except CryptoError Unit
  certNamedGroup : (certDer : Bytes) → Except CertificateError NamedGroup

namespace CryptoProvider

/-- `supported_kx_groups`. -/
def supportedKxGroups (provider : CryptoProvider) : List SupportedKxGroup :=
  provider.kxGroups.filter fun kx =>
    [NamedGroup.x25519, .secp256r1, .secp384r1].contains kx.name

/-- `has_ecdh`. -/
def hasEcdh (provider : CryptoProvider) : Bool :=
  (provider.cipherSuites.filter fun cs => cs.suite.isSupported).any fun cs => cs.suite.hasEcc

/-- `hkdf_extract`. -/
def hkdfExtract (provider : CryptoProvider) (hash : HashAlgorithm) (salt ikm : Bytes) :
    Except CryptoError Bytes :=
  let actualSalt := if salt.isEmpty then List.replicate hash.outputLen 0 else salt
  provider.hmac hash actualSalt ikm

/-- The blocks of `hkdf_expand`: the counter, the previous block and the output
so far. -/
def hkdfBlocks (provider : CryptoProvider) (hash : HashAlgorithm) (prk info : Bytes)
    (outputLen : Nat) : (rounds counter : Nat) → (previous out : Bytes) → Except CryptoError Bytes
  | 0, _, _, out => .ok out
  | rounds + 1, counter, previous, out => do
    let block ← provider.hmac hash prk (previous ++ info ++ [UInt8.ofNat counter])
    hkdfBlocks provider hash prk info outputLen rounds (counter + 1) block
      (out ++ block.take (min (outputLen - out.length) block.length))

/-- `hkdf_expand`. -/
def hkdfExpand (provider : CryptoProvider) (hash : HashAlgorithm) (prk info : Bytes)
    (outputLen : Nat) : Except CryptoError Bytes :=
  let rounds := (outputLen + hash.outputLen - 1) / hash.outputLen
  if rounds > 255 then .error .hkdfOutputTooLong
  else provider.hkdfBlocks hash prk info outputLen rounds 1 [] []

/-- `build_hkdf_label`. -/
def buildHkdfLabel (labelPrefix label context : Bytes) (outputLen : Nat) :
    Except CryptoError Bytes :=
  let fullLabelLen := labelPrefix.length + label.length
  if fullLabelLen > 255 then .error .hkdfLabelTooLong
  else if context.length > 255 then .error .hkdfContextTooLong
  else if outputLen > 65535 then .error .hkdfOutputLengthTooLarge
  else .ok (be16 outputLen ++ UInt8.ofNat fullLabelLen :: (labelPrefix ++ label) ++
    UInt8.ofNat context.length :: context)

/-- `hkdf_expand_label_dtls13`. -/
def hkdfExpandLabelDtls13 (provider : CryptoProvider) (hash : HashAlgorithm)
    (secret label context : Bytes) (outputLen : Nat) : Except CryptoError Bytes := do
  let info ← buildHkdfLabel (ascii "dtls13") label context outputLen
  provider.hkdfExpand hash secret info outputLen

/-- The rounds of `prf_tls12`: `a` is A(i), the output grows by one block a
round and a block of no bytes would make the source loop. -/
def prfBlocks (provider : CryptoProvider) (hash : HashAlgorithm) (secret labelSeed : Bytes)
    (outputLen : Nat) : (fuel : Nat) → (a out : Bytes) → Except CryptoError Bytes
  | 0, _, out => .ok out
  | fuel + 1, a, out =>
    if out.length < outputLen then do
      let block ← provider.hmac hash secret (a ++ labelSeed)
      let out := out ++ block.take (min (outputLen - out.length) block.length)
      if out.length < outputLen then
        let next ← provider.hmac hash secret a
        prfBlocks provider hash secret labelSeed outputLen fuel next out
      else
        .ok out
    else .ok out

/-- `prf_tls12`. -/
def prfTls12 (provider : CryptoProvider) (hash : HashAlgorithm) (secret : Bytes) (label : String)
    (seed : Bytes) (outputLen : Nat) : Except CryptoError Bytes := do
  let labelSeed := utf8 label ++ seed
  let a ← provider.hmac hash secret labelSeed
  provider.prfBlocks hash secret labelSeed outputLen outputLen a []

end CryptoProvider

/-- The nonce of a fixed and an explicit part. -/
def Nonce.new (iv explicitNonce : Bytes) : Bytes := iv ++ explicitNonce

/-- The exclusive or of the last eight of twelve bytes with a sequence number. -/
def Nonce.xor (iv : Bytes) (seq : Nat) : Bytes :=
  iv.take 4 ++ List.zipWith (· ^^^ ·) (iv.drop 4) (be64 seq)

/-- The additional data of a DTLS 1.2 record. -/
def Aad.newDtls12 (contentType : ContentType) (sequence : Sequence) (length : Nat) : Bytes :=
  be16 sequence.epoch ++ be48 sequence.sequenceNumber ++
    [contentType.asU8, 0xfe, 0xfd] ++ be16 length

/-- The additional data of a DTLS 1.3 record is its header. -/
def Aad.newDtls13 (header : Bytes) : Bytes := header

end Dimpl
