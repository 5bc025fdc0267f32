import Dimpl.Config

/-!
# A provider that runs

Sums in place of cryptography: a cipher that appends a checksum over key,
additional data, nonce and text, a key exchange by multiplication and a digest
of sums. It is as correct as a real provider (what is sealed opens, what was
changed does not, both sides agree on a secret) and small enough to evaluate, so
that statements about all runs can be looked at on one.
-/

namespace Dimpl.Sample

open Nom

/-- The sum of bytes, each weighted by its place. -/
def checksum (bytes : Bytes) : Nat :=
  (bytes.foldl (fun acc byte => (acc.1 + acc.2 * byte.toNat, acc.2 + 2)) (bytes.length, 1)).1

/-- A digest of the wanted length. -/
def digest (length : Nat) (bytes : Bytes) : Bytes :=
  let sum := checksum bytes
  (be32 sum ++ be32 (sum * 7 + 1)).take length ++ List.replicate (length - 8) 0

/-- The checksum of a sealed record. -/
def tag (tagLen : Nat) (key plaintext aad nonce : Bytes) : Bytes :=
  digest tagLen (key ++ aad ++ nonce ++ plaintext)

/-- A cipher that sends the text in the clear with a checksum behind it. -/
def cipher (tagLen : Nat) (key : Bytes) : Cipher where
  encrypt := fun plaintext aad nonce => .ok (plaintext ++ tag tagLen key plaintext aad nonce)
  decrypt := fun ciphertext aad nonce =>
    let plaintext := ciphertext.take (ciphertext.length - tagLen)
    if ciphertext = plaintext ++ tag tagLen key plaintext aad nonce then .ok plaintext
    else .error (.operationFailed 1)

theorem length_tag {tagLen : Nat} {key plaintext aad nonce : Bytes} (long : 8 ≤ tagLen) :
    (tag tagLen key plaintext aad nonce).length = tagLen := by
  simp only [tag, digest, List.length_append, List.length_take, List.length_replicate]
  have eight : ∀ n m : Nat, (be32 n ++ be32 m).length = 8 := fun _ _ => rfl
  simp only [List.length_append] at eight
  rw [eight]
  omega

theorem cipher_opens {tagLen : Nat} {key : Bytes} (long : 8 ≤ tagLen) :
    (cipher tagLen key).Opens tagLen := by
  rintro plaintext aad nonce _ ⟨⟩
  have length := @length_tag tagLen key plaintext aad nonce long
  have front : (plaintext ++ tag tagLen key plaintext aad nonce).take
      ((plaintext ++ tag tagLen key plaintext aad nonce).length - tagLen) = plaintext := by
    rw [List.length_append, length, Nat.add_sub_cancel, List.take_left]
  refine ⟨?_, by rw [List.length_append, length]⟩
  simp only [cipher, front, if_true]

/-- A key exchange by multiplication of bytes. -/
def kxGroup (name : NamedGroup) : SupportedKxGroup where
  name := name
  startExchange := fun entropy => .ok
    { group := name
      pubKey := [UInt8.ofNat (entropy + 3)]
      complete := fun peerPub => .ok [UInt8.ofNat (entropy + 3) * peerPub.headD 0] }

/-- A suite of DTLS 1.2; the ChaCha20 suite has no explicit nonce. -/
def suite12 (suite : Dtls12CipherSuite) (explicitNonceLen : Nat) : SupportedDtls12CipherSuite where
  suite := suite
  hashAlgorithm := suite.hashAlgorithm
  macKeyLen := 0
  encKeyLen := 16
  fixedIvLen := 12 - explicitNonceLen
  explicitNonceLen := explicitNonceLen
  tagLen := 16
  createCipher := fun key => .ok (cipher 16 key)

/-- A suite of DTLS 1.3, its sequence numbers in the clear. -/
def suite13 : SupportedDtls13CipherSuite where
  suite := .aes128GcmSha256
  keyLen := 16
  ivLen := 12
  tagLen := 16
  createCipher := fun key => .ok (cipher 16 key)
  encryptSn := fun _ _ => List.replicate 16 0

/-- The provider. -/
def provider : CryptoProvider where
  kxGroups := [kxGroup .x25519]
  cipherSuites :=
    [suite12 .ecdheEcdsaAes128GcmSha256 8, suite12 .ecdheEcdsaChacha20Poly1305Sha256 0]
  dtls13CipherSuites := [suite13]
  hash := fun hash bytes => digest hash.outputLen bytes
  hmac := fun hash key data => .ok (digest hash.outputLen (key ++ data))
  verifySignature := fun certDer data signature _ _ =>
    if signature = digest 8 (certDer ++ data) then .ok () else .error (.operationFailed 1)
  certNamedGroup := fun _ => .ok .secp256r1

/-- The default limits and timers. -/
def config : Config where
  mtu := 1150
  maxQueueRx := 30
  maxQueueTx := 10
  requireClientCertificate := false
  useServerCookie := false
  flightStartRto := 1000000000
  flightRetries := 4
  handshakeTimeout := 40000000000
  cryptoProvider := provider
  aeadEncryptionLimit := 8388608
  dtls12CipherSuiteFilter := none
  dtls13CipherSuiteFilter := none
  kxGroupFilter := none
  psk := none
  dequeSearch := Search.DequeSearch.linear

/-- A certificate of three bytes whose key signs for it. -/
def certificate : DtlsCertificate where
  certificate := [1, 2, 3]
  signingKey :=
    { sign := fun data _ => .ok (digest 8 ([1, 2, 3] ++ data))
      algorithm := .ecdsa
      hashAlgorithm := .sha256
      supportedHashAlgorithms := [.sha256] }

/-- A generator that counts up from a start. -/
def rng (start : Nat) : SeededRng := ⟨fun position => start + position, 0⟩

end Dimpl.Sample
