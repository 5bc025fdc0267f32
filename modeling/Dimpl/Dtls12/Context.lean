import Dimpl.Config
import Dimpl.Dtls12.Message
import Dimpl.Effect

/-!
# DTLS 1.2 cryptographic context

The secrets and ciphers of a session. Operations that fail half-way keep what
they did. MAC keys are cut out of the key block and read by nothing, so only
their length is here.
-/

namespace Dimpl.Dtls12

open Nom

/-- How this side authenticates. -/
inductive AuthMode where
  | certificate (certificate : DtlsCertificate)
  | psk

/-- `CryptoContext`. `entropy` stands for the provider's own randomness, which is
not the generator of the engine. -/
structure CryptoContext where
  keyExchange : Option ActiveKeyExchange
  keyExchangePublicKey : Option Bytes
  keyExchangeGroup : Option NamedGroup
  clientWriteKey : Option Bytes
  serverWriteKey : Option Bytes
  clientWriteIv : Option Bytes
  serverWriteIv : Option Bytes
  masterSecret : Option Bytes
  preMasterSecret : Option Bytes
  clientCipher : Option Cipher
  serverCipher : Option Cipher
  auth : AuthMode
  psk : Option Bytes
  clientRandom : Option Bytes
  serverRandom : Option Bytes
  entropy : SeededRng

/-- Programs over the context. -/
abbrev ContextM := EStateM Fault CryptoContext

/-- A fixed IV is at most twelve bytes; `Iv::new` asserts it. -/
def ivNew (bytes : Bytes) : ContextM Bytes :=
  if bytes.length ≤ 12 then pure bytes else throw (.panic .assertion)

namespace CryptoContext

/-- `CryptoContext::new`. -/
def new (auth : AuthMode) (entropy : SeededRng) : CryptoContext where
  keyExchange := none
  keyExchangePublicKey := none
  keyExchangeGroup := none
  clientWriteKey := none
  serverWriteKey := none
  clientWriteIv := none
  serverWriteIv := none
  masterSecret := none
  preMasterSecret := none
  clientCipher := none
  serverCipher := none
  auth := auth
  psk := none
  clientRandom := none
  serverRandom := none
  entropy := entropy

/-- `maybe_init_key_exchange`: the public key, kept for later. -/
def maybeInitKeyExchange : ContextM Bytes := do
  let c ← get
  match c.keyExchangePublicKey with
  | some publicKey => return publicKey
  | none =>
    let exchange ← orThrow (Fault.ofCrypto .keyExchangeNotInitialized) c.keyExchange
    set { c with keyExchangePublicKey := some exchange.pubKey
                 keyExchangeGroup := some exchange.group }
    return exchange.pubKey

/-- `compute_shared_secret`: uses the exchange up, also when it fails. -/
def computeSharedSecret (peerPublicKey : Bytes) : ContextM Unit := do
  let c ← get
  let exchange ← orThrow (Fault.ofCrypto .keyExchangeNotInitialized) c.keyExchange
  set { c with keyExchange := none }
  let secret ← liftCrypto (exchange.complete peerPublicKey)
  modify fun (c : CryptoContext) => { c with preMasterSecret := some secret }

/-- `set_psk`. -/
def setPsk (psk : Bytes) (c : CryptoContext) : CryptoContext := { c with psk := some psk }

/-- `compute_psk_pre_master_secret`: a length, as many zeros, the length again and
the key. -/
def computePskPreMasterSecret : ContextM Unit := do
  let c ← get
  let psk ← orThrow (Fault.ofCrypto .pskNotSet) c.psk
  let secret := be16 psk.length ++ List.replicate psk.length 0 ++ be16 psk.length ++ psk
  set { c with preMasterSecret := some secret }

/-- Starts a key exchange in a group of the provider. -/
def startExchange (provider : CryptoProvider) (group : NamedGroup) : ContextM Unit := do
  let c ← get
  let kx ← orThrow (Fault.ofCrypto (.unsupportedEcdheNamedGroup group))
    (provider.supportedKxGroups.find? fun kx => kx.name = group)
  let (entropy, rest) := c.entropy.random (2 ^ 64)
  set { c with entropy := rest }
  let exchange ← liftCrypto (kx.startExchange entropy)
  modify fun (c : CryptoContext) => { c with keyExchange := some exchange }

/-- `init_ecdh_server`. -/
def initEcdhServer (provider : CryptoProvider) (group : NamedGroup) : ContextM Bytes := do
  startExchange provider group
  maybeInitKeyExchange

/-- `process_ecdh_params`. -/
def processEcdhParams (provider : CryptoProvider) (group : NamedGroup) (serverPublic : Bytes) :
    ContextM Unit := do
  startExchange provider group
  let _ ← maybeInitKeyExchange
  computeSharedSecret serverPublic

/-- `derive_extended_master_secret`. -/
def deriveExtendedMasterSecret (provider : CryptoProvider) (sessionHash : Bytes)
    (hash : HashAlgorithm) : ContextM Unit := do
  let c ← get
  let preMasterSecret ← orThrow (Fault.ofCrypto .preMasterSecretNotAvailable) c.preMasterSecret
  let out ← liftCrypto (provider.prfTls12 hash preMasterSecret "extended master secret" sessionHash 48)
  if out.length > 128 then throw (Fault.ofCrypto .masterSecretTooLong)
  else set { c with masterSecret := some out, preMasterSecret := none }

/-- `derive_keys`. The IVs are in place before the ciphers are made, so a cipher
that cannot be made leaves them behind. -/
def deriveKeys (provider : CryptoProvider) (suite : Dtls12CipherSuite)
    (clientRandom serverRandom : Bytes) : ContextM Unit := do
  let c ← get
  let masterSecret ← orThrow (Fault.ofCrypto .masterSecretNotAvailable) c.masterSecret
  set { c with clientRandom := some clientRandom, serverRandom := some serverRandom }
  let supported ← orThrow (Fault.ofCrypto (.unsupportedCipherSuite suite))
    (provider.cipherSuites.find? fun cs => cs.suite = suite)
  let encKeyLen := supported.encKeyLen
  let fixedIvLen := supported.fixedIvLen
  let keyMaterialLen := 2 * (supported.macKeyLen + encKeyLen + fixedIvLen)
  let keyBlock ← liftCrypto (provider.prfTls12 suite.hashAlgorithm masterSecret "key expansion"
    (serverRandom ++ clientRandom) keyMaterialLen)
  if keyBlock.length < keyMaterialLen then
    -- A range of the key block outside of it.
    throw (.panic .assertion)
  else
    let keys := keyBlock.drop (2 * supported.macKeyLen)
    let ivs := keys.drop (2 * encKeyLen)
    let clientWriteKey := keys.take encKeyLen
    let serverWriteKey := (keys.drop encKeyLen).take encKeyLen
    modify fun (c : CryptoContext) =>
      { c with clientWriteKey := some clientWriteKey, serverWriteKey := some serverWriteKey }
    let clientWriteIv ← ivNew (ivs.take fixedIvLen)
    modify fun (c : CryptoContext) => { c with clientWriteIv := some clientWriteIv }
    let serverWriteIv ← ivNew ((ivs.drop fixedIvLen).take fixedIvLen)
    modify fun (c : CryptoContext) => { c with serverWriteIv := some serverWriteIv }
    let clientCipher ← liftCrypto (supported.createCipher clientWriteKey)
    modify fun (c : CryptoContext) => { c with clientCipher := some clientCipher }
    let serverCipher ← liftCrypto (supported.createCipher serverWriteKey)
    modify fun (c : CryptoContext) => { c with serverCipher := some serverCipher }

/-- The cipher of the records a side writes, or its error. -/
def writeCipher (c : CryptoContext) (isClient : Bool) : Except CryptoError Cipher :=
  if isClient then
    match c.clientCipher with
    | some cipher => .ok cipher
    | none => .error .clientCipherNotInitialized
  else
    match c.serverCipher with
    | some cipher => .ok cipher
    | none => .error .serverCipherNotInitialized

/-- The fixed IV of the records a side writes. -/
def writeIv (c : CryptoContext) (isClient : Bool) : Option Bytes :=
  if isClient then c.clientWriteIv else c.serverWriteIv

/-- `serialize_client_certificate`: panics without a certificate. -/
def serializeClientCertificate : ContextM Bytes := do
  match (← get).auth with
  | .certificate cert => return serializeCertificate [cert.certificate]
  | .psk => throw (.panic .assertion)

/-- `sign_data`. -/
def signData (data : Bytes) (hash : HashAlgorithm) : ContextM Bytes := do
  match (← get).auth with
  | .certificate cert => liftCrypto (cert.signingKey.sign data hash)
  | .psk => throw (Fault.ofCrypto .noPrivateKeyConfigured)

/-- `generate_verify_data`. -/
def generateVerifyData (c : CryptoContext) (provider : CryptoProvider) (handshakeHash : Bytes)
    (isClient : Bool) (hash : HashAlgorithm) : Except CryptoError Bytes := do
  match c.masterSecret with
  | none => throw .masterSecretNotAvailable
  | some masterSecret =>
    let out ← provider.prfTls12 hash masterSecret
      (if isClient then "client finished" else "server finished") handshakeHash 12
    if out.length > 128 then throw .verifyDataTooLong else return out

/-- `extract_srtp_keying_material`. -/
def extractSrtpKeyingMaterial (c : CryptoContext) (provider : CryptoProvider)
    (profile : SrtpProfile) (hash : HashAlgorithm) : Except CryptoError Bytes :=
  match c.masterSecret, c.clientRandom, c.serverRandom with
  | none, _, _ => .error .masterSecretNotAvailable
  | _, none, _ => .error .clientRandomNotAvailable
  | _, _, none => .error .serverRandomNotAvailable
  | some masterSecret, some clientRandom, some serverRandom => do
    let out ← provider.prfTls12 hash masterSecret "EXTRACTOR-dtls_srtp"
      (clientRandom ++ serverRandom) profile.keyingMaterialLen
    if out.length > 88 then throw .keyingMaterialTooLong else return out

/-- `signature_algorithm`: none with a pre-shared key. -/
def signatureAlgorithm (c : CryptoContext) : Option SignatureAlgorithm :=
  match c.auth with
  | .certificate cert => some cert.signingKey.algorithm
  | .psk => none

/-- `private_key_default_hash_algorithm`. -/
def privateKeyDefaultHashAlgorithm (c : CryptoContext) : Option HashAlgorithm :=
  match c.auth with
  | .certificate cert => some cert.signingKey.hashAlgorithm
  | .psk => none

/-- `private_key_supported_hash_algorithms`. -/
def privateKeySupportedHashAlgorithms (c : CryptoContext) : List HashAlgorithm :=
  match c.auth with
  | .certificate cert => cert.signingKey.supportedHashAlgorithms
  | .psk => []

/-- `get_key_exchange_group_info` without the curve type, which is always a named
curve. -/
def getKeyExchangeGroupInfo (c : CryptoContext) : Option NamedGroup :=
  match c.keyExchangeGroup with
  | some group => some group
  | none => c.keyExchange.map ActiveKeyExchange.group

/-- `is_cipher_suite_compatible`. -/
def isCipherSuiteCompatible (c : CryptoContext) (suite : Dtls12CipherSuite) : Bool :=
  match c.auth, suite.signatureAlgorithm with
  | .certificate cert, some algorithm => algorithm = cert.signingKey.algorithm
  | .psk, none => true
  | _, _ => false

/-- `verify_signature`. -/
def verifySignature (provider : CryptoProvider) (data : Bytes)
    (algorithm : SignatureAndHashAlgorithm) (signature certDer : Bytes) : Except CryptoError Unit :=
  provider.verifySignature certDer data signature algorithm.hash algorithm.signature

end CryptoContext

end Dimpl.Dtls12
