import Dimpl.Dtls13.Engine.Send

/-!
# DTLS 1.3 engine: key schedule

Secrets, epoch keys and their rotation, the transcript hash and the Finished
value.
-/

namespace Dimpl.Dtls13

open Nom

/-- `hkdf_expand_label_dtls13` with the negotiated hash. -/
def expandLabel (secret : Bytes) (label : String) (context : Bytes) (outputLen : Nat) :
    EngineM Bytes := do
  let hash ← hashAlgorithm
  liftCrypto
    ((← get).config.cryptoProvider.hkdfExpandLabelDtls13 hash secret (ascii label) context outputLen)

/-- `hkdf_extract` with the negotiated hash. -/
def extract (salt ikm : Bytes) : EngineM Bytes := do
  let hash ← hashAlgorithm
  liftCrypto ((← get).config.cryptoProvider.hkdfExtract hash salt ikm)

/-- `transcript_hash_of`. -/
def transcriptHashOf (data : Bytes) : EngineM Bytes := do
  let hash ← hashAlgorithm
  return (← get).config.cryptoProvider.hash hash data

/-- `transcript_hash`. -/
def transcriptHash : EngineM Bytes := do
  transcriptHashOf (← get).transcript

/-- As many zeros as the hash has bytes; the source cuts them from 48. -/
def zeros : EngineM Bytes := do
  let hash ← hashAlgorithm
  if hash.outputLen ≤ 48 then return List.replicate hash.outputLen 0
  else throw (.panic .assertion)

/-- The digest length of the negotiated hash. -/
def hashLen : EngineM Nat := do
  return (← hashAlgorithm).outputLen

/-- `derive_early_secret`. -/
def deriveEarlySecret : EngineM Bytes := do
  let zeros ← zeros
  extract zeros zeros

/-- `derive_handshake_secrets`: the client, server and handshake secrets. -/
def deriveHandshakeSecrets (sharedSecret : Bytes) : EngineM (Bytes × Bytes × Bytes) := do
  let earlySecret ← deriveEarlySecret
  let emptyHash ← transcriptHashOf []
  let derived ← expandLabel earlySecret "derived" emptyHash (← hashLen)
  let handshakeSecret ← extract derived sharedSecret
  let transcriptHash ← transcriptHash
  let cHsTraffic ← expandLabel handshakeSecret "c hs traffic" transcriptHash (← hashLen)
  let sHsTraffic ← expandLabel handshakeSecret "s hs traffic" transcriptHash (← hashLen)
  return (cHsTraffic, sHsTraffic, handshakeSecret)

/-- `derive_application_secrets`: the client and server secrets. -/
def deriveApplicationSecrets (handshakeSecret : Bytes) : EngineM (Bytes × Bytes) := do
  let emptyHash ← transcriptHashOf []
  let derived ← expandLabel handshakeSecret "derived" emptyHash (← hashLen)
  let zeros ← zeros
  let masterSecret ← extract derived zeros
  let transcriptHash ← transcriptHash
  let expMaster ← expandLabel masterSecret "exp master" transcriptHash (← hashLen)
  let cApTraffic ← expandLabel masterSecret "c ap traffic" transcriptHash (← hashLen)
  let sApTraffic ← expandLabel masterSecret "s ap traffic" transcriptHash (← hashLen)
  modify fun (e : Engine) => { e with exporterMasterSecret := some expMaster }
  return (cApTraffic, sApTraffic)

/-- Gives a derived key its place in the history. -/
def numberKeys (epoch : Nat) (cipher : Cipher) (iv trafficSecret snKey : Bytes) :
    EngineM EpochKeys := do
  let e ← get
  set { e with installations := e.installations + 1 }
  return { cipher, iv, trafficSecret, snKey, id := ⟨e.installations, epoch⟩ }

/-- `derive_epoch_keys`. The epoch goes into the history only. -/
def deriveEpochKeys (epoch : Nat) (trafficSecret : Bytes) : EngineM EpochKeys := do
  let suite ← suiteProvider
  let key ← expandLabel trafficSecret "key" [] suite.keyLen
  let iv ← expandLabel trafficSecret "iv" [] suite.ivLen
  let snKey ← expandLabel trafficSecret "sn" [] suite.keyLen
  let cipher ← liftCrypto (suite.createCipher key)
  if iv.length = 12 then numberKeys epoch cipher iv trafficSecret snKey
  else throw (.panic .assertion)

/-- `install_handshake_keys`. -/
def installHandshakeKeys (clientTrafficSecret serverTrafficSecret : Bytes) : EngineM Unit := do
  let e ← get
  let (sendSecret, recvSecret) :=
    if e.isClient then (clientTrafficSecret, serverTrafficSecret)
    else (serverTrafficSecret, clientTrafficSecret)
  let sendKeys ← deriveEpochKeys 2 sendSecret
  modify fun (e : Engine) => { e with hsSendKeys := some sendKeys }
  let recvKeys ← deriveEpochKeys 2 recvSecret
  modify fun (e : Engine) => { e with hsRecvKeys := some recvKeys, hsSendSeq := 0 }

/-- Receive keys of an epoch with nothing received yet. -/
def RecvEpochEntry.fresh (epoch : Nat) (keys : EpochKeys) : RecvEpochEntry :=
  { epoch, keys, expectedRecvSeq := 0, replay := .new }

/-- Adds the receive keys of an epoch; there is room for four. -/
def pushRecvEpoch (epoch : Nat) (keys : EpochKeys) : EngineM Unit := do
  let e ← get
  if e.appRecvKeys.length < 4 then
    set { e with appRecvKeys := e.appRecvKeys ++ [RecvEpochEntry.fresh epoch keys] }
  else throw (.panic .capacityExceeded)

/-- `install_application_keys`. -/
def installApplicationKeys (clientTrafficSecret serverTrafficSecret : Bytes) : EngineM Unit := do
  let e ← get
  let (sendSecret, recvSecret) :=
    if e.isClient then (clientTrafficSecret, serverTrafficSecret)
    else (serverTrafficSecret, clientTrafficSecret)
  let sendKeys ← deriveEpochKeys 3 sendSecret
  modify fun (e : Engine) => { e with appSendKeys := some sendKeys }
  let recvKeys ← deriveEpochKeys 3 recvSecret
  pushRecvEpoch 3 recvKeys
  modify fun (e : Engine) => { e with appSendEpoch := 3, appSendSeq := 0 }

/-- `derive_next_traffic_secret`. -/
def deriveNextTrafficSecret (current : Bytes) : EngineM Bytes := do
  expandLabel current "traffic upd" [] (← hashLen)

/-- `update_send_keys`: the current keys are taken out first and become the
previous ones once the new ones exist. -/
def updateSendKeys : EngineM Unit := do
  let e ← get
  let currentKeys ← orThrow (.fatal (.invalidState .noCurrentAppSendKeysForKeyUpdate)) e.appSendKeys
  modify fun (e : Engine) => { e with appSendKeys := none }
  let nextSecret ← deriveNextTrafficSecret currentKeys.trafficSecret
  let newKeys ← deriveEpochKeys ((e.appSendEpoch + 1) % 65536) nextSecret
  modify fun (e : Engine) =>
    let (aeadEncryptionThreshold, rng) := jitteredAeadThreshold e.config.aeadEncryptionLimit e.rng
    { e with
      prevAppSendKeys := some currentKeys
      prevAppSendEpoch := e.appSendEpoch
      prevAppSendSeq := e.appSendSeq
      appSendKeys := some newKeys
      appSendEpoch := (e.appSendEpoch + 1) % 65536
      appSendSeq := 0
      appSendRecordCount := 0
      aeadEncryptionThreshold, rng
      needsKeyUpdate := false }

/-- `update_recv_keys`: the oldest of four receive epochs makes room. -/
def updateRecvKeys : EngineM Unit := do
  let e ← get
  let latest ← orThrow (.fatal (.invalidState .noCurrentAppRecvKeysForKeyUpdate))
    e.appRecvKeys.getLast?
  let nextSecret ← deriveNextTrafficSecret latest.keys.trafficSecret
  let newKeys ← deriveEpochKeys ((latest.epoch + 1) % 65536) nextSecret
  modify fun (e : Engine) => { e with
    appRecvKeys := if e.appRecvKeys.length ≥ 4 then e.appRecvKeys.tail else e.appRecvKeys }
  pushRecvEpoch ((latest.epoch + 1) % 65536) newKeys

/-- `create_key_update`: the message is sent on the current epoch, then the send
keys rotate. -/
def createKeyUpdate (request : KeyUpdateRequest) : EngineM Unit := do
  modify Engine.flightBegin
  let e ← get
  set { e with nextHandshakeSeqNo := (e.nextHandshakeSeqNo + 1) % 65536 }
  let header : Header :=
    { msgType := .keyUpdate, length := 1, messageSeq := e.nextHandshakeSeqNo,
      fragmentOffset := 0, fragmentLength := 1 }
  createCiphertextRecord .handshake e.appSendEpoch true (header.serializeFragment [request.asU8])
  updateSendKeys

/-- `compute_verify_data`: HMAC of the transcript hash under the finished key. -/
def computeVerifyData (trafficSecret : Bytes) : EngineM Bytes := do
  let finishedKey ← expandLabel trafficSecret "finished" [] (← hashLen)
  let transcriptHash ← transcriptHash
  extract finishedKey transcriptHash

/-- `replace_transcript_with_message_hash`: the first part of the transcript is
replaced by its hash, the rest stays. -/
def replaceTranscriptWithMessageHash (splitAt : Nat) : EngineM Unit := do
  let e ← get
  let hashValue ← transcriptHashOf (e.transcript.take splitAt)
  set { e with transcript :=
    0xFE :: be24 hashValue.length ++ hashValue ++ e.transcript.drop splitAt }

/-- `verify_signature`. -/
def verifySignature (certDer data signature : Bytes) (hash : HashAlgorithm)
    (algorithm : SignatureAlgorithm) : EngineM Unit := do
  liftCrypto ((← get).config.cryptoProvider.verifySignature certDer data signature hash algorithm)

/-- The exported key length of an SRTP profile. -/
def keyingMaterialLen : SrtpProfile → Nat
  | .aes128CmSha1_80 => 16 * 2 + 14 * 2
  | .aeadAes128Gcm => 16 * 2 + 12 * 2
  | .aeadAes256Gcm => 32 * 2 + 12 * 2

/-- `extract_srtp_keying_material`. -/
def extractSrtpKeyingMaterial (profile : SrtpProfile) : EngineM Bytes := do
  let expMaster ← orThrow (Fault.ofCrypto .exporterMasterSecretNotDerived)
    (← get).exporterMasterSecret
  let emptyHash ← transcriptHashOf []
  let derived ← expandLabel expMaster "EXTRACTOR-dtls_srtp" emptyHash (← hashLen)
  let contextHash ← transcriptHashOf []
  expandLabel derived "exporter" contextHash (keyingMaterialLen profile)

end Dimpl.Dtls13
