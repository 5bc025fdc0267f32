import Dimpl.Config
import Dimpl.Dtls13.Record
import Dimpl.Effect
import Dimpl.Window

/-!
# DTLS 1.3 engine: state

The fields of `Engine` and the operations on single fields. Two parts of the
state are history and read by no function: the `log` of what happened to
protected records and application data, and the `KeyId` that tells derived keys
apart. The buffer pool is left out. 16-bit counters wrap, as they
do without overflow checks.
-/

namespace Dimpl.Dtls13

open Nom

/-- History: tells derived keys apart. -/
structure KeyId where
  /-- The number of the key among all keys derived so far. -/
  installation : Nat
  /-- The epoch the key was derived for. -/
  epoch : Nat
  deriving DecidableEq

/-- The keys of one direction of an epoch. -/
structure EpochKeys where
  cipher : Cipher
  iv : Bytes
  trafficSecret : Bytes
  snKey : Bytes
  id : KeyId

/-- Receive keys of an application epoch with their replay state. -/
structure RecvEpochEntry where
  epoch : Nat
  keys : EpochKeys
  expectedRecvSeq : Nat
  replay : ReplayWindow

/-- A record of the current flight, kept for retransmission. -/
structure Entry where
  contentType : ContentType
  epoch : Nat
  sendSeq : Nat
  fragment : Bytes
  acked : Bool

/-- What the history of an engine records. -/
inductive Event where
  /-- A datagram came from the network. -/
  | received (datagram : Bytes)
  /-- `decrypt_record` returned Ok on a record of `Record::parse`. -/
  | opened (key : KeyId) (sequence : Sequence) (record plaintext : Bytes)
  /-- `create_ciphertext_record` placed a record in the transmit queue. -/
  | sealed (key : KeyId) (sequence : Sequence)
  /-- `poll_app_data` handed out application data. -/
  | delivered (data : Bytes)
  /-- A message was put together from fragments, each with the buffer of the
  record it came in. -/
  | assembled (type : MessageType) (fragments : List (Fragment × Bytes))
  deriving DecidableEq

/-- The engine state. -/
structure Engine where
  config : Config
  certificate : DtlsCertificate
  rng : SeededRng
  sequenceEpoch0 : Nat
  queueRx : List Incoming
  queueTx : List Bytes
  cipherSuite : Option Dtls13CipherSuite
  hsSendKeys : Option EpochKeys
  hsRecvKeys : Option EpochKeys
  hsExpectedRecvSeq : Nat
  appSendEpoch : Nat
  hsSendSeq : Nat
  appSendSeq : Nat
  appSendKeys : Option EpochKeys
  prevAppSendKeys : Option EpochKeys
  prevAppSendEpoch : Nat
  prevAppSendSeq : Nat
  appRecvKeys : List RecvEpochEntry
  peerEncryptionEnabled : Bool
  isClient : Bool
  peerHandshakeSeqNo : Nat
  nextHandshakeSeqNo : Nat
  transcript : Bytes
  hsReplay : ReplayWindow
  receivedRecordNumbers : List (Nat × Nat)
  handshakeAckDeadline : Option Instant
  datagramSealed : Bool
  flightSavedRecords : List Entry
  flightBackoff : ExponentialBackoff
  flightTimeout : Timeout
  connectTimeout : Timeout
  releaseAppData : Bool
  exporterMasterSecret : Option Bytes
  appSendRecordCount : Nat
  aeadEncryptionThreshold : Nat
  needsKeyUpdate : Bool
  closeNotifySequence : Option Sequence
  closeNotifyReported : Bool
  /-- History: what happened so far, oldest first. -/
  log : List Event
  /-- History: how many keys were derived so far. -/
  installations : Nat

/-- Programs over the engine state; the state survives an error. -/
abbrev EngineM := EStateM Fault Engine

/-- The largest record sequence number, 2^48 - 1. -/
def maxSequenceNumber : Nat := 2 ^ 48 - 1

/-- The number of queued records a scan of the handshake queue looks at. -/
def maxDefragmentPackets : Nat := 50

/-- `jittered_aead_threshold`: a draw from the upper quarter below the limit. -/
def jitteredAeadThreshold (limit : Nat) (rng : SeededRng) : Nat × SeededRng :=
  let quarter := limit / 4
  if quarter = 0 then (limit, rng)
  else
    let (draw, rng) := rng.random (2 ^ 64)
    (limit - quarter + draw % (quarter + 1), rng)

/-- `epoch_for_message`: the hellos are plaintext, all else is epoch 2. -/
def epochForMessage (type : MessageType) : Nat :=
  if type = .clientHello ∨ type = .serverHello then 0 else 2

namespace Engine

/-- `Engine::new`. The generator is an argument in place of a seed. -/
def new (config : Config) (certificate : DtlsCertificate) (rng : SeededRng) : Engine :=
  let (flightBackoff, rng) := ExponentialBackoff.new config.flightStartRto config.flightRetries rng
  let (aeadEncryptionThreshold, rng) := jitteredAeadThreshold config.aeadEncryptionLimit rng
  { config, certificate, rng
    sequenceEpoch0 := 0
    queueRx := []
    queueTx := []
    cipherSuite := none
    hsSendKeys := none
    hsRecvKeys := none
    hsExpectedRecvSeq := 0
    appSendEpoch := 3
    hsSendSeq := 0
    appSendSeq := 0
    appSendKeys := none
    prevAppSendKeys := none
    prevAppSendEpoch := 0
    prevAppSendSeq := 0
    appRecvKeys := []
    peerEncryptionEnabled := false
    isClient := false
    peerHandshakeSeqNo := 0
    nextHandshakeSeqNo := 0
    transcript := []
    hsReplay := .new
    receivedRecordNumbers := []
    handshakeAckDeadline := none
    datagramSealed := false
    flightSavedRecords := []
    flightBackoff
    flightTimeout := .unarmed
    connectTimeout := .unarmed
    releaseAppData := false
    exporterMasterSecret := none
    appSendRecordCount := 0
    aeadEncryptionThreshold
    needsKeyUpdate := false
    closeNotifySequence := none
    closeNotifyReported := false
    log := []
    installations := 0 }

/-- `set_client`. -/
def setClient (isClient : Bool) (e : Engine) : Engine := { e with isClient }

/-- `inject_hybrid_client_hello`. -/
def injectHybridClientHello (transcriptBytes : Bytes) (e : Engine) : Engine :=
  { e with
    transcript := e.transcript ++ transcriptBytes
    nextHandshakeSeqNo := 1
    sequenceEpoch0 :=
      if e.sequenceEpoch0 < maxSequenceNumber then e.sequenceEpoch0 + 1 else e.sequenceEpoch0 }

/-- `set_cipher_suite`. -/
def setCipherSuite (suite : Dtls13CipherSuite) (e : Engine) : Engine :=
  { e with cipherSuite := some suite }

/-- `is_key_update_in_flight`. -/
def isKeyUpdateInFlight (e : Engine) : Bool := e.prevAppSendKeys.isSome

/-- `is_cipher_suite_allowed`. -/
def isCipherSuiteAllowed (e : Engine) (suite : Dtls13CipherSuite) : Bool :=
  e.config.dtls13CipherSuites.any fun cs => cs.suite = suite

/-- `find_kx_group`. -/
def findKxGroup (e : Engine) (group : NamedGroup) : Option SupportedKxGroup :=
  e.config.kxGroups.find? fun kx => kx.name = group

/-- The provider of the negotiated suite; `suite_provider` panics without one. -/
def suiteProvider (e : Engine) : Option SupportedDtls13CipherSuite :=
  e.cipherSuite.bind fun suite =>
    e.config.cryptoProvider.dtls13CipherSuites.find? fun cs => cs.suite = suite

/-- All records of the receive queue in order. -/
def rxRecords (e : Engine) : List Record := e.queueRx.flatMap Incoming.records

/-- Appends to the history. -/
def logEvent (event : Event) (e : Engine) : Engine := { e with log := e.log ++ [event] }

/-- `advance_peer_handshake_seq`. -/
def advancePeerHandshakeSeq (e : Engine) : Engine :=
  { e with peerHandshakeSeqNo := (e.peerHandshakeSeqNo + 1) % 65536 }

/-- `release_application_data`: also clears the handshake receive keys. -/
def releaseApplicationData (e : Engine) : Engine :=
  { e with releaseAppData := true, hsRecvKeys := none }

/-- `close_notify_received`. -/
def closeNotifyReceived (e : Engine) : Bool := e.closeNotifySequence.isSome

/-- `cancel_flights`. -/
def cancelFlights (e : Engine) : Engine :=
  { e with
    flightSavedRecords := []
    flightTimeout := .disabled
    connectTimeout := .disabled
    handshakeAckDeadline := none }

/-- `abort`. -/
def abort (e : Engine) : Engine :=
  { e with
    queueTx := []
    flightSavedRecords := []
    flightTimeout := .disabled
    connectTimeout := .disabled
    handshakeAckDeadline := none }

/-- `flight_clear_resends`. -/
def flightClearResends (e : Engine) : Engine := { e with flightSavedRecords := [] }

/-- `flight_begin`. -/
def flightBegin (e : Engine) : Engine :=
  let (flightBackoff, rng) := e.flightBackoff.reset e.rng
  { e with flightBackoff, rng, flightSavedRecords := [], flightTimeout := .unarmed }

/-- `flight_stop_resend_timers`. -/
def flightStopResendTimers (e : Engine) : Engine :=
  { e with flightTimeout := .disabled, connectTimeout := .disabled }

/-- `reset_for_hello_retry`. -/
def resetForHelloRetry (e : Engine) : Engine :=
  { e with
    hsSendSeq := 0
    handshakeAckDeadline := none
    queueRx := e.queueRx.filter fun item => !item.first.isHandled }

end Engine

/-- `random_arr`: the next bytes of the generator. -/
def randomArr (count : Nat) : EngineM Bytes := do
  let e ← get
  let (bytes, rng) := e.rng.randomBytes count
  set { e with rng }
  return bytes

/-- `suite_provider`. -/
def suiteProvider : EngineM SupportedDtls13CipherSuite := do
  orThrow (.panic .noCipherSuite) (← get).suiteProvider

/-- `hash_algorithm`. -/
def hashAlgorithm : EngineM HashAlgorithm := do
  let suite ← orThrow (.panic .noCipherSuite) (← get).cipherSuite
  return suite.hashAlgorithm

/-- `needs_key_update`: reads and clears the flag. -/
def needsKeyUpdate : EngineM Bool := do
  let e ← get
  set { e with needsKeyUpdate := false }
  return e.needsKeyUpdate

end Dimpl.Dtls13
