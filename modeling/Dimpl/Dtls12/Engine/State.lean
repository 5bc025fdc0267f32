import Dimpl.Dtls12.Context
import Dimpl.Dtls12.Record
import Dimpl.Window

/-!
# DTLS 1.2 engine: state

The fields of `Engine` and the operations on single fields. The `log` is history
and read by no function. The buffer pool is left out. 16-bit counters wrap, as
they do without overflow checks.
-/

namespace Dimpl.Dtls12

open Nom

/-- A record of the current flight, kept for retransmission. -/
structure Entry where
  contentType : ContentType
  epoch : Nat
  fragment : Bytes
  deriving DecidableEq

/-- What the history of an engine records. -/
inductive Event where
  /-- A datagram came from the network. -/
  | received (datagram : Bytes)
  /-- `decrypt_data` returned Ok on a record of `Record::parse`. -/
  | opened (contentType : ContentType) (sequence : Sequence) (record plaintext : Bytes)
  /-- `create_record_inner` placed a protected record in the transmit queue: its
  number, the explicit part of its nonce and the nonce. -/
  | sealed (sequence : Sequence) (explicitNonce nonce : Bytes)
  /-- `poll_app_data` handed out application data. -/
  | delivered (data : Bytes)
  /-- A message was put together from fragments, each with the buffer of the
  record it came in. -/
  | assembled (type : MessageType) (fragments : List (Fragment × Bytes))
  deriving DecidableEq

/-- The engine state. -/
structure Engine where
  config : Config
  rng : SeededRng
  sequenceEpoch0 : Nat
  sequenceEpochN : Nat
  queueRx : List Incoming
  queueTx : List Bytes
  cipherSuite : Option Dtls12CipherSuite
  explicitNonceLen : Nat
  minProtectedFragmentLen : Nat
  cryptoContext : CryptoContext
  peerEncryptionEnabled : Bool
  isClient : Bool
  peerHandshakeSeqNo : Nat
  nextHandshakeSeqNo : Nat
  transcript : Bytes
  replay : ReplayWindow
  flightSavedRecords : List Entry
  flightBackoff : ExponentialBackoff
  flightTimeout : Timeout
  connectTimeout : Timeout
  releaseAppData : Bool
  peerHandshakeConfirmed : Bool
  closeNotifyReceived : Bool
  closeNotifyReported : Bool
  /-- History: what happened so far, oldest first. -/
  log : List Event

/-- Programs over the engine state; the state survives an error. -/
abbrev EngineM := EStateM Fault Engine

/-- The number of queued records a scan of the handshake queue looks at. -/
def maxDefragmentPackets : Nat := 50

/-- A program over the cryptographic context. -/
def withContext {α : Type} (program : ContextM α) : EngineM α :=
  zoom Engine.cryptoContext (fun cryptoContext e => { e with cryptoContext }) program

namespace Engine

/-- `Engine::new`. The generators are arguments in place of a seed. -/
def new (config : Config) (auth : AuthMode) (rng entropy : SeededRng) : Engine :=
  let (flightBackoff, rng) := ExponentialBackoff.new config.flightStartRto config.flightRetries rng
  { config, rng
    sequenceEpoch0 := 0
    sequenceEpochN := 0
    queueRx := []
    queueTx := []
    cipherSuite := none
    explicitNonceLen := 0
    minProtectedFragmentLen := 0
    cryptoContext := .new auth entropy
    peerEncryptionEnabled := false
    isClient := false
    peerHandshakeSeqNo := 0
    nextHandshakeSeqNo := 0
    transcript := []
    replay := .new
    flightSavedRecords := []
    flightBackoff
    flightTimeout := .unarmed
    connectTimeout := .unarmed
    releaseAppData := false
    peerHandshakeConfirmed := false
    closeNotifyReceived := false
    closeNotifyReported := false
    log := [] }

/-- `set_client`. -/
def setClient (isClient : Bool) (e : Engine) : Engine := { e with isClient }

/-- `set_next_handshake_seq_no`. -/
def setNextHandshakeSeqNo (nextHandshakeSeqNo : Nat) (e : Engine) : Engine :=
  { e with nextHandshakeSeqNo }

/-- `advance_epoch_0_sequence`. -/
def advanceEpoch0Sequence (e : Engine) : Engine :=
  { e with sequenceEpoch0 := e.sequenceEpoch0 + 1 }

/-- `is_cipher_suite_allowed`. -/
def isCipherSuiteAllowed (e : Engine) (suite : Dtls12CipherSuite) : Bool :=
  e.config.dtls12CipherSuites.any fun cs => cs.suite = suite

/-- All records of the receive queue in order. -/
def rxRecords (e : Engine) : List Record := e.queueRx.flatMap Incoming.records

/-- Appends to the history. -/
def logEvent (event : Event) (e : Engine) : Engine := { e with log := e.log ++ [event] }

/-- Appends to the transcript. -/
def addToTranscript (bytes : Bytes) (e : Engine) : Engine :=
  { e with transcript := e.transcript ++ bytes }

/-- `release_application_data`. -/
def releaseApplicationData (e : Engine) : Engine := { e with releaseAppData := true }

/-- `discard_pending_writes`. -/
def discardPendingWrites (e : Engine) : Engine := { e with queueTx := [] }

/-- `abort`. -/
def abort (e : Engine) : Engine :=
  { e with
    queueTx := []
    flightSavedRecords := []
    flightTimeout := .disabled
    connectTimeout := .disabled }

/-- `flight_begin`. -/
def flightBegin (e : Engine) : Engine :=
  let (flightBackoff, rng) := e.flightBackoff.reset e.rng
  { e with flightBackoff, rng, flightSavedRecords := [], flightTimeout := .unarmed }

/-- `flight_stop_resend_timers`: at a client this also confirms the peer. -/
def flightStopResendTimers (e : Engine) : Engine :=
  { e with
    flightTimeout := .disabled
    connectTimeout := .disabled
    peerHandshakeConfirmed := e.peerHandshakeConfirmed || e.isClient }

/-- `reset_server_for_hello_verify_request`. -/
def resetServerForHelloVerifyRequest (e : Engine) : Engine :=
  { e with transcript := [], queueRx := [] }

/-- `reset_client_for_hello_verify_request`. -/
def resetClientForHelloVerifyRequest (e : Engine) : Engine := { e with transcript := [] }

/-- `transcript_hash`. -/
def transcriptHash (e : Engine) (algorithm : HashAlgorithm) : Bytes :=
  e.config.cryptoProvider.hash algorithm e.transcript

end Engine

/-- The next bytes of the generator. -/
def randomArr (count : Nat) : EngineM Bytes := do
  let e ← get
  let (bytes, rng) := e.rng.randomBytes count
  set { e with rng }
  return bytes

/-- The negotiated suite, or `NoCipherSuiteSelected`. -/
def selectedCipherSuite : EngineM Dtls12CipherSuite := do
  orThrow (.fatal (.invalidState .noCipherSuiteSelected)) (← get).cipherSuite

/-- `set_cipher_suite`: panics on a suite the provider does not have. -/
def setCipherSuite (suite : Dtls12CipherSuite) : EngineM Unit := do
  let e ← get
  let supported ← orThrow (.panic .noCipherSuite)
    (e.config.cryptoProvider.cipherSuites.find? fun cs => cs.suite = suite)
  set { e with
    explicitNonceLen := supported.explicitNonceLen
    minProtectedFragmentLen := supported.minProtectedFragmentLen
    cipherSuite := some suite }

/-- `Engine::generate_verify_data`: over the transcript so far. -/
def generateVerifyData (isClient : Bool) : EngineM Bytes := do
  let suite ← selectedCipherSuite
  let e ← get
  let hash := suite.hashAlgorithm
  let out ← liftCrypto (e.cryptoContext.generateVerifyData e.config.cryptoProvider
    (e.transcriptHash hash) isClient hash)
  if out.length ≠ 12 then throw (Fault.ofCrypto .invalidVerifyDataLength) else return out

end Dimpl.Dtls12
