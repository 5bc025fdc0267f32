import Dimpl.Dtls12.Engine.State

/-!
# DTLS 1.2 engine: sending

Building records, fragmenting handshake messages and retransmitting a flight.
-/

namespace Dimpl.Dtls12

open Nom

namespace Engine

/-- Whether a record of this length may go behind the last queued datagram. -/
def canAppend (e : Engine) (forceNewDatagram : Bool) (recordWireLen : Nat) : Bool :=
  match e.queueTx.getLast? with
  | some last => !forceNewDatagram && last.length + recordWireLen ≤ e.config.mtu
  | none => false

/-- Puts a record behind the last datagram or into a fresh one. -/
def enqueueRecord (e : Engine) (append : Bool) (bytes : Bytes) : Engine :=
  if append then
    { e with queueTx := e.queueTx.dropLast ++ [e.queueTx.getLastD [] ++ bytes] }
  else { e with queueTx := e.queueTx ++ [bytes] }

/-- The number of the next record: epochs from 1 on share one counter, which is
of epoch 1. -/
def nextSequence (e : Engine) (epoch : Nat) : Sequence :=
  if epoch = 0 then ⟨0, e.sequenceEpoch0⟩ else ⟨1, e.sequenceEpochN⟩

/-- Counts a record; there is no limit. -/
def countRecord (e : Engine) (epoch : Nat) : Engine :=
  if epoch = 0 then { e with sequenceEpoch0 := e.sequenceEpoch0 + 1 }
  else { e with sequenceEpochN := e.sequenceEpochN + 1 }

end Engine

/-- Keeps a record for retransmission. -/
def saveEntry (entry : Entry) : EngineM Unit :=
  modify fun (e : Engine) => { e with flightSavedRecords := e.flightSavedRecords ++ [entry] }

/-- Refuses a record that would need a datagram too many. -/
def checkQueueTx (append : Bool) : EngineM Unit := do
  let e ← get
  if !append && e.queueTx.length ≥ e.config.maxQueueTx then
    throw (.fatal .transmitQueueFull)
  else pure ()

/-- Epoch and number of a record in one 64-bit word. -/
def seq64 (sequence : Sequence) : Nat :=
  ((sequence.epoch * 2 ^ 48) ||| sequence.sequenceNumber) % 2 ^ 64

/-- `Nonce::xor` on a twelve byte IV, which `as_12_bytes` asserts. -/
def xorNonce (iv : Bytes) (sequence : Sequence) : EngineM Bytes :=
  if iv.length = 12 then return Nonce.xor iv (seq64 sequence) else throw (.panic .assertion)

/-- `Nonce::new`, which asserts twelve bytes in all. -/
def joinNonce (iv explicitNonce : Bytes) : EngineM Bytes :=
  if iv.length + explicitNonce.length = 12 then return Nonce.new iv explicitNonce
  else throw (.panic .assertion)

/-- The explicit part of a nonce and the nonce of a record to send. The explicit
part is random and not the sequence number. -/
def sendNonce (suite : Dtls12CipherSuite) (iv : Bytes) (sequence : Sequence) :
    EngineM (Bytes × Bytes) := do
  let e ← get
  if e.explicitNonceLen = 0 then
    let nonce ← xorNonce iv sequence
    return ([], nonce)
  else if e.explicitNonceLen = DTLSRecord.explicitNonceLength then
    let explicitNonce ← randomArr DTLSRecord.explicitNonceLength
    let nonce ← joinNonce iv explicitNonce
    return (explicitNonce, nonce)
  else
    throw (Fault.ofCrypto (.unsupportedDtls12RecordIvLen (min e.explicitNonceLen 65535) suite))

/-- A protected fragment: the explicit nonce in front of the ciphertext, with the
nonce that was used. -/
def protectFragment (contentType : ContentType) (sequence : Sequence) (fragment : Bytes) :
    EngineM (Bytes × Bytes × Bytes) := do
  let suite ← selectedCipherSuite
  let e ← get
  let iv ← orThrow (Fault.ofCrypto (.writeIvNotAvailable e.isClient))
    (e.cryptoContext.writeIv e.isClient)
  let (explicitNonce, nonce) ← sendNonce suite iv sequence
  let cipher ← liftCrypto (e.cryptoContext.writeCipher e.isClient)
  let ciphertext ← liftCrypto
    (cipher.encrypt fragment (Aad.newDtls12 contentType sequence fragment.length) nonce)
  return (explicitNonce, nonce, explicitNonce ++ ciphertext)

/-- Counts a finished record and puts it into the transmit queue. -/
def Engine.emit (e : Engine) (contentType : ContentType) (epoch : Nat) (append : Bool)
    (fragment : Bytes) : Engine :=
  (e.countRecord epoch).enqueueRecord append
    (DTLSRecord.serialize contentType (e.nextSequence epoch) fragment)

/-- `create_record_inner`. The record is saved before anything that can fail but
the check for a suite; its number is used only when it is placed in the queue. -/
def createRecordInner (contentType : ContentType) (epoch : Nat)
    (saveFragment forceNewDatagram : Bool) (fragment : Bytes) : EngineM Unit := do
  let e ← get
  if epoch ≥ 1 && e.cipherSuite.isNone then
    throw (.fatal (.invalidState .noCipherSuiteSelected))
  else
    runIf saveFragment (saveEntry { contentType, epoch, fragment })
    let overhead := if epoch ≥ 1 then e.minProtectedFragmentLen else 0
    let append := e.canAppend forceNewDatagram (DTLSRecord.headerLen + fragment.length + overhead)
    checkQueueTx append
    if epoch = 0 then
      modify fun (e : Engine) => e.emit contentType epoch append fragment
    else
      let sequence := e.nextSequence epoch
      let (explicitNonce, nonce, wire) ← protectFragment contentType sequence fragment
      modify fun (e : Engine) => (e.emit contentType epoch append wire).logEvent
        (.sealed sequence explicitNonce nonce)

/-- `create_record`. -/
def createRecord (contentType : ContentType) (epoch : Nat) (saveFragment : Bool)
    (fragment : Bytes) : EngineM Unit :=
  createRecordInner contentType epoch saveFragment false fragment

/-- The loop of `flight_resend`; only its first record may have to start a fresh
datagram. -/
def resendEntries : (forceNewDatagram : Bool) → List Entry → EngineM Unit
  | _, [] => pure ()
  | forceNewDatagram, entry :: rest => do
    createRecordInner entry.contentType entry.epoch false forceNewDatagram entry.fragment
    resendEntries false rest

/-- `flight_resend`. Before the handshake is over the retransmission replaces what
is still to be sent. The saved records stay, also when an error cuts it short. -/
def flightResend : EngineM Unit := do
  let e ← get
  let replacePending := !e.releaseAppData
  set { e with
    queueTx := if replacePending then [] else e.queueTx
    flightSavedRecords := [] }
  ensuring (resendEntries replacePending e.flightSavedRecords)
    fun last => { last with flightSavedRecords := e.flightSavedRecords }

/-- The length of the next fragment of a message. -/
def chunkLen (e : Engine) (fixedOverhead totalLen offset : Nat) : Nat :=
  let used := (e.queueTx.getLast?.map List.length).getD 0
  let availableInCurrent := e.config.mtu - used
  let availableForBody :=
    if availableInCurrent > fixedOverhead then availableInCurrent - fixedOverhead
    else e.config.mtu - fixedOverhead
  if totalLen = 0 then 0 else min (totalLen - offset) availableForBody

/-- The loop of `create_handshake`. A round takes a byte of the body or, when the
overhead fills a datagram, adds a record to a transmit queue of bounded size. -/
def createFragments (header : Header) (epoch fixedOverhead : Nat) (body : Bytes) :
    (fuel : Nat) → (offset : Nat) → EngineM Unit
  | 0, _ => throw (.panic .assertion)
  | fuel + 1, offset => do
    let totalLen := body.length
    if offset < totalLen || (totalLen = 0 && offset = 0) then
      let e ← get
      let chunk := chunkLen e fixedOverhead totalLen offset
      let fragment := { header with fragmentOffset := offset, fragmentLength := chunk }
        |>.serializeFragment ((body.drop offset).take chunk)
      createRecord .handshake epoch true fragment
      runIf (totalLen ≠ 0) (createFragments header epoch fixedOverhead body fuel (offset + chunk))
    else pure ()

/-- Enough rounds for a body: one a byte, and as many as the transmit queue has
room for records. -/
def fragmentRounds (e : Engine) (body : Bytes) : Nat :=
  body.length + (e.config.maxQueueTx + 1) * (e.config.mtu + 1) + 2

/-- The check for a suite in front of the fragments of a protected message. -/
def handshakeOverhead (epoch : Nat) : EngineM Nat := do
  if epoch ≥ 1 then
    let _ ← selectedCipherSuite
    return DTLSRecord.headerLen + 12 + (← get).minProtectedFragmentLen
  else return DTLSRecord.headerLen + 12

/-- `create_handshake`: the body is built first, then the message enters the
transcript, then it is cut into records. -/
def createHandshake (type : MessageType) (writeBody : EngineM Bytes) : EngineM Unit := do
  let body ← writeBody
  let e ← get
  let header : Header :=
    { msgType := type, length := body.length, messageSeq := e.nextHandshakeSeqNo,
      fragmentOffset := 0, fragmentLength := body.length }
  set { e with
    transcript := e.transcript ++ header.serializeFragment body
    nextHandshakeSeqNo := (e.nextHandshakeSeqNo + 1) % 65536 }
  let fixedOverhead ← handshakeOverhead type.epoch
  createFragments header type.epoch fixedOverhead body (fragmentRounds e body) 0

end Dimpl.Dtls12
