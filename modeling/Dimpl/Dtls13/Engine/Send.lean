import Dimpl.Dtls13.Engine.State

/-!
# DTLS 1.3 engine: sending

Building records, fragmenting handshake messages, retransmitting a flight and
sending acknowledgements.
-/

namespace Dimpl.Dtls13

open Nom

/-- Which send counter and keys a record of an epoch uses. -/
inductive SendSlot where
  | handshake
  | previous
  | current
  deriving DecidableEq

namespace Engine

/-- The slot of an epoch: epoch 2, the epoch before a KeyUpdate still in flight,
or the current application epoch whatever its number. -/
def sendSlot (e : Engine) (epoch : Nat) : SendSlot :=
  if epoch = 2 then .handshake
  else if e.prevAppSendKeys.isSome && epoch = e.prevAppSendEpoch then .previous
  else .current

/-- The next sequence number of a slot. -/
def slotSeq (e : Engine) : SendSlot → Nat
  | .handshake => e.hsSendSeq
  | .previous => e.prevAppSendSeq
  | .current => e.appSendSeq

/-- The keys of a slot. -/
def slotKeys (e : Engine) : SendSlot → Option EpochKeys
  | .handshake => e.hsSendKeys
  | .previous => e.prevAppSendKeys
  | .current => e.appSendKeys

/-- Counts a record sent in a slot. Records on the current application keys also
count towards the AEAD limit. -/
def bumpSlot (e : Engine) (epoch : Nat) : SendSlot → Engine
  | .handshake => { e with hsSendSeq := e.hsSendSeq + 1 }
  | .previous => { e with prevAppSendSeq := e.prevAppSendSeq + 1 }
  | .current =>
    { e with
      appSendSeq := e.appSendSeq + 1
      appSendRecordCount := e.appSendRecordCount + if epoch ≥ 3 then 1 else 0
      needsKeyUpdate := e.needsKeyUpdate ||
        (epoch ≥ 3 && e.appSendRecordCount + 1 ≥ e.aeadEncryptionThreshold) }

/-- Whether a record of this length fits the last queued datagram. -/
def canAppend (e : Engine) (recordWireLen : Nat) : Bool :=
  !e.datagramSealed &&
    match e.queueTx.getLast? with
    | some last => last.length + recordWireLen ≤ e.config.mtu
    | none => false

/-- Puts a record behind the last datagram or into a fresh one. -/
def enqueueRecord (e : Engine) (append : Bool) (bytes : Bytes) : Engine :=
  if append then
    { e with queueTx := e.queueTx.dropLast ++ [e.queueTx.getLastD [] ++ bytes] }
  else { e with datagramSealed := false, queueTx := e.queueTx ++ [bytes] }

end Engine

/-- Keeps a record for retransmission; the flight holds at most twelve. -/
def saveEntry (entry : Entry) : EngineM Unit := do
  let e ← get
  if e.flightSavedRecords.length < 12 then
    set { e with flightSavedRecords := e.flightSavedRecords ++ [entry] }
  else throw (.panic .capacityExceeded)

/-- Refuses a record that would need a datagram too many. -/
def checkQueueTx (append : Bool) : EngineM Unit := do
  let e ← get
  if !append && e.queueTx.length ≥ e.config.maxQueueTx then
    throw (.fatal .transmitQueueFull)
  else pure ()

/-- `create_plaintext_record`. -/
def createPlaintextRecord (contentType : ContentType) (saveFragment : Bool) (fragment : Bytes) :
    EngineM Unit := do
  let e ← get
  runIf saveFragment
    (saveEntry { contentType, epoch := 0, sendSeq := e.sequenceEpoch0, fragment, acked := false })
  let append := e.canAppend (Dtls13Record.plaintextHeaderLen + fragment.length)
  checkQueueTx append
  if e.sequenceEpoch0 ≥ maxSequenceNumber then
    throw (Fault.ofCrypto .epoch0SequenceNumberExhausted)
  else
    let bytes := Dtls13Record.serialize contentType ⟨0, e.sequenceEpoch0⟩ fragment
    modify fun e => { e.enqueueRecord append bytes with sequenceEpoch0 := e.sequenceEpoch0 + 1 }

/-- Exclusive or of a mask over the two sequence bytes behind the first byte. -/
def maskSequenceBytes (mask : Bytes) : Bytes → Bytes
  | flags :: first :: second :: rest =>
    flags :: (first ^^^ mask.getD 0 0) :: (second ^^^ mask.getD 1 0) :: rest
  | bytes => bytes

/-- `create_ciphertext_record`. The record is encrypted before the queue and the
sequence number are checked, and counted only when it is placed in the queue. -/
def createCiphertextRecord (contentType : ContentType) (epoch : Nat) (saveFragment : Bool)
    (fragment : Bytes) : EngineM Unit := do
  let e ← get
  let slot := e.sendSlot epoch
  let seq := e.slotSeq slot
  runIf saveFragment
    (saveEntry { contentType, epoch, sendSeq := seq, fragment, acked := false })
  let inner := fragment ++ [contentType.asU8]
  let suite ← suiteProvider
  let keys ← orThrow (Fault.ofCrypto (.sendKeysNotAvailable epoch)) (e.slotKeys slot)
  let nonce := Nonce.xor keys.iv seq
  let header := Dtls13Record.unifiedHeader ⟨epoch, seq⟩ (inner.length + suite.tagLen)
  let ciphertext ← liftCrypto (keys.cipher.encrypt inner (Aad.newDtls13 header) nonce)
  let mask :=
    if 16 ≤ ciphertext.length then suite.encryptSn keys.snKey (ciphertext.take 16)
    else List.replicate 16 0
  let append := e.canAppend (5 + ciphertext.length)
  checkQueueTx append
  if seq ≥ maxSequenceNumber then
    throw (Fault.ofCrypto (.sendSequenceNumberExhausted epoch))
  else
    let bytes := maskSequenceBytes mask
      (Dtls13Record.serialize .applicationData ⟨epoch, seq⟩ ciphertext)
    modify fun e =>
      ((e.bumpSlot epoch slot).enqueueRecord append bytes).logEvent
        (.sealed keys.id ⟨epoch, seq⟩)

/-- A record of any epoch. -/
def createRecord (contentType : ContentType) (epoch : Nat) (saveFragment : Bool)
    (fragment : Bytes) : EngineM Unit :=
  if epoch = 0 then createPlaintextRecord contentType saveFragment fragment
  else createCiphertextRecord contentType epoch saveFragment fragment

/-- The sequence number the next record of an epoch gets. -/
def Engine.nextSeq (e : Engine) (epoch : Nat) : Nat :=
  if epoch = 0 then e.sequenceEpoch0 else e.slotSeq (e.sendSlot epoch)

/-- One record of a retransmission, with the sequence number it now has. -/
def resendEntry (entry : Entry) : EngineM Entry := do
  let e ← get
  if entry.acked then
    return entry
  else
    createRecord entry.contentType entry.epoch false entry.fragment
    return { entry with sendSeq := e.nextSeq entry.epoch }

/-- The loop of `flight_resend`. -/
def resendEntries : List Entry → EngineM (List Entry)
  | [] => pure []
  | entry :: rest => do
    let entry ← resendEntry entry
    let rest ← resendEntries rest
    return entry :: rest

/-- `flight_resend`: the saved records are taken out first, so an error on the
way loses them. -/
def flightResend : EngineM Unit := do
  let e ← get
  set { e with flightSavedRecords := [], datagramSealed := true }
  let records ← resendEntries e.flightSavedRecords
  modify fun e => { e with flightSavedRecords := records }

/-- The length of the next fragment of a message. -/
def chunkLen (e : Engine) (fixedOverhead totalLen offset : Nat) : Nat :=
  let used := (e.queueTx.getLast?.map List.length).getD 0
  let availableInCurrent := e.config.mtu - used
  let availableForBody :=
    if availableInCurrent > fixedOverhead then availableInCurrent - fixedOverhead
    else e.config.mtu - fixedOverhead
  if totalLen = 0 then 0 else min (totalLen - offset) availableForBody

/-- The loop of `create_handshake`. Every round saves a record and the flight
holds twelve, so no run of it is longer than `fuel` rounds. -/
def createFragments (header : Header) (epoch fixedOverhead : Nat) (body : Bytes) :
    (fuel : Nat) → (offset : Nat) → EngineM Unit
  | 0, _ => throw (.panic .capacityExceeded)
  | fuel + 1, offset => do
    let totalLen := body.length
    if offset < totalLen || (totalLen = 0 && offset = 0) then
      let e ← get
      let chunk := chunkLen e fixedOverhead totalLen offset
      let fragment := { header with fragmentOffset := offset, fragmentLength := chunk }
        |>.serializeFragment ((body.drop offset).take chunk)
      createRecord .handshake epoch true fragment
      runIf (totalLen ≠ 0) (createFragments header epoch fixedOverhead body fuel (offset + chunk))
    else pure ()

/-- The bytes a message adds to the transcript: type, length and body. -/
def transcriptMessage (type : MessageType) (body : Bytes) : Bytes :=
  type.asU8 :: be24 body.length ++ body

/-- `create_handshake`: the body is built first, then the message enters the
transcript, then it is cut into records. -/
def createHandshake (type : MessageType) (writeBody : EngineM Bytes) : EngineM Unit := do
  let body ← writeBody
  let e ← get
  let header : Header :=
    { msgType := type, length := body.length, messageSeq := e.nextHandshakeSeqNo,
      fragmentOffset := 0, fragmentLength := body.length }
  set { e with
    transcript := e.transcript ++ transcriptMessage type body
    nextHandshakeSeqNo := (e.nextHandshakeSeqNo + 1) % 65536 }
  let epoch := epochForMessage type
  if epoch = 0 then
    createFragments header epoch (Dtls13Record.plaintextHeaderLen + 12) body 13 0
  else
    let suite ← suiteProvider
    createFragments header epoch (5 + 12 + (suite.tagLen + 1)) body 13 0

/-- The body of an ACK record: a length and 16 bytes a record number. -/
def ackFragment (numbers : List (Nat × Nat)) : Bytes :=
  be16 (numbers.length * 16) ++ numbers.flatMap fun number => be64 number.1 ++ be64 number.2

/-- `send_ack`: lists the received handshake records, once. -/
def sendAck : EngineM Unit := do
  let e ← get
  if e.receivedRecordNumbers.isEmpty then pure ()
  else
    set { e with receivedRecordNumbers := [] }
    let epoch := if e.appSendKeys.isSome then e.appSendEpoch else 2
    createCiphertextRecord .ack epoch false (ackFragment e.receivedRecordNumbers)

end Dimpl.Dtls13
