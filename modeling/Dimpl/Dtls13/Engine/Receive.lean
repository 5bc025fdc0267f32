import Dimpl.Dtls13.Engine.Keys

/-!
# DTLS 1.3 engine: receiving

From a datagram to the receive queue: finding the records, removing protection,
acting on control records and queueing the rest.
-/

namespace Dimpl.Dtls13

open Nom

/-- `reconstruct_sequence`: the number closest to the expected one with the
given low bits, not below zero. -/
def reconstructSequence (partialSeq expected bits : Nat) : Nat :=
  let window : Int := 2 ^ bits
  let half := window / 2
  let diff : Int := ((partialSeq % 2 ^ bits : Nat) : Int) - ((expected % 2 ^ bits : Nat) : Int)
  let diff := if diff > half then diff - window else if diff < -half then diff + window else diff
  ((expected : Int) + diff).toNat

/-- Records a received number in an entry and moves its expectation up. -/
def RecvEpochEntry.receive (entry : RecvEpochEntry) (number : Nat) :
    RecvEpochEntry :=
  { entry with
    replay := entry.replay.update number
    expectedRecvSeq := max (number + 1) entry.expectedRecvSeq }

/-- Exclusive or of a byte string with a mask, as far as the mask reaches. -/
def xorMask : Bytes → Bytes → Bytes
  | byte :: rest, mask :: masks => (byte ^^^ mask) :: xorMask rest masks
  | bytes, _ => bytes

/-- The record numbers of an ACK, each an epoch and a sequence number of eight
bytes; none when the length field does not fit. -/
def ackedNumbers (ackData : Bytes) : Option (List (Nat × Nat)) :=
  let recordNumbersLen := beValue (ackData.take 2)
  let entriesData := ackData.drop 2
  if ackData.length < 2 || entriesData.length ≠ recordNumbersLen || recordNumbersLen % 16 ≠ 0 then
    none
  else
    some ((List.range (recordNumbersLen / 16)).map fun i =>
      (beValue ((entriesData.drop (i * 16)).take 8),
        beValue ((entriesData.drop (i * 16 + 8)).take 8)))

namespace Engine

/-- The receive entry of an application epoch. -/
def recvEntry (e : Engine) (epoch : Nat) : Option RecvEpochEntry :=
  e.appRecvKeys.find? fun entry => entry.epoch = epoch

/-- The receive keys of an epoch. -/
def recvKeys (e : Engine) (epoch : Nat) : Option EpochKeys :=
  if epoch = 2 then e.hsRecvKeys else (e.recvEntry epoch).map RecvEpochEntry.keys

/-- `resolve_epoch`: the handshake epoch first, then the newest application
epoch with these low bits. -/
def resolveEpoch (e : Engine) (epochBits : Nat) : Nat :=
  if e.hsRecvKeys.isSome && epochBits = 2 then 2
  else
    ((e.appRecvKeys.filter fun entry => entry.epoch % 4 = epochBits).getLast?.map
      RecvEpochEntry.epoch).getD epochBits

/-- `resolve_sequence`. -/
def resolveSequence (e : Engine) (epoch seqBits : Nat) (sFlag : Bool) : Nat :=
  let expected :=
    if epoch = 2 then e.hsExpectedRecvSeq
    else ((e.recvEntry epoch).map RecvEpochEntry.expectedRecvSeq).getD 0
  reconstructSequence seqBits expected (if sFlag then 16 else 8)

/-- `replay_check`. -/
def replayCheck (e : Engine) (seq : Sequence) : Bool :=
  if seq.epoch = 2 then e.hsReplay.check seq.sequenceNumber
  else
    match e.recvEntry seq.epoch with
    | some entry => entry.replay.check seq.sequenceNumber
    | none => false

/-- Changes the first entry of an epoch. -/
def updateFirst (epoch : Nat) (f : RecvEpochEntry → RecvEpochEntry) :
    List RecvEpochEntry → List RecvEpochEntry
  | [] => []
  | entry :: rest =>
    if entry.epoch = epoch then f entry :: rest else entry :: updateFirst epoch f rest

/-- `replay_update`. -/
def replayUpdate (e : Engine) (seq : Sequence) : Engine :=
  if seq.epoch = 2 then
    { e with
      hsReplay := e.hsReplay.update seq.sequenceNumber
      hsExpectedRecvSeq := max (seq.sequenceNumber + 1) e.hsExpectedRecvSeq }
  else
    { e with appRecvKeys :=
      updateFirst seq.epoch (fun entry => entry.receive seq.sequenceNumber) e.appRecvKeys }

/-- The full record number of a ciphertext record, from the low bits in its
header. -/
def fullSequence (e : Engine) (flags : UInt8) (r : Record) : Sequence :=
  let epoch := e.resolveEpoch r.record.sequence.epoch
  ⟨epoch, e.resolveSequence epoch r.record.sequence.sequenceNumber (Dtls13Record.sFlag flags)⟩

/-- `decrypt_record`: the plaintext and the key that opened it. -/
def decryptRecord (e : Engine) (header : Bytes) (seq : Sequence) (ciphertext : Bytes) :
    Except CryptoError (KeyId × Bytes) :=
  match e.recvKeys seq.epoch with
  | none => .error (.recvKeysNotAvailable seq.epoch)
  | some keys => do
    let plaintext ← keys.cipher.decrypt ciphertext (Aad.newDtls13 header)
      (Nonce.xor keys.iv seq.sequenceNumber)
    return (keys.id, plaintext)

/-- Marks the flight entries with one of these record numbers. -/
def markAcked (e : Engine) (acked : List (Nat × Nat)) : Engine :=
  { e with flightSavedRecords := e.flightSavedRecords.map fun entry =>
      if acked.contains (entry.epoch, entry.sendSeq) then { entry with acked := true } else entry }

/-- Stops the retransmission of a fully acknowledged handshake flight. -/
def endHandshakeFlight (e : Engine) : Engine :=
  let epoch2 := e.flightSavedRecords.filter fun entry => entry.epoch = 2
  if !epoch2.isEmpty && epoch2.all Entry.acked then
    { e with flightTimeout := .disabled, flightSavedRecords := [] }
  else e

/-- Forgets the previous send keys once a KeyUpdate is acknowledged. -/
def endKeyUpdate (e : Engine) : Engine :=
  if e.prevAppSendKeys.isSome && !e.flightSavedRecords.isEmpty &&
      e.flightSavedRecords.all Entry.acked then
    { e with prevAppSendKeys := none, flightSavedRecords := [], flightTimeout := .disabled }
  else e

/-- `process_ack`: a malformed list is ignored. -/
def processAck (e : Engine) (ackData : Bytes) : Engine :=
  match ackedNumbers ackData with
  | none => e
  | some acked => ((e.markAcked acked).endHandshakeFlight).endKeyUpdate

end Engine

/-- `classify_record`: acknowledgements and alerts are acted on here and never
queued. -/
def classifyRecord (r : Record) : EngineM (Option Record) := do
  let e ← get
  let sequence := r.record.sequence
  let contentType := r.record.contentType
  if e.closeNotifySequence.any fun cn => sequence.cmp cn = .gt then
    return none
  else if sequence.epoch = 0 && e.peerEncryptionEnabled &&
      (contentType = .ack || contentType = .alert) then
    return none
  else if contentType = .ack then
    set (e.processAck r.fragment)
    return none
  else if contentType = .alert then
    match r.fragment[1]? with
    | none => return none
    | some description =>
      if description = 0 then
        set { e with closeNotifySequence := some (e.closeNotifySequence.getD sequence) }
        return none
      else if description = 90 then
        return none
      else
        throw (.fatal (.securityError (.fatalAlert description)))
  else if contentType = .changeCipherSpec then
    return none
  else
    return some r

/-- The record bytes with the sequence number of a unified header decrypted in
place, when the receiver has keys to do so. -/
def decryptSequenceNumber (recordSlice : Bytes) : EngineM Bytes := do
  let e ← get
  let flags := recordSlice.headD 0
  let headerLen := Dtls13Record.unifiedHeaderLen flags
  if Dtls13Record.isCiphertextHeader flags && e.peerEncryptionEnabled &&
      headerLen + 16 ≤ recordSlice.length then
    match e.recvKeys (e.resolveEpoch (Dtls13Record.epochBits flags)) with
    | none => return recordSlice
    | some keys =>
      let suite ← suiteProvider
      let mask := suite.encryptSn keys.snKey ((recordSlice.drop headerLen).take 16)
      let seqLen := Dtls13Record.seqLen flags
      return flags :: xorMask ((recordSlice.drop 1).take seqLen) mask ++
        recordSlice.drop (1 + seqLen)
  else return recordSlice

/-- The protected half of `Record::parse`: replay check, opening, commit to the
replay window and recovery of the inner type. -/
def openRecord (recordSlice : Bytes) (r : Record) : EngineM (Option Record) := do
  let e ← get
  let sequence := e.fullSequence (recordSlice.headD 0) r
  let headerEnd := r.record.fragmentRange.start
  let header := r.buffer.take headerEnd
  let ciphertext := r.buffer.drop headerEnd
  if !e.replayCheck sequence then
    return none
  else
    let suite ← suiteProvider
    if ciphertext.length < suite.minProtectedFragmentLen then
      return none
    else
      match e.decryptRecord header sequence ciphertext with
      | .error _ => return none
      | .ok (key, plaintext) =>
        modify fun (e : Engine) =>
          (e.replayUpdate sequence).logEvent (.opened key sequence recordSlice plaintext)
        match recoverInnerContentType plaintext with
        | none => return none
        | some (contentType, contentLen) =>
          -- The plaintext overwrites the ciphertext in place; the tag stays behind it.
          let buffer := header ++ plaintext ++ ciphertext.drop plaintext.length
          return some (Record.ofHeader buffer
            { contentType, sequence, length := contentLen % 65536,
              fragmentRange := ⟨headerEnd, headerEnd + contentLen⟩ })

/-- `Record::parse`. -/
def parseRecord (recordSlice : Bytes) : EngineM (Option Record) := do
  let buffer ← decryptSequenceNumber recordSlice
  let e ← get
  match Record.ofBuffer buffer with
  | .error _ => return none
  | .ok r =>
    if !Dtls13Record.isCiphertextHeader (recordSlice.headD 0) || !e.peerEncryptionEnabled then
      return some r
    else
      openRecord recordSlice r

/-- Where the first record of a datagram ends; none at a connection identifier,
which is not supported and hides the boundary. -/
def recordEnd (packet : Bytes) : Except TransientError (Option Nat) :=
  let flags := packet.headD 0
  if Dtls13Record.isCiphertextHeader flags then
    if Dtls13Record.cFlag flags then .ok none
    else
      let headerLen := Dtls13Record.unifiedHeaderLen flags
      if packet.length < 2 || packet.length < headerLen then .error .parseIncomplete
      else if Dtls13Record.lFlag flags then
        .ok (some (headerLen + beValue ((packet.drop (1 + Dtls13Record.seqLen flags)).take 2)))
      else .ok (some packet.length)
  else if packet.length < Dtls13Record.plaintextHeaderLen then .error .parseIncomplete
  else .ok (some (Dtls13Record.plaintextHeaderLen + beValue ((packet.drop 11).take 2)))

/-- The loop of `recordSlices`. -/
def recordSlicesLoop : (fuel : Nat) → (packet : Bytes) → List Bytes
  | 0, _ => []
  | fuel + 1, packet =>
    if packet.isEmpty then []
    else
      match recordEnd packet with
      | .ok (some stop) =>
        if packet.length < stop then []
        else packet.take stop :: recordSlicesLoop fuel (packet.drop stop)
      | _ => []

/-- The slices `Records::parse` cuts a datagram into, as far as it gets. -/
def recordSlices (packet : Bytes) : List Bytes := recordSlicesLoop packet.length packet

/-- The loop of `Records::parse`; a record takes at least one byte. -/
def parseRecordsLoop : (fuel : Nat) → (packet : Bytes) → List Record → EngineM (List Record)
  | 0, _, parsed => pure parsed
  | fuel + 1, packet, parsed =>
    if packet.isEmpty then pure parsed
    else
      match recordEnd packet with
      | .error reason => throw (.transient reason)
      | .ok none => pure parsed
      | .ok (some stop) =>
        if packet.length < stop then throw (.transient .parseIncomplete)
        else do
          match ← parseRecord (packet.take stop) with
          | none => parseRecordsLoop fuel (packet.drop stop) parsed
          | some r =>
            if parsed.length < 16 then
              parseRecordsLoop fuel (packet.drop stop) (parsed ++ [r])
            else throw (.transient .tooManyRecords)

/-- The second pass of `Records::parse`. -/
def classifyRecords : List Record → EngineM (List Record)
  | [] => pure []
  | r :: rest => do
    let kept ← classifyRecord r
    let others ← classifyRecords rest
    return kept.toList ++ others

/-- `Records::parse`. -/
def parseRecords (packet : Bytes) : EngineM (List Record) := do
  let parsed ← parseRecordsLoop packet.length packet []
  classifyRecords parsed

/-- Notes the numbers of received protected records for an ACK; those that do
not fit are dropped. -/
def trackRecordNumbers (numbers : List (Nat × Nat)) (incoming : Incoming) : List (Nat × Nat) :=
  (numbers ++ (incoming.records.filter fun r => r.record.sequence.epoch ≥ 2).map fun r =>
    (r.record.sequence.epoch, r.record.sequence.sequenceNumber)).take 32

/-- The order of the handshake queue: message, then position in it. -/
def compareKeys (left right : Nat × Nat) : Ordering :=
  (compare left.1 right.1).then (compare left.2 right.2)

/-- The queue key of a datagram; one that starts with no handshake is last. -/
def queueKey (incoming : Incoming) : Nat × Nat :=
  match incoming.first.firstHandshake with
  | some h => (h.header.messageSeq, h.header.fragmentOffset)
  | none => (65535, 4294967295)

/-- Whether a queued duplicate gives way to the new datagram: it was consumed, or
it is a partial fragment and the new one is a whole message. -/
def shouldReplace (existing incoming : Incoming) : Bool :=
  existing.first.isHandled ||
    ((existing.first.firstHandshake.any fun h => h.header.length ≠ h.header.fragmentLength) &&
      incoming.first.firstHandshake.any fun h => h.header.length = h.header.fragmentLength)

/-- `insert_incoming_handshake`. -/
def insertIncomingHandshake (incoming : Incoming) (handshake : Fragment) : EngineM Unit := do
  let dupe := ((incoming.records.filterMap Record.firstHandshake).filterMap
    Fragment.dupeTriggersResend).head?
  let e ← get
  runIf (dupe.any fun seq => seq < e.peerHandshakeSeqNo) flightResend
  let e ← get
  let key := (handshake.header.messageSeq, handshake.header.fragmentOffset)
  if handshake.header.messageSeq < e.peerHandshakeSeqNo then
    pure ()
  else if e.releaseAppData && handshake.header.msgType ≠ .keyUpdate then
    throw (.fatal .renegotiationAttempt)
  else
    match e.config.dequeSearch.searchBy (fun item => compareKeys (queueKey item) key) e.queueRx with
    | .error index =>
      set { e with
        receivedRecordNumbers := trackRecordNumbers e.receivedRecordNumbers incoming
        queueRx := e.queueRx.insertIdx index incoming }
    | .ok index =>
      if e.queueRx[index]?.any fun existing => shouldReplace existing incoming then
        set { e with
          receivedRecordNumbers := trackRecordNumbers e.receivedRecordNumbers incoming
          queueRx := e.queueRx.set index incoming }
      else pure ()

/-- `insert_incoming_non_handshake`: a duplicate is dropped. -/
def insertIncomingNonHandshake (incoming : Incoming) : EngineM Unit := do
  let e ← get
  match e.config.dequeSearch.searchBy
      (fun item => item.first.record.sequence.cmp incoming.first.record.sequence) e.queueRx with
  | .error index => set { e with queueRx := e.queueRx.insertIdx index incoming }
  | .ok _ => pure ()

/-- `insert_incoming`. -/
def insertIncoming (incoming : Incoming) : EngineM Unit := do
  let e ← get
  if e.queueRx.length ≥ e.config.maxQueueRx then
    throw (.fatal .receiveQueueFull)
  else
    match incoming.first.firstHandshake with
    | some handshake => insertIncomingHandshake incoming handshake
    | none => insertIncomingNonHandshake incoming

/-- `Engine::parse_packet`. -/
def parsePacket (packet : Bytes) : EngineM Unit := do
  let records ← parseRecords packet
  match Incoming.ofRecords records with
  | none => pure ()
  | some incoming => insertIncoming incoming

/-- `parse_packet` on a datagram from the network, which the history records. -/
def receivePacket (datagram : Bytes) : EngineM Unit := do
  modify (Engine.logEvent (.received datagram))
  parsePacket datagram

/-- Parses queued buffers again, one record a packet; an error loses those that
were not reached. -/
def reparse : List Bytes → EngineM Unit
  | [] => pure ()
  | buffer :: rest => do
    parsePacket buffer
    reparse rest

/-- Whether a datagram holds a record of an encrypted epoch. -/
def hasProtected (incoming : Incoming) : Bool :=
  incoming.records.any fun r => r.record.sequence.epoch ≥ 2

/-- `enable_peer_encryption`: from the first datagram with a record of epoch 2
or more on, the unhandled records of the queue are parsed again. -/
def enablePeerEncryption : EngineM Unit := do
  let e ← get
  let kept := e.queueRx.takeWhile fun item => !hasProtected item
  let again := e.queueRx.dropWhile fun item => !hasProtected item
  set { e with peerEncryptionEnabled := true, queueRx := kept }
  reparse (((again.flatMap Incoming.records).filter fun r => !r.isHandled).map Record.buffer)

end Dimpl.Dtls13
