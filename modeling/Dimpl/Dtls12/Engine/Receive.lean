import Dimpl.Dtls12.Engine.Send

/-!
# DTLS 1.2 engine: receiving

From a datagram to the receive queue: finding the records, removing protection,
acting on control records and queueing the rest.
-/

namespace Dimpl.Dtls12

open Nom

/-- `peer_iv`: panics before the keys are derived. -/
def peerIv : EngineM Bytes := do
  let e ← get
  orThrow (.panic .assertion) (e.cryptoContext.writeIv (!e.isClient))

namespace Engine

/-- The additional data of a received record, over its plaintext length. -/
def openAad (e : Engine) (dtls : DTLSRecord) : Bytes :=
  Aad.newDtls12 dtls.contentType dtls.sequence (dtls.length - e.minProtectedFragmentLen % 65536)

/-- `decrypt_data`. It works in place, so what comes out is never longer than
what went in. -/
def decryptData (e : Engine) (ciphertext aad nonce : Bytes) : Except CryptoError Bytes := do
  let cipher ← e.cryptoContext.writeCipher (!e.isClient)
  let plaintext ← cipher.decrypt ciphertext aad nonce
  return plaintext.take ciphertext.length

/-- `replay_check`: one window for all epochs. -/
def replayCheck (e : Engine) (sequence : Sequence) : Bool := e.replay.check sequence.sequenceNumber

/-- What `Record::parse` does when a record opened: `replay_update` and
`note_decrypted_record`. -/
def noteOpened (e : Engine) (dtls : DTLSRecord) : Engine :=
  { e with
    replay := e.replay.update dtls.sequence.sequenceNumber
    peerHandshakeConfirmed := e.peerHandshakeConfirmed || dtls.contentType = .applicationData }

end Engine

/-- The nonce of a received record. -/
def openNonce (dtls : DTLSRecord) (buffer : Bytes) : EngineM Bytes := do
  let iv ← peerIv
  let e ← get
  if e.explicitNonceLen = 0 then xorNonce iv dtls.sequence
  else joinNonce iv (dtls.nonceWithLen buffer e.explicitNonceLen)

/-- The buffer of an opened record: the plaintext over the ciphertext and its
length in the header. -/
def openedBuffer (recordSlice plaintext : Bytes) (ciph : Nat) : Bytes :=
  recordSlice.take 11 ++ be16 plaintext.length ++
    (recordSlice.take ciph).drop DTLSRecord.headerLen ++ plaintext ++
    recordSlice.drop (ciph + plaintext.length)

/-- The protected half of `Record::parse`: replay check, opening, commit to the
replay window and a second parse. A record that does not open is an error until
the handshake is over. -/
def openRecord (recordSlice : Bytes) (dtls : DTLSRecord) : EngineM (Option Record) := do
  let e ← get
  let ciph := DTLSRecord.headerLen + e.explicitNonceLen
  if !e.replayCheck dtls.sequence then
    return none
  else if dtls.length < e.minProtectedFragmentLen then
    return none
  else
    let nonce ← openNonce dtls recordSlice
    match e.decryptData (recordSlice.drop ciph) (e.openAad dtls) nonce with
    | .error err => if e.releaseAppData then return none else throw (Fault.ofCrypto err)
    | .ok plaintext =>
      modify fun (e : Engine) => (e.noteOpened dtls).logEvent
        (.opened dtls.contentType dtls.sequence recordSlice plaintext)
      match Record.ofBuffer (openedBuffer recordSlice plaintext ciph) e.explicitNonceLen with
      | .error err => throw (Fault.ofNom err)
      | .ok r => return some r

/-- `Record::parse`. -/
def parseRecord (recordSlice : Bytes) : EngineM (Option Record) := do
  let e ← get
  match Record.ofBuffer recordSlice 0 with
  | .error _ => return none
  | .ok r =>
    if r.sequence.epoch = 0 || !e.peerEncryptionEnabled then return some r
    else openRecord recordSlice r.record

/-- Level and description of an alert. -/
def alertOf (fragment : Bytes) : Option (UInt8 × UInt8) :=
  match fragment with
  | level :: description :: _ => some (level, description)
  | _ => none

/-- The alert branch of `classify_record`. -/
def classifyAlert (r : Record) : EngineM (Option Record) := do
  let e ← get
  if r.sequence.epoch = 0 then
    if e.peerEncryptionEnabled then return none
    else
      match alertOf r.fragment with
      | some (2, description) => throw (.fatal (.securityError (.fatalAlert description)))
      | _ => return none
  else if !e.peerEncryptionEnabled then
    return some r
  else
    match alertOf r.fragment with
    | some (level, description) =>
      if description = 0 then
        set { e with closeNotifyReceived := true }
        return none
      else if level = 2 then
        throw (.fatal (.securityError (.fatalAlert description)))
      else return none
    | none => return none

/-- `classify_record`: alerts are acted on here, stale plaintext and data behind a
close_notify are dropped. -/
def classifyRecord (r : Record) : EngineM (Option Record) := do
  let e ← get
  let contentType := r.record.contentType
  let stale := r.sequence.epoch = 0 && e.peerEncryptionEnabled
  if contentType = .changeCipherSpec && stale then
    return none
  else if contentType = .handshake && stale &&
      (r.firstHandshake.bind Fragment.dupeTriggersResend).isNone then
    return none
  else if contentType = .alert then
    classifyAlert r
  else if e.closeNotifyReceived && contentType = .applicationData then
    return none
  else
    return some r

/-- The loop of `Records::parse`; a record takes at least thirteen bytes. -/
def parseRecordsLoop : (fuel : Nat) → (packet : Bytes) → List Record → EngineM (List Record)
  | 0, _, parsed => pure parsed
  | fuel + 1, packet, parsed =>
    if packet.isEmpty then pure parsed
    else
      match recordEnd packet with
      | none => throw (.transient .parseIncomplete)
      | some stop => do
        match ← parseRecord (packet.take stop) with
        | none => parseRecordsLoop fuel (packet.drop stop) parsed
        | some r =>
          if parsed.length < 8 then
            parseRecordsLoop fuel (packet.drop stop) (parsed ++ [r])
          else throw (.transient .tooManyRecords)

/-- The second pass of `Records::parse`. -/
def classifyRecords : List Record → EngineM (List Record)
  | [] => pure []
  | r :: rest => do
    let kept ← classifyRecord r
    let others ← classifyRecords rest
    return kept.toList ++ others

/-- `Records::parse`. -/
def parseRecords (packet : Bytes) : EngineM (List Record) := do
  let parsed ← parseRecordsLoop packet.length packet []
  classifyRecords parsed

/-- The order of the handshake queue: message, then position in it. -/
def compareKeys (left right : Nat × Nat) : Ordering :=
  (compare left.1 right.1).then (compare left.2 right.2)

/-- The queue key of a datagram; one that starts with no handshake is last. -/
def queueKey (incoming : Incoming) : Nat × Nat :=
  match incoming.first.firstHandshake with
  | some h => (h.header.messageSeq, h.header.fragmentOffset)
  | none => (65535, 4294967295)

/-- `insert_incoming_handshake`. A message that is not new may first trigger a
retransmission. -/
def insertIncomingHandshake (incoming : Incoming) (handshake : Fragment) : EngineM Unit := do
  let dupe := ((incoming.records.filterMap Record.firstHandshake).filterMap
    Fragment.dupeTriggersResend).head?
  let e ← get
  runIf (dupe.any fun seq => seq < e.peerHandshakeSeqNo && !e.peerHandshakeConfirmed) flightResend
  let e ← get
  let key := (handshake.header.messageSeq, handshake.header.fragmentOffset)
  if handshake.header.messageSeq < e.peerHandshakeSeqNo then
    pure ()
  else if e.peerEncryptionEnabled && incoming.first.sequence.epoch = 0 then
    pure ()
  else if e.releaseAppData && handshake.header.messageSeq ≥ e.peerHandshakeSeqNo then
    throw (.fatal .renegotiationAttempt)
  else
    match e.config.dequeSearch.searchBy (fun item => compareKeys (queueKey item) key) e.queueRx with
    | .error index => set { e with queueRx := e.queueRx.insertIdx index incoming }
    | .ok _ => pure ()

/-- Marks a plaintext handshake record as consumed, the record itself when no
fragment was found in it. -/
def markStale (r : Record) : Record :=
  if r.sequence.epoch = 0 && r.record.contentType = .handshake then
    if r.handshakes.isEmpty then { r with handled := true }
    else { r with handshakes := r.handshakes.map Fragment.setHandled }
  else r

/-- `insert_incoming_non_handshake`. A duplicate must be plaintext, which is
asserted. -/
def insertIncomingNonHandshake (incoming : Incoming) : EngineM Unit := do
  let e ← get
  let sequence := incoming.first.sequence
  if e.peerEncryptionEnabled && sequence.epoch = 0 &&
      incoming.first.record.contentType = .handshake then
    pure ()
  else
    let incoming :=
      if e.peerEncryptionEnabled then
        { first := markStale incoming.first, rest := incoming.rest.map markStale }
      else incoming
    match e.config.dequeSearch.searchBy (fun item => item.first.sequence.cmp sequence) e.queueRx with
    | .error index => set { e with queueRx := e.queueRx.insertIdx index incoming }
    | .ok _ => if sequence.epoch = 0 then pure () else throw (.panic .duplicateProtectedRecord)

/-- `insert_incoming`. -/
def insertIncoming (incoming : Incoming) : EngineM Unit := do
  let e ← get
  if e.queueRx.length ≥ e.config.maxQueueRx then
    throw (.fatal .receiveQueueFull)
  else
    match incoming.first.firstHandshake with
    | some handshake => insertIncomingHandshake incoming handshake
    | none => insertIncomingNonHandshake incoming

/-- `Engine::parse_packet`. -/
def parsePacket (packet : Bytes) : EngineM Unit := do
  let records ← parseRecords packet
  match Incoming.ofRecords records with
  | none => pure ()
  | some incoming => insertIncoming incoming

/-- `parse_packet` on a datagram from the network, which the history records. -/
def receivePacket (datagram : Bytes) : EngineM Unit := do
  modify (Engine.logEvent (.received datagram))
  parsePacket datagram

/-- Parses queued buffers again, one record a packet; an error loses those that
were not reached. -/
def reparse : List Bytes → EngineM Unit
  | [] => pure ()
  | buffer :: rest => do
    parsePacket buffer
    reparse rest

/-- Whether a datagram holds a record of epoch 1. -/
def hasEpoch1 (incoming : Incoming) : Bool :=
  incoming.records.any fun r => r.sequence.epoch = 1

/-- `enable_peer_encryption`: from the first datagram with a record of epoch 1 on,
the unhandled records of the queue are parsed again. -/
def enablePeerEncryption : EngineM Unit := do
  let e ← get
  let kept := e.queueRx.takeWhile fun item => !hasEpoch1 item
  let again := e.queueRx.dropWhile fun item => !hasEpoch1 item
  set { e with peerEncryptionEnabled := true, queueRx := kept }
  reparse (((again.flatMap Incoming.records).filter fun r => !r.isHandled).map Record.buffer)

end Dimpl.Dtls12
