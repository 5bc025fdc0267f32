import Dimpl.Dtls13.Engine.Receive

/-!
# DTLS 1.3 engine: reassembly and timers

Finding and assembling handshake messages in the receive queue, scheduling
handshake acknowledgements, the timers and the output of the engine.
-/

namespace Dimpl.Dtls13

open Nom

/-- What a scan of the fragments of one message finds. -/
inductive Scan where
  | gap
  | complete
  | incomplete
  deriving DecidableEq

/-- The scan shared by `has_complete_handshake`, `handshake_ack_help_needed` and
`has_gap_in_incoming_handshake`: how far the fragments of a message reach. -/
def scan (wantedSeq wantedLength : Nat) : List Fragment → (lastFragmentEnd : Nat) → Scan
  | [], _ => .incomplete
  | h :: rest, lastFragmentEnd =>
    if wantedSeq ≠ h.header.messageSeq then scan wantedSeq wantedLength rest lastFragmentEnd
    else if h.header.fragmentOffset > lastFragmentEnd then .gap
    else
      let stop := max h.stop lastFragmentEnd
      if stop = wantedLength then .complete else scan wantedSeq wantedLength rest stop

namespace Engine

/-- The fragments a scan looks at: from the first one not handled, in at most
fifty records. -/
def scanFragments (e : Engine) : List Fragment :=
  (((e.rxRecords.dropWhile Record.isHandled).take maxDefragmentPackets).flatMap
    Record.handshakes).dropWhile Fragment.handled

/-- The scan of the message the first unhandled fragment belongs to. -/
def scanFirst (e : Engine) (first : Fragment) : Scan :=
  scan first.header.messageSeq first.header.length e.scanFragments 0

/-- `has_complete_handshake_with_seq` for the expected message. -/
def hasCompleteHandshake (e : Engine) (wanted : MessageType) : Bool :=
  e.scanFragments.head?.any fun first =>
    first.header.messageSeq = e.peerHandshakeSeqNo && first.header.msgType = wanted &&
      e.scanFirst first = .complete

/-- `handshake_ack_help_needed`. -/
def handshakeAckHelpNeeded (e : Engine) : Bool :=
  e.scanFragments.head?.any fun first =>
    first.header.messageSeq ≠ e.peerHandshakeSeqNo || e.scanFirst first ≠ .complete

/-- `has_gap_in_incoming_handshake`. -/
def hasGapInIncomingHandshake (e : Engine) : Bool :=
  e.scanFragments.head?.any fun first =>
    first.header.messageSeq ≠ e.peerHandshakeSeqNo || e.scanFirst first = .gap

/-- The fragments reassembly goes through, each with the buffer of its record. -/
def unhandledFragments (e : Engine) : List (Fragment × Bytes) :=
  ((e.rxRecords.dropWhile Record.isHandled).flatMap fun r =>
    r.handshakes.map fun h => (h, r.buffer)).dropWhile fun item => item.1.handled

end Engine

/-- Marks fragments as handled: those up to the first unhandled one are skipped,
then `left` of them are marked. -/
def markFragments : (started : Bool) → (left : Nat) → List Fragment → List Fragment × Bool × Nat
  | started, left, [] => ([], started, left)
  | started, left, h :: rest =>
    if !started && h.handled then
      let (rest, state) := markFragments started left rest
      (h :: rest, state)
    else if left = 0 then (h :: rest, true, 0)
    else
      let (rest, state) := markFragments true (left - 1) rest
      (h.setHandled :: rest, state)

/-- `markFragments` through the records of a datagram. -/
def markRecords : (started : Bool) → (left : Nat) → List Record → List Record × Bool × Nat
  | started, left, [] => ([], started, left)
  | started, left, r :: rest =>
    let (handshakes, started, left) := markFragments started left r.handshakes
    let (rest, state) := markRecords started left rest
    ({ r with handshakes } :: rest, state)

/-- `markFragments` through the receive queue. -/
def markQueue : (started : Bool) → (left : Nat) → List Incoming → List Incoming
  | _, _, [] => []
  | started, left, incoming :: rest =>
    match markRecords started left incoming.records with
    | (first :: others, started, left) => ⟨first, others⟩ :: markQueue started left rest
    | ([], started, left) => incoming :: markQueue started left rest

/-- Appends the bytes of fragments behind what is assembled up to `assembledEnd`,
skipping what overlaps. -/
def assemble : (assembledEnd : Nat) → List (Fragment × Bytes) → Bytes
  | _, [] => []
  | assembledEnd, (h, buffer) :: rest =>
    let skip := assembledEnd - h.header.fragmentOffset
    let piece :=
      if skip < h.header.fragmentLength then slice buffer ⟨h.range.start + skip, h.range.stop⟩ else []
    piece ++ assemble (max h.stop assembledEnd) rest

/-- What reassembly takes: the first fragment and those behind it until the
message type changes. -/
def takenFragments : List (Fragment × Bytes) → List (Fragment × Bytes)
  | [] => []
  | first :: rest =>
    first :: rest.takeWhile fun item => item.1.header.msgType = first.1.header.msgType

/-- Appends to the transcript. -/
def Engine.addToTranscript (bytes : Bytes) (e : Engine) : Engine :=
  { e with transcript := e.transcript ++ bytes }

/-- `Handshake::defragment_with_options`. The fragments are marked and the
transcript is extended before the body is parsed. -/
def defragment (first : Fragment × Bytes) (rest : List (Fragment × Bytes)) (withTranscript : Bool)
    (allowUnknownClientHelloSuites : Bool) : EngineM (Handshake × Bytes) := do
  let e ← get
  let header := first.1.header
  let taken := takenFragments (first :: rest)
  let buffer := slice first.2 first.1.range ++ assemble first.1.stop taken.tail
  let marked := { e with queueRx := markQueue false taken.length e.queueRx }
  set marked
  if buffer.length ≠ header.length then
    throw (.transient .parseIncomplete)
  else
    modify (Engine.logEvent (.assembled header.msgType taken))
    runIf withTranscript (modify (Engine.addToTranscript (transcriptMessage header.msgType buffer)))
    match Nom.parse
        (Body.parseWithOptions 0 header.msgType e.cipherSuite allowUnknownClientHelloSuites)
        buffer with
    | .error err => throw (Fault.ofNom err)
    | .ok (body, left) =>
      if !left.isEmpty && header.msgType = .finished then
        throw (.transient .parseIncomplete)
      else
        return ({ header := { header with fragmentOffset := 0, fragmentLength := header.length }
                  body }, buffer)

/-- `next_handshake_with_options`: the message and the buffer its ranges point
into. -/
def nextHandshakeWithOptions (wanted : MessageType) (withTranscript : Bool)
    (allowUnknownClientHelloSuites : Bool) : EngineM (Option (Handshake × Bytes)) := do
  let e ← get
  if e.hasCompleteHandshake wanted then
    match e.unhandledFragments with
    | [] => throw (.panic .assertion)
    | first :: rest =>
      let message ← defragment first rest withTranscript allowUnknownClientHelloSuites
      return some message
  else return none

/-- `next_handshake`. -/
def nextHandshake (wanted : MessageType) : EngineM (Option (Handshake × Bytes)) :=
  nextHandshakeWithOptions wanted true false

/-- `next_client_hello_for_auto_sense`. -/
def nextClientHelloForAutoSense : EngineM (Option (Handshake × Bytes)) :=
  nextHandshakeWithOptions .clientHello true true

/-- `next_handshake_no_transcript`. -/
def nextHandshakeNoTranscript (wanted : MessageType) : EngineM (Option (Handshake × Bytes)) :=
  nextHandshakeWithOptions wanted false false

namespace Engine

/-- `handshake_in_progress`. -/
def handshakeInProgress (e : Engine) : Bool :=
  e.hsSendKeys.isSome && e.appSendKeys.isNone && !e.releaseAppData

/-- `maybe_schedule_handshake_ack`. -/
def maybeScheduleHandshakeAck (now : Instant) (e : Engine) : Engine :=
  if !e.handshakeInProgress then { e with handshakeAckDeadline := none }
  else if e.handshakeAckDeadline.isSome then e
  else if !e.handshakeAckHelpNeeded then e
  else
    let delay := if e.hasGapInIncomingHandshake then 0 else e.flightBackoff.rto / 4
    { e with handshakeAckDeadline := some (now + delay) }

/-- The numbers of the epoch 2 handshake records in the queue, at most 32. -/
def queuedEpoch2Numbers (e : Engine) : List (Nat × Nat) :=
  ((e.rxRecords.filter fun r =>
    r.record.sequence.epoch = 2 && r.record.contentType = .handshake).map fun r =>
    (r.record.sequence.epoch, r.record.sequence.sequenceNumber)).take 32

/-- `purge_handled_queue_rx`. -/
def purgeHandledQueueRx (e : Engine) : Engine :=
  { e with queueRx := e.queueRx.dropWhile fun item => item.records.all Record.isHandled }

/-- `poll_timeout`. -/
def pollTimeout (e : Engine) (now : Instant) : Instant :=
  let timeout :=
    match e.connectTimeout, e.flightTimeout with
    | .armed c, .armed f => if c < f then c else f
    | .armed c, _ => c
    | _, .armed f => f
    | _, _ => now + distantFuture
  match e.handshakeAckDeadline with
  | some deadline => if deadline < timeout then deadline else timeout
  | none => timeout

end Engine

/-- `send_handshake_ack_epoch2`. -/
def sendHandshakeAckEpoch2 (numbers : List (Nat × Nat)) : EngineM Unit := do
  runIf (← get).handshakeInProgress (createCiphertextRecord .ack 2 false (ackFragment numbers))

/-- `maybe_flush_handshake_ack`. -/
def maybeFlushHandshakeAck (now : Instant) : EngineM Unit := do
  let e ← get
  match e.handshakeAckDeadline with
  | none => pure ()
  | some deadline =>
    if now < deadline then pure ()
    else
      set { e with handshakeAckDeadline := none }
      runIf (!e.queuedEpoch2Numbers.isEmpty) (sendHandshakeAckEpoch2 e.queuedEpoch2Numbers)

/-- Arms the timers that are waiting for the first timeout call. -/
def Engine.armTimers (now : Instant) (e : Engine) : Engine :=
  { e with
    connectTimeout :=
      if e.connectTimeout = .unarmed then .armed (now + e.config.handshakeTimeout)
      else e.connectTimeout
    flightTimeout :=
      if e.flightTimeout = .unarmed then .armed (now + e.flightBackoff.rto) else e.flightTimeout }

/-- The flight timer of `handle_timeout`: a passed deadline resends the flight
while retries are left. -/
def retransmit (now flightTimeout : Instant) : EngineM Unit := do
  if now < flightTimeout then pure ()
  else
    let e ← get
    if e.flightBackoff.canRetry then
      let (flightBackoff, rng) := e.flightBackoff.attempt e.rng
      set { e with flightBackoff, rng, flightTimeout := .armed (now + flightBackoff.rto) }
      flightResend
    else throw (.fatal (.timeout .handshake))

/-- `Engine::handle_timeout`. -/
def Engine.handleTimeout (now : Instant) : EngineM Unit := do
  modify (Engine.armTimers now)
  let e ← get
  if (match e.connectTimeout with | .armed deadline => decide (now ≥ deadline) | _ => false) then
    throw (.fatal (.timeout .connect))
  else
    match e.flightTimeout with
    | .armed flightTimeout =>
      retransmit now flightTimeout
      modify (Engine.maybeScheduleHandshakeAck now)
      maybeFlushHandshakeAck now
    | _ => pure ()

/-- Takes the first record that satisfies a predicate and marks it handled. -/
def markFirstRecord (p : Record → Bool) : List Record → Option (Record × List Record)
  | [] => none
  | r :: rest =>
    if p r then some (r, { r with handled := true } :: rest)
    else (markFirstRecord p rest).map fun (found, rest) => (found, r :: rest)

/-- `markFirstRecord` through the receive queue. -/
def markFirst (p : Record → Bool) : List Incoming → Option (Record × List Incoming)
  | [] => none
  | incoming :: rest =>
    match markFirstRecord p incoming.records with
    | some (found, first :: others) => some (found, ⟨first, others⟩ :: rest)
    | _ => (markFirst p rest).map fun (found, rest) => (found, incoming :: rest)

/-- `poll_app_data`: the first unhandled application data record, once released. -/
def pollAppData (bufLen : Nat) : EngineM (Option Bytes) := do
  let e ← get
  if !e.releaseAppData then return none
  else
    match markFirst (fun r => r.record.contentType = .applicationData && !r.isHandled) e.queueRx with
    | none => return none
    | some (r, queueRx) =>
      if bufLen < r.fragment.length then throw (.panic .assertion)
      else if !r.handshakes.isEmpty then throw (.panic .setHandledOnHandshake)
      else
        set ({ e with queueRx }.logEvent (.delivered r.fragment))
        return some r.fragment

/-- `poll_packet_tx`. -/
def pollPacketTx (bufLen : Nat) : EngineM (Option Bytes) := do
  let e ← get
  match e.queueTx with
  | [] => return none
  | packet :: rest =>
    set { e with queueTx := rest }
    if bufLen < packet.length then throw (.panic .assertion)
    else return some packet

/-- `Engine::poll_output`. -/
def Engine.pollOutput (bufLen : Nat) (now : Instant) : EngineM Output := do
  modify Engine.purgeHandledQueueRx
  match ← pollAppData bufLen with
  | some data => return .applicationData data
  | none =>
    modify (Engine.maybeScheduleHandshakeAck now)
    match ← pollPacketTx bufLen with
    | some packet => return .packet packet
    | none =>
      let e ← get
      if e.closeNotifySequence.isSome && !e.closeNotifyReported then
        set { e with closeNotifyReported := true }
        return .closeNotify
      else
        return .timeout (e.pollTimeout now)

end Dimpl.Dtls13
