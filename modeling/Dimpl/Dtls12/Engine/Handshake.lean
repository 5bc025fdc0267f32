import Dimpl.Dtls12.Engine.Receive

/-!
# DTLS 1.2 engine: reassembly and timers

Finding and assembling handshake messages in the receive queue, taking the
ChangeCipherSpec, the timers and the output of the engine.
-/

namespace Dimpl.Dtls12

open Nom

/-- Whether the fragments of a message follow one another without gap or overlap
up to its length; fragments of other messages are skipped. -/
def contiguous (wantedSeq wantedLength : Nat) : List Fragment → (lastFragmentEnd : Nat) → Bool
  | [], _ => false
  | h :: rest, lastFragmentEnd =>
    if wantedSeq ≠ h.header.messageSeq then contiguous wantedSeq wantedLength rest lastFragmentEnd
    else if h.header.fragmentOffset ≠ lastFragmentEnd then false
    else
      let stop := h.header.fragmentOffset + h.header.fragmentLength
      stop = wantedLength || contiguous wantedSeq wantedLength rest stop

namespace Engine

/-- The fragments a scan looks at: from the first one not handled, in at most
fifty records. -/
def scanFragments (e : Engine) : List Fragment :=
  (((e.rxRecords.dropWhile Record.isHandled).take maxDefragmentPackets).flatMap
    Record.handshakes).dropWhile Fragment.handled

/-- `has_complete_handshake`. -/
def hasCompleteHandshake (e : Engine) (wanted : MessageType) : Bool :=
  e.scanFragments.head?.any fun first =>
    first.header.messageSeq = e.peerHandshakeSeqNo && first.header.msgType = wanted &&
      contiguous first.header.messageSeq first.header.length e.scanFragments 0

/-- The fragments reassembly goes through, each with the buffer of its record. -/
def unhandledFragments (e : Engine) : List (Fragment × Bytes) :=
  ((e.rxRecords.dropWhile Record.isHandled).flatMap fun r =>
    r.handshakes.map fun h => (h, r.buffer)).dropWhile fun item => item.1.handled

end Engine

/-- Marks fragments as handled: those up to the first unhandled one are skipped,
then `left` of them are marked. -/
def markFragments : (started : Bool) → (left : Nat) → List Fragment → List Fragment × Bool × Nat
  | started, left, [] => ([], started, left)
  | started, left, h :: rest =>
    if !started && h.handled then
      let (rest, state) := markFragments started left rest
      (h :: rest, state)
    else if left = 0 then (h :: rest, true, 0)
    else
      let (rest, state) := markFragments true (left - 1) rest
      (h.setHandled :: rest, state)

/-- `markFragments` through the records of a datagram. -/
def markRecords : (started : Bool) → (left : Nat) → List Record → List Record × Bool × Nat
  | started, left, [] => ([], started, left)
  | started, left, r :: rest =>
    let (handshakes, started, left) := markFragments started left r.handshakes
    let (rest, state) := markRecords started left rest
    ({ r with handshakes } :: rest, state)

/-- `markFragments` through the receive queue. -/
def markQueue : (started : Bool) → (left : Nat) → List Incoming → List Incoming
  | _, _, [] => []
  | started, left, incoming :: rest =>
    match markRecords started left incoming.records with
    | (first :: others, started, left) => ⟨first, others⟩ :: markQueue started left rest
    | ([], started, left) => incoming :: markQueue started left rest

/-- What reassembly takes: the first fragment and those behind it until the
message type changes, whatever message they belong to. -/
def takenFragments : List (Fragment × Bytes) → List (Fragment × Bytes)
  | [] => []
  | first :: rest =>
    first :: rest.takeWhile fun item => item.1.header.msgType = first.1.header.msgType

/-- `Handshake::defragment`. The fragments are marked and the transcript is
extended before the body is parsed. -/
def defragment (first : Fragment × Bytes) (rest : List (Fragment × Bytes)) :
    EngineM (Handshake × Bytes) := do
  let e ← get
  let header := first.1.header
  let taken := takenFragments (first :: rest)
  let buffer := taken.flatMap fun item => slice item.2 item.1.range
  let whole := { header with fragmentOffset := 0, fragmentLength := header.length }
  set { e with queueRx := markQueue false taken.length e.queueRx }
  if buffer.length ≠ header.length then
    throw (.transient .parseIncomplete)
  else
    modify fun (e : Engine) => (e.logEvent (.assembled header.msgType taken)).addToTranscript
      (whole.serializeFragment buffer)
    match Nom.parse (Body.parse 0 header.msgType e.cipherSuite) buffer with
    | .error err => throw (Fault.ofNom err)
    | .ok (body, left) =>
      if !left.isEmpty && header.msgType = .finished then
        throw (.transient .parseIncomplete)
      else return ({ header := whole, body }, buffer)

/-- `next_handshake`: the message and the buffer its ranges point into. -/
def nextHandshake (wanted : MessageType) : EngineM (Option (Handshake × Bytes)) := do
  let e ← get
  if e.hasCompleteHandshake wanted then
    match e.unhandledFragments with
    | [] => throw (.panic .assertion)
    | first :: rest =>
      let message ← defragment first rest
      modify fun (e : Engine) =>
        { e with peerHandshakeSeqNo := (message.1.header.messageSeq + 1) % 65536 }
      return some message
  else return none

/-- Takes the first record that satisfies a predicate and marks it handled. -/
def markFirstRecord (p : Record → Bool) : List Record → Option (Record × List Record)
  | [] => none
  | r :: rest =>
    if p r then some (r, { r with handled := true } :: rest)
    else (markFirstRecord p rest).map fun (found, rest) => (found, r :: rest)

/-- `markFirstRecord` through the receive queue. -/
def markFirst (p : Record → Bool) : List Incoming → Option (Record × List Incoming)
  | [] => none
  | incoming :: rest =>
    match markFirstRecord p incoming.records with
    | some (found, first :: others) => some (found, ⟨first, others⟩ :: rest)
    | _ => (markFirst p rest).map fun (found, rest) => (found, incoming :: rest)

/-- The assertion of `Record::set_handled`: fragments are marked one by one. -/
def assertNoHandshakes (r : Record) : EngineM Unit :=
  if r.handshakes.isEmpty then pure () else throw (.panic .setHandledOnHandshake)

/-- `next_record`: the first unhandled record, when it is of the wanted type. -/
def nextRecord (contentType : ContentType) : EngineM (Option Record) := do
  let e ← get
  match markFirst (fun r => !r.isHandled) e.queueRx with
  | none => return none
  | some (r, queueRx) =>
    if r.record.contentType ≠ contentType then return none
    else
      assertNoHandshakes r
      set { e with queueRx }
      return some r

/-- Marks a ChangeCipherSpec. -/
def markCcs (r : Record) : Record :=
  if r.record.contentType = .changeCipherSpec then { r with handled := true } else r

/-- The assertions of `drop_pending_ccs`, one a record. -/
def assertCcs : List Record → EngineM Unit
  | [] => pure ()
  | r :: rest => do
    runIf (r.record.contentType = .changeCipherSpec) (assertNoHandshakes r)
    assertCcs rest

/-- `drop_pending_ccs`. -/
def dropPendingCcs : EngineM Unit := do
  assertCcs (← get).rxRecords
  modify fun (e : Engine) => { e with queueRx := e.queueRx.map fun item =>
    { first := markCcs item.first, rest := item.rest.map markCcs } }

namespace Engine

/-- `purge_handled_queue_rx`. -/
def purgeHandledQueueRx (e : Engine) : Engine :=
  { e with queueRx := e.queueRx.dropWhile fun item => item.records.all Record.isHandled }

/-- `poll_timeout`: a timer that is still to be armed asks for a call at once. -/
def pollTimeout (e : Engine) (now : Instant) : Instant :=
  match e.connectTimeout, e.flightTimeout with
  | .disabled, .disabled => now + distantFuture
  | .armed c, .armed f => if c < f then c else f
  | .armed c, _ => c
  | _, .armed f => f
  | _, _ => now

/-- Arms the timers that are waiting for the first timeout call. -/
def armTimers (now : Instant) (e : Engine) : Engine :=
  { e with
    connectTimeout :=
      if e.connectTimeout = .unarmed then .armed (now + e.config.handshakeTimeout)
      else e.connectTimeout
    flightTimeout :=
      if e.flightTimeout = .unarmed then .armed (now + e.flightBackoff.rto) else e.flightTimeout }

end Engine

/-- The flight timer of `handle_timeout`: a passed deadline resends the flight
while retries are left. -/
def retransmit (now flightTimeout : Instant) : EngineM Unit := do
  if now < flightTimeout then pure ()
  else
    let e ← get
    if e.flightBackoff.canRetry then
      let (flightBackoff, rng) := e.flightBackoff.attempt e.rng
      set { e with flightBackoff, rng, flightTimeout := .armed (now + flightBackoff.rto) }
      flightResend
    else throw (.fatal (.timeout .handshake))

/-- `Engine::handle_timeout`. -/
def Engine.handleTimeout (now : Instant) : EngineM Unit := do
  modify (Engine.armTimers now)
  let e ← get
  if (match e.connectTimeout with | .armed deadline => decide (now ≥ deadline) | _ => false) then
    throw (.fatal (.timeout .connect))
  else
    match e.flightTimeout with
    | .armed flightTimeout => retransmit now flightTimeout
    | _ => pure ()

/-- `poll_app_data`: the first unhandled application data record, once released. -/
def pollAppData (bufLen : Nat) : EngineM (Option Bytes) := do
  let e ← get
  if !e.releaseAppData then return none
  else
    match markFirst (fun r => r.record.contentType = .applicationData && !r.isHandled) e.queueRx with
    | none => return none
    | some (r, queueRx) =>
      if bufLen < r.fragment.length then throw (.panic .assertion)
      else
        assertNoHandshakes r
        set ({ e with queueRx }.logEvent (.delivered r.fragment))
        return some r.fragment

/-- `poll_packet_tx`. -/
def pollPacketTx (bufLen : Nat) : EngineM (Option Bytes) := do
  let e ← get
  match e.queueTx with
  | [] => return none
  | packet :: rest =>
    set { e with queueTx := rest }
    if bufLen < packet.length then throw (.panic .assertion)
    else return some packet

/-- `Engine::poll_output`. -/
def Engine.pollOutput (bufLen : Nat) (now : Instant) : EngineM Output := do
  modify Engine.purgeHandledQueueRx
  match ← pollAppData bufLen with
  | some data => return .applicationData data
  | none =>
    match ← pollPacketTx bufLen with
    | some packet => return .packet packet
    | none =>
      let e ← get
      if e.closeNotifyReceived && !e.closeNotifyReported then
        set { e with closeNotifyReported := true }
        return .closeNotify
      else
        return .timeout (e.pollTimeout now)

end Dimpl.Dtls12
