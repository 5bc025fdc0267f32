import Dimpl.Dtls12.Message

/-!
# DTLS 1.2 records

The record header, the parsed records a datagram leaves in the receive queue and
where the records of a datagram end.
-/

namespace Dimpl.Dtls12

open Nom

/-- A record header and where its fragment stands. -/
structure DTLSRecord where
  contentType : ContentType
  version : ProtocolVersion
  sequence : Sequence
  length : Nat
  fragmentRange : Range
  deriving DecidableEq, Repr

namespace DTLSRecord

/-- Type, version, epoch, sequence number and length. -/
def headerLen : Nat := 13

/-- The explicit nonce of AES-GCM records. -/
def explicitNonceLength : Nat := 8

/-- The content types that may come unprotected. -/
def plaintextTypes : List ContentType := [.changeCipherSpec, .alert, .handshake]

/-- `DTLSRecord::parse`. A decrypted record has its explicit nonce between header
and fragment, which `skipOffset` jumps over. -/
def parse (baseOffset skipOffset : Nat) : Parser DTLSRecord := do
  let original ← remaining
  let contentType ← ContentType.parse
  let version ← ProtocolVersion.parse
  require ([ProtocolVersion.dtls10, .dtls12].contains version) .tag
  let epoch ← beU16
  require (epoch ≠ 0 || plaintextTypes.contains contentType) .tag
  let sequenceNumber ← beU48
  let length ← beU16
  let _ ← take skipOffset
  let fragmentRange ← takeRange original baseOffset length
  return { contentType, version, sequence := ⟨epoch, sequenceNumber⟩, length, fragmentRange }

/-- The fragment of a record in its buffer. -/
def fragment (record : DTLSRecord) (buf : Bytes) : Bytes := slice buf record.fragmentRange

/-- `nonce_with_len`: the first bytes of the fragment. -/
def nonceWithLen (record : DTLSRecord) (buf : Bytes) (len : Nat) : Bytes :=
  (record.fragment buf).take len

/-- `DTLSRecord::serialize`; the record layer version is always DTLS 1.2. -/
def serialize (contentType : ContentType) (sequence : Sequence) (fragment : Bytes) : Bytes :=
  contentType.asU8 :: ProtocolVersion.dtls12.serialize ++ be16 sequence.epoch ++
    be48 sequence.sequenceNumber ++ be16 fragment.length ++ fragment

/-- `DTLSRecord::serialize` of any record, with the length it has. -/
def serializeRecord (record : DTLSRecord) (buf : Bytes) : Bytes :=
  record.contentType.asU8 :: record.version.serialize ++ be16 record.sequence.epoch ++
    be48 record.sequence.sequenceNumber ++ be16 record.length ++ record.fragment buf

/-- The records that are sent. -/
theorem serializeRecord_dtls12 (contentType : ContentType) (sequence : Sequence) (fragment : Bytes) :
    serializeRecord ⟨contentType, .dtls12, sequence, fragment.length, ⟨0, fragment.length⟩⟩ fragment =
      serialize contentType sequence fragment := by
  have whole : slice fragment ⟨0, fragment.length⟩ = fragment := by
    rw [slice, List.drop_zero, Nat.sub_zero, List.take_length]
  rw [serializeRecord, DTLSRecord.fragment, whole, serialize]

end DTLSRecord

/-- The loop of `parse_handshakes`: at most eight fragments, the rest of the
record is ignored from the first one that does not parse. -/
def parseHandshakesLoop : (fuel : Nat) → (baseOffset : Nat) → (input : Bytes) → List Fragment →
    List Fragment
  | 0, _, _, handshakes => handshakes
  | fuel + 1, baseOffset, input, handshakes =>
    if input.isEmpty then handshakes
    else
      match Nom.parse (Fragment.parse baseOffset) input with
      | .error _ => handshakes
      | .ok (fragment, rest) =>
        if handshakes.length < 8 then
          parseHandshakesLoop fuel (baseOffset + (input.length - rest.length)) rest
            (handshakes ++ [fragment])
        else handshakes

/-- `parse_handshakes`. -/
def parseHandshakes (input : Bytes) (baseOffset : Nat) : List Fragment :=
  parseHandshakesLoop input.length baseOffset input []

/-- A record of the receive queue: its buffer, its header, the handshake
fragments found in it and whether it was consumed. -/
structure Record where
  buffer : Bytes
  record : DTLSRecord
  handshakes : List Fragment
  handled : Bool
  deriving DecidableEq, Repr

namespace Record

/-- A fresh record; only a handshake record has handshake fragments. -/
def ofHeader (buffer : Bytes) (record : DTLSRecord) : Record where
  buffer := buffer
  record := record
  handshakes :=
    if record.contentType = .handshake then
      parseHandshakes (record.fragment buffer) record.fragmentRange.start
    else []
  handled := false

/-- `ParsedRecord::parse`. -/
def ofBuffer (buffer : Bytes) (offset : Nat) : Except Err Record := do
  let (record, _) ← Nom.parse (DTLSRecord.parse 0 offset) buffer
  return ofHeader buffer record

/-- The first handshake fragment. -/
def firstHandshake (r : Record) : Option Fragment := r.handshakes.head?

/-- A handshake record is handled when all its fragments are. -/
def isHandled (r : Record) : Bool :=
  if r.handshakes.isEmpty then r.handled else r.handshakes.all fun h => h.handled

/-- The fragment of a record. -/
def fragment (r : Record) : Bytes := r.record.fragment r.buffer

/-- The epoch and number of a record. -/
def sequence (r : Record) : Sequence := r.record.sequence

end Record

/-- The records of one datagram; there is at least one. -/
structure Incoming where
  first : Record
  rest : List Record
  deriving DecidableEq, Repr

namespace Incoming

/-- All records in order. -/
def records (incoming : Incoming) : List Record := incoming.first :: incoming.rest

/-- An `Incoming` from the records that survived, if any did. -/
def ofRecords : List Record → Option Incoming
  | [] => none
  | first :: rest => some ⟨first, rest⟩

end Incoming

/-- Where the first record of a datagram ends, if it is all there. -/
def recordEnd (packet : Bytes) : Option Nat :=
  if packet.length < DTLSRecord.headerLen then none
  else
    let stop := DTLSRecord.headerLen + beValue ((packet.drop 11).take 2)
    if packet.length < stop then none else some stop

/-- The loop of `recordSlices`. -/
def recordSlicesLoop : (fuel : Nat) → (packet : Bytes) → List Bytes
  | 0, _ => []
  | fuel + 1, packet =>
    match recordEnd packet with
    | none => []
    | some stop => packet.take stop :: recordSlicesLoop fuel (packet.drop stop)

/-- The slices `Records::parse` cuts a datagram into, as far as it gets. -/
def recordSlices (packet : Bytes) : List Bytes := recordSlicesLoop packet.length packet

section Parsed

variable {input rest : Bytes} {record : DTLSRecord} {baseOffset skipOffset : Nat}

/-- What the header of a record says, read off its bytes. -/
def DTLSRecord.ofBytes (input : Bytes) (start : Nat) : DTLSRecord :=
  let length := beValue ((input.drop 11).take 2)
  { contentType := ⟨input.headD 0⟩
    version := ⟨beValue ((input.drop 1).take 2)⟩
    sequence := ⟨beValue ((input.drop 3).take 2), beValue ((input.drop 5).take 6)⟩
    length := length
    fragmentRange := ⟨start, start + length⟩ }

/-- A parsed record is what its header says, its fragment is inside the buffer
and unprotected records have one of three types. -/
theorem DTLSRecord.parse_ok (parsed : parse baseOffset skipOffset input = .ok (record, rest)) :
    record = ofBytes input (baseOffset + headerLen + skipOffset) ∧
      headerLen + skipOffset + record.length ≤ input.length ∧
      (record.sequence.epoch ≠ 0 ∨ record.contentType ∈ plaintextTypes) := by
  unfold parse at parsed
  replace parsed := remaining_bind_ok parsed
  obtain ⟨contentType, bytes, type, parsed⟩ := bind_ok parsed
  obtain ⟨byte, _, first, type⟩ := bind_ok type
  obtain ⟨rfl, rfl⟩ := pure_ok type
  obtain rfl := beU8_ok first
  obtain ⟨version, _, code, parsed⟩ := bind_ok parsed
  obtain ⟨asU16, _, number, code⟩ := bind_ok code
  obtain ⟨longVersion, rfl, rfl⟩ := beUint_ok number
  obtain ⟨rfl, rfl⟩ := pure_ok code
  obtain ⟨_, _, versions, parsed⟩ := bind_ok parsed
  obtain ⟨_, rfl⟩ := require_ok versions
  obtain ⟨epoch, _, number, parsed⟩ := bind_ok parsed
  obtain ⟨longEpoch, rfl, rfl⟩ := beUint_ok number
  obtain ⟨_, _, types, parsed⟩ := bind_ok parsed
  obtain ⟨allowed, rfl⟩ := require_ok types
  obtain ⟨sequenceNumber, _, number, parsed⟩ := bind_ok parsed
  obtain ⟨longNumber, rfl, rfl⟩ := beUint_ok number
  obtain ⟨length, _, number, parsed⟩ := bind_ok parsed
  obtain ⟨longLength, rfl, rfl⟩ := beUint_ok number
  obtain ⟨_, _, skipped, parsed⟩ := bind_ok parsed
  obtain ⟨longSkip, _, rfl⟩ := take_ok skipped
  obtain ⟨range, _, taken, parsed⟩ := bind_ok parsed
  obtain ⟨long, rfl, rfl⟩ := takeRange_eq taken
  obtain ⟨rfl, _⟩ := pure_ok parsed
  simp only [List.length_drop] at longEpoch longNumber longLength longSkip long
  refine ⟨?_, ?_, ?_⟩
  · have start : (byte :: bytes).length -
        (List.drop skipOffset (List.drop 2 (List.drop 6 (List.drop 2 (List.drop 2 bytes))))).length =
        headerLen + skipOffset := by
      simp only [List.length_cons, List.length_drop, headerLen]
      omega
    rw [start]
    simp [ofBytes, Nat.add_assoc]
  · simp only [List.length_cons, headerLen]
    omega
  · simpa using allowed

/-- What a parsed record can be. -/
theorem Record.ofBuffer_ok {buffer : Bytes} {offset : Nat} {r : Record}
    (parsed : Record.ofBuffer buffer offset = .ok r) :
    r = Record.ofHeader buffer r.record ∧
      r.record = DTLSRecord.ofBytes buffer (DTLSRecord.headerLen + offset) ∧
      DTLSRecord.headerLen + offset + r.record.length ≤ buffer.length ∧
      (r.sequence.epoch ≠ 0 ∨ r.record.contentType ∈ DTLSRecord.plaintextTypes) := by
  unfold Record.ofBuffer Nom.parse at parsed
  cases outcome : DTLSRecord.parse 0 offset buffer with
  | error err => simp [StateT.run, outcome, bind, Except.bind] at parsed
  | ok result =>
      obtain ⟨record, rest⟩ := result
      have isRecord : r = Record.ofHeader buffer record := by
        simpa [StateT.run, outcome, bind, Except.bind, pure, Except.pure, eq_comm] using parsed
      subst isRecord
      obtain ⟨fields, inside, types⟩ := DTLSRecord.parse_ok outcome
      rw [Nat.zero_add] at fields
      exact ⟨rfl, fields, inside, types⟩

/-- Only a handshake record has handshake fragments. -/
theorem Record.ofHeader_handshakes {buffer : Bytes} {record : DTLSRecord}
    (other : record.contentType ≠ .handshake) : (Record.ofHeader buffer record).handshakes = [] := by
  simp [Record.ofHeader, other]

end Parsed

end Dimpl.Dtls12
