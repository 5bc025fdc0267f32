import Dimpl.Dtls13.Message

/-!
# DTLS 1.3 records

The two record formats, the parsed records a datagram leaves in the receive
queue and the recovery of the inner content type.
-/

namespace Dimpl.Dtls13

open Nom

/-- A record header and where its fragment stands. A ciphertext record has the
outer type `applicationData` and only the low bits of its number until it is
opened. -/
structure Dtls13Record where
  contentType : ContentType
  sequence : Sequence
  length : Nat
  fragmentRange : Range
  deriving DecidableEq, Repr

namespace Dtls13Record

/-- The length of a DTLSPlaintext header. -/
def plaintextHeaderLen : Nat := 13

/-- Whether a first byte starts a unified header. -/
def isCiphertextHeader (byte : UInt8) : Bool := byte &&& 0b11100000 = 0b00100000

/-- The connection identifier flag of a unified header. -/
def cFlag (flags : UInt8) : Bool := flags &&& 0b00010000 ≠ 0

/-- Whether a unified header has a 16-bit sequence number. -/
def sFlag (flags : UInt8) : Bool := flags &&& 0b00001000 ≠ 0

/-- Whether a unified header has a length. -/
def lFlag (flags : UInt8) : Bool := flags &&& 0b00000100 ≠ 0

/-- The low two bits of the epoch in a unified header. -/
def epochBits (flags : UInt8) : Nat := (flags &&& 0b00000011).toNat

/-- The bytes of the sequence number in a unified header. -/
def seqLen (flags : UInt8) : Nat := if sFlag flags then 2 else 1

/-- The length of a unified header. -/
def unifiedHeaderLen (flags : UInt8) : Nat := 1 + seqLen flags + if lFlag flags then 2 else 0

/-- `parse_plaintext`: only alerts, handshakes and ACKs of epoch 0. -/
def parsePlaintext (baseOffset : Nat) : Parser Dtls13Record := do
  let original ← remaining
  let contentType ← ContentType.parse
  let version ← ProtocolVersion.parse
  require ([ContentType.alert, .handshake, .ack].contains contentType) .tag
  require ([ProtocolVersion.dtls10, .dtls12].contains version) .tag
  let epoch ← beU16
  require (epoch = 0) .tag
  let sequenceNumber ← beU48
  let length ← beU16
  let fragmentRange ← takeRange original baseOffset length
  return { contentType, sequence := ⟨epoch, sequenceNumber⟩, length, fragmentRange }

/-- The length of a ciphertext fragment: the field, or the number of bytes left
as a 16-bit number. -/
def ciphertextLen (flags : UInt8) : Parser Nat :=
  if lFlag flags then beU16 else (fun input => input.length % 65536) <$> remaining

/-- `parse_ciphertext`. Without a length field the record takes the rest of the
datagram, its length truncated to 16 bits. -/
def parseCiphertext (baseOffset : Nat) : Parser Dtls13Record := do
  let original ← remaining
  let flags ← beU8
  require (!cFlag flags) .tag
  let sequenceNumber ← beUint (seqLen flags)
  let length ← ciphertextLen flags
  let fragmentRange ← takeRange original baseOffset length
  return { contentType := .applicationData, sequence := ⟨epochBits flags, sequenceNumber⟩,
           length, fragmentRange }

/-- `Dtls13Record::parse`. -/
def parse (baseOffset : Nat) : Parser Dtls13Record := fun input =>
  match input with
  | [] => .error (.error .eof)
  | byte :: _ =>
    if isCiphertextHeader byte then parseCiphertext baseOffset input
    else parsePlaintext baseOffset input

/-- The fragment of a record in its buffer. -/
def fragment (record : Dtls13Record) (buf : Bytes) : Bytes := slice buf record.fragmentRange

/-- The header of a plaintext record. -/
def plaintextHeader (contentType : ContentType) (sequence : Sequence) (length : Nat) : Bytes :=
  contentType.asU8 :: ProtocolVersion.dtls12.serialize ++ be16 sequence.epoch ++
    be48 sequence.sequenceNumber ++ be16 length

/-- The unified header this implementation writes: a 16-bit sequence number and
a length. -/
def unifiedHeader (sequence : Sequence) (length : Nat) : Bytes :=
  (0b00101100 ||| UInt8.ofNat (sequence.epoch % 4)) :: be16 sequence.sequenceNumber ++ be16 length

/-- `Dtls13Record::serialize`: the epoch decides the format. -/
def serialize (contentType : ContentType) (sequence : Sequence) (fragment : Bytes) : Bytes :=
  if sequence.epoch = 0 then plaintextHeader contentType sequence fragment.length ++ fragment
  else unifiedHeader sequence fragment.length ++ fragment

end Dtls13Record

/-- The loop of `parse_handshakes`: at most eight fragments, the rest of the
record is ignored from the first one that does not parse. -/
def parseHandshakesLoop : (fuel : Nat) → (baseOffset : Nat) → (input : Bytes) → List Fragment →
    List Fragment
  | 0, _, _, handshakes => handshakes
  | fuel + 1, baseOffset, input, handshakes =>
    if input.isEmpty then handshakes
    else
      match Nom.parse (Fragment.parse baseOffset) input with
      | .error _ => handshakes
      | .ok (fragment, rest) =>
        if handshakes.length < 8 then
          parseHandshakesLoop fuel (baseOffset + (input.length - rest.length)) rest
            (handshakes ++ [fragment])
        else handshakes

/-- `parse_handshakes`. -/
def parseHandshakes (input : Bytes) (baseOffset : Nat) : List Fragment :=
  parseHandshakesLoop input.length baseOffset input []

/-- A record of the receive queue: its buffer, its header, the handshake
fragments found in it and whether it was consumed. -/
structure Record where
  buffer : Bytes
  record : Dtls13Record
  handshakes : List Fragment
  handled : Bool
  deriving DecidableEq, Repr

namespace Record

/-- `ParsedRecord::parse_decrypted`: the fragments of a handshake record. -/
def ofHeader (buffer : Bytes) (record : Dtls13Record) : Record where
  buffer := buffer
  record := record
  handshakes :=
    if record.contentType = .handshake then
      parseHandshakes (record.fragment buffer) record.fragmentRange.start
    else []
  handled := false

/-- `ParsedRecord::parse`. -/
def ofBuffer (buffer : Bytes) : Except Err Record := do
  let (record, _) ← Nom.parse (Dtls13Record.parse 0) buffer
  return ofHeader buffer record

/-- The first handshake fragment. -/
def firstHandshake (r : Record) : Option Fragment := r.handshakes.head?

/-- A handshake record is handled when all its fragments are. -/
def isHandled (r : Record) : Bool :=
  if r.handshakes.isEmpty then r.handled else r.handshakes.all fun h => h.handled

/-- The fragment of a record. -/
def fragment (r : Record) : Bytes := r.record.fragment r.buffer

end Record

/-- The records of one datagram; there is at least one. -/
structure Incoming where
  first : Record
  rest : List Record
  deriving DecidableEq, Repr

namespace Incoming

/-- All records in order. -/
def records (incoming : Incoming) : List Record := incoming.first :: incoming.rest

/-- An `Incoming` from the records that survived, if any did. -/
def ofRecords : List Record → Option Incoming
  | [] => none
  | first :: rest => some ⟨first, rest⟩

end Incoming

section Parsed

variable {input rest : Bytes} {record : Dtls13Record} {baseOffset : Nat}

/-- A plaintext record is an alert, a handshake or an ACK of epoch 0. -/
theorem Dtls13Record.parsePlaintext_ok
    (parsed : parsePlaintext baseOffset input = .ok (record, rest)) :
    record.contentType ∈ [ContentType.alert, .handshake, .ack] ∧ record.sequence.epoch = 0 ∧
      record.fragmentRange.start ≤ baseOffset + input.length := by
  unfold parsePlaintext at parsed
  replace parsed := remaining_bind_ok parsed
  obtain ⟨contentType, _, _, parsed⟩ := bind_ok parsed
  obtain ⟨version, _, _, parsed⟩ := bind_ok parsed
  obtain ⟨_, _, types, parsed⟩ := bind_ok parsed
  obtain ⟨_, _, _, parsed⟩ := bind_ok parsed
  obtain ⟨epoch, _, _, parsed⟩ := bind_ok parsed
  obtain ⟨_, _, zero, parsed⟩ := bind_ok parsed
  obtain ⟨number, _, _, parsed⟩ := bind_ok parsed
  obtain ⟨length, _, _, parsed⟩ := bind_ok parsed
  obtain ⟨range, _, taken, parsed⟩ := bind_ok parsed
  obtain ⟨rfl, _⟩ := pure_ok parsed
  exact ⟨by simpa using (require_ok types).1, by simpa using (require_ok zero).1,
    (takeRange_ok taken).2⟩

/-- A ciphertext record is application data until it is opened. -/
theorem Dtls13Record.parseCiphertext_ok
    (parsed : parseCiphertext baseOffset input = .ok (record, rest)) :
    record.contentType = .applicationData ∧
      record.fragmentRange.start ≤ baseOffset + input.length := by
  unfold parseCiphertext at parsed
  replace parsed := remaining_bind_ok parsed
  obtain ⟨flags, _, _, parsed⟩ := bind_ok parsed
  obtain ⟨_, _, _, parsed⟩ := bind_ok parsed
  obtain ⟨number, _, _, parsed⟩ := bind_ok parsed
  obtain ⟨length, _, _, parsed⟩ := bind_ok parsed
  obtain ⟨range, _, taken, parsed⟩ := bind_ok parsed
  obtain ⟨rfl, _⟩ := pure_ok parsed
  exact ⟨rfl, (takeRange_ok taken).2⟩

/-- What a parsed record can be. -/
theorem Record.ofBuffer_ok {buffer : Bytes} {r : Record} (parsed : Record.ofBuffer buffer = .ok r) :
    r = Record.ofHeader buffer r.record ∧ r.record.fragmentRange.start ≤ buffer.length ∧
      ((Dtls13Record.isCiphertextHeader (buffer.headD 0) = true ∧
          r.record.contentType = .applicationData) ∨
        (Dtls13Record.isCiphertextHeader (buffer.headD 0) = false ∧
          r.record.contentType ∈ [ContentType.alert, .handshake, .ack] ∧
          r.record.sequence.epoch = 0)) := by
  unfold Record.ofBuffer Nom.parse at parsed
  cases outcome : Dtls13Record.parse 0 buffer with
  | error err => simp [StateT.run, outcome, bind, Except.bind] at parsed
  | ok result =>
      obtain ⟨record, rest⟩ := result
      have isRecord : r = Record.ofHeader buffer record := by
        simpa [StateT.run, outcome, bind, Except.bind, pure, Except.pure, eq_comm] using parsed
      subst isRecord
      cases buffer with
      | nil => simp [Dtls13Record.parse] at outcome
      | cons byte bytes =>
          simp only [Dtls13Record.parse] at outcome
          simp only [List.headD_cons]
          split at outcome
          · rename_i ciphertext
            obtain ⟨type, start⟩ := Dtls13Record.parseCiphertext_ok outcome
            exact ⟨rfl, by simpa [Record.ofHeader] using start, .inl ⟨ciphertext, type⟩⟩
          · rename_i plaintext
            obtain ⟨type, epoch, start⟩ := Dtls13Record.parsePlaintext_ok outcome
            exact ⟨rfl, by simpa [Record.ofHeader] using start, .inr ⟨by simpa using plaintext, type, epoch⟩⟩

end Parsed

/-- The position of the last byte that is not zero, counted from the end of a
reversed byte string. -/
def skipPadding : Bytes → Bytes
  | [] => []
  | byte :: rest => if byte = 0 then skipPadding rest else byte :: rest

/-- `recover_inner_content_type`: the type byte before the zero padding and the
length of the content before it. -/
def recoverInnerContentType (decrypted : Bytes) : Option (ContentType × Nat) :=
  match skipPadding decrypted.reverse with
  | [] => none
  | byte :: content => some (⟨byte⟩, content.length)

end Dimpl.Dtls13
