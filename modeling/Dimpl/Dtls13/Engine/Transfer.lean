import Dimpl.Dtls13.Engine.Completeness
import Dimpl.Dtls13.Engine.Fragmentation
import Dimpl.Lib.Format

/-!
# A message in the clear, from one side to the other

A hello that is sent from an empty queue leaves in datagrams of one record each. The other side
finds in each the fragment it was made of, queues them by their offsets whatever the order they
come in, and puts the hello together again.
-/

namespace Dimpl.Dtls13

open Nom Program Pieces Packing Arrangement

section Sending

variable {e : Engine} {header : Header} {body : Bytes}

/-- What a plaintext record of a fragment is longer by than its piece. -/
def clearOverhead : Nat := Dtls13Record.plaintextHeaderLen + 12

/-- Plaintext records with these fragments, numbered from a place. -/
def clearRecords (number : Nat) (fragments : List Bytes) : List Bytes :=
  (fragments.zipIdx number).map fun item => Dtls13Record.serialize .handshake ⟨0, item.2⟩ item.1

/-- What is not the last piece of a body takes a whole datagram. -/
theorem chunkLen_whole {overhead offset : Nat} (capacity : overhead < e.config.mtu)
    (full : ∀ last, e.queueTx.getLast? = some last → e.config.mtu ≤ last.length + overhead)
    (more : offset + chunkLen e overhead body.length offset < body.length) :
    chunkLen e overhead body.length offset = e.config.mtu - overhead := by
  unfold chunkLen at more ⊢
  dsimp only at more ⊢
  rw [if_neg (by omega)] at more ⊢
  cases isLast : e.queueTx.getLast? with
  | none =>
      rw [isLast] at more
      simp only [Option.map_none, Option.getD_none, Nat.sub_zero, if_pos capacity] at more ⊢
      omega
  | some last =>
      have none : ¬e.config.mtu - last.length > overhead := by
        have closed := full last isLast
        omega
      rw [isLast] at more
      simp only [Option.map_some, Option.getD_some, if_neg none] at more ⊢
      omega

/-- From a queue whose last datagram is full, every record starts a datagram. -/
theorem createFragments_separate {fuel offset : Nat} (capacity : clearOverhead < e.config.mtu)
    (filled : body ≠ []) (inside : offset ≤ body.length)
    (full : offset < body.length → ∀ last, e.queueTx.getLast? = some last →
      e.config.mtu ≤ last.length + clearOverhead) :
    Post (createFragments header 0 clearOverhead body fuel offset) e
      (fun _ e' => ∃ pieces, Tiles body offset pieces ∧ Emits 0 (pieces.map header.cutFragment) e e' ∧
        Filled (e.config.mtu - clearOverhead) pieces ∧
        e'.queueTx = e.queueTx ++ clearRecords e.sequenceEpoch0 (pieces.map header.cutFragment))
      fun _ _ => True := by
  have nonempty : body.length ≠ 0 := fun empty => filled (List.length_eq_zero_iff.mp empty)
  induction fuel generalizing e offset with
  | zero => trivial
  | succ fuel inductionHypothesis =>
      unfold createFragments
      dsimp only
      rw [post_ite]
      constructor
      · intro enters
        have more : offset < body.length := by
          simpa [nonempty] using enters
        have whole := @chunkLen_whole e body clearOverhead offset capacity (full more)
        obtain ⟨progress, inside⟩ := chunkLen_some capacity more
        have within := @chunkLen_le e clearOverhead body offset
        rw [post_bind, post_get, post_bind]
        generalize chunkLen e clearOverhead body.length offset = chunk at *
        refine createRecord_made.mono (fun _ e₁ made => ?_) fun _ _ _ => trivial
        unfold runIf
        rw [if_pos (by simpa using nonempty)]
        obtain ⟨wire, append, isWire, appends, placed⟩ := made.placed
        cases isWire with
        | ciphertext later => exact absurd rfl later
        | plaintext small =>
        have length : (Dtls13Record.serialize .handshake ⟨0, e.nextSeq 0⟩
            (header.cutFragment (.cut body offset chunk))).length = clearOverhead + chunk := by
          rw [Dtls13Record.length_serialize_plaintext, Header.cutFragment, Header.length_serializeFragment,
            (Piece.cut_of inside).length_bytes]
          exact (Nat.add_assoc ..).symm
        have separate : append = false := by
          by_contra appended
          obtain ⟨last, isLast, fits⟩ := appends (Bool.not_eq_false _ ▸ appended)
          have closed := full more last isLast
          have fits : last.length + (Dtls13Record.serialize .handshake ⟨0, e.nextSeq 0⟩
              (header.cutFragment (.cut body offset chunk))).length ≤ e.config.mtu := fits
          rw [length] at fits
          omega
        rw [separate] at placed
        have queue : e₁.queueTx = e.queueTx ++ [Dtls13Record.serialize .handshake ⟨0, e.nextSeq 0⟩
            (header.cutFragment (.cut body offset chunk))] := placed
        have again : offset + chunk < body.length → ∀ last, e₁.queueTx.getLast? = some last →
            e₁.config.mtu ≤ last.length + clearOverhead := by
          intro unfinished last isLast
          rw [queue, List.getLast?_concat] at isLast
          obtain rfl := Option.some.inj isLast
          rw [length, made.config, whole unfinished]
          omega
        refine (inductionHypothesis (made.config ▸ capacity) inside again).mono ?_ fun _ _ _ => trivial
        rintro _ e' ⟨pieces, tiles, emits, filled, queue'⟩
        refine ⟨_, .piece progress inside tiles, .record made emits, ?_, ?_⟩
        · rw [made.config] at filled
          exact .piece within (fun some => whole (tiles.more some)) filled
        have number : e₁.sequenceEpoch0 = e.sequenceEpoch0 + 1 := made.number
        rw [queue', queue, number, List.append_assoc]
        rfl
      · intro stops
        have complete : offset = body.length := by
          simp [nonempty] at stops
          omega
        exact ⟨[], .done complete, .none, .none, (List.append_nil _).symm⟩

end Sending

section Parsing

variable {header : Header} {bytes rest : Bytes} {baseOffset : Nat}

/-- The fields of a header fit their places. -/
structure Header.Fits (header : Header) : Prop where
  length : header.length < 16777216
  messageSeq : header.messageSeq < 65536
  fragmentOffset : header.fragmentOffset < 16777216
  fragmentLength : header.fragmentLength < 16777216

/-- A fragment is found as it was written. -/
theorem Fragment.parse_serialize (fits : header.Fits) (length : bytes.length = header.fragmentLength) :
    Fragment.parse baseOffset (header.serializeFragment bytes ++ rest) =
      .ok (⟨header, ⟨baseOffset + 12, baseOffset + 12 + header.fragmentLength⟩, false⟩, rest) := by
  have parsed : Header.parse (header.serializeFragment bytes ++ rest) = .ok (header, bytes ++ rest) := by
    unfold Header.parse MessageType.parse Header.serializeFragment
    simp only [bind_iff, pure_iff, beU8_iff, beU24_iff, beU16_iff, List.cons_append, List.append_assoc]
    exact ⟨header.msgType, _, ⟨_, _, rfl, rfl, rfl⟩, _, _, ⟨fits.length, rfl⟩, _, _, ⟨fits.messageSeq, rfl⟩,
      _, _, ⟨fits.fragmentOffset, rfl⟩, _, _, ⟨fits.fragmentLength, rfl⟩, rfl, rfl⟩
  unfold Fragment.parse
  simp only [bind_iff, remaining_iff, takeRange_iff, pure_iff]
  refine ⟨_, _, ⟨rfl, rfl⟩, header, _, parsed, ⟨baseOffset + 12, baseOffset + 12 + header.fragmentLength⟩, _,
    ⟨bytes, length, rfl, ?_⟩, rfl, rfl⟩
  have consumed : (header.serializeFragment bytes ++ rest).length - (bytes ++ rest).length = 12 := by
    simp only [List.length_append, Header.length_serializeFragment]
    omega
  rw [consumed]

/-- The record of one fragment holds that fragment. -/
theorem parseHandshakes_serialize (fits : header.Fits) (length : bytes.length = header.fragmentLength) :
    parseHandshakes (header.serializeFragment bytes) baseOffset =
      [⟨header, ⟨baseOffset + 12, baseOffset + 12 + header.fragmentLength⟩, false⟩] := by
  have long := @Header.length_serializeFragment header bytes
  have parsed := @Fragment.parse_serialize header bytes [] baseOffset fits length
  rw [List.append_nil] at parsed
  unfold parseHandshakes
  rw [long, Nat.add_comm 12]
  unfold parseHandshakesLoop
  have some : (header.serializeFragment bytes).isEmpty = false := rfl
  have run : Nom.parse (Fragment.parse baseOffset) (header.serializeFragment bytes) =
      .ok (⟨header, ⟨baseOffset + 12, baseOffset + 12 + header.fragmentLength⟩, false⟩, []) := parsed
  rw [some, if_neg Bool.false_ne_true, run]
  cases bytes with
  | nil => rfl
  | cons byte bytes => rfl

/-- The header of a plaintext handshake record. -/
def clearHeader (number length : Nat) : Dtls13Record where
  contentType := .handshake
  sequence := ⟨0, number⟩
  length := length
  fragmentRange := ⟨Dtls13Record.plaintextHeaderLen, Dtls13Record.plaintextHeaderLen + length⟩

variable {number : Nat} {fragment : Bytes}

theorem serialize_clear : Dtls13Record.serialize .handshake ⟨0, number⟩ fragment =
    Dtls13Record.plaintextHeader .handshake ⟨0, number⟩ fragment.length ++ fragment := rfl

theorem length_plaintextHeader {length : Nat} :
    (Dtls13Record.plaintextHeader .handshake ⟨0, number⟩ length).length = 13 := rfl

/-- A plaintext record is found as it was written. -/
theorem Record.ofBuffer_clear (small : number < 2 ^ 48) (short : fragment.length < 65536) :
    Record.ofBuffer (Dtls13Record.serialize .handshake ⟨0, number⟩ fragment) =
      .ok (Record.ofHeader (Dtls13Record.serialize .handshake ⟨0, number⟩ fragment)
        (clearHeader number fragment.length)) := by
  have range := @takeRange_append fragment [] 0 fragment.length
    (Dtls13Record.plaintextHeader .handshake ⟨0, number⟩ fragment.length) rfl
  rw [List.append_nil, length_plaintextHeader, Nat.zero_add] at range
  have isNumber : beValue (be48 number) = number := by
    rw [beValue_be48]
    exact Nat.mod_eq_of_lt small
  have isLength : beValue (be16 fragment.length) = fragment.length := by
    rw [beValue_be16]
    exact Nat.mod_eq_of_lt short
  have isEpoch : beValue (be16 0) = 0 := by decide
  have parsed : Dtls13Record.parsePlaintext 0
      (Dtls13Record.plaintextHeader .handshake ⟨0, number⟩ fragment.length ++ fragment) =
      .ok (clearHeader number fragment.length, []) := by
    have type : ∀ bytes, ContentType.parse (ContentType.handshake.asU8 :: bytes) =
        .ok (ContentType.handshake, bytes) := fun _ => rfl
    have version : ∀ bytes, ProtocolVersion.parse (ProtocolVersion.dtls12.serialize ++ bytes) =
        .ok (ProtocolVersion.dtls12, bytes) := fun _ => bind_of_ok (beUint_append (length_be16 _))
    unfold Dtls13Record.parsePlaintext
    refine (bind_of_ok rfl).trans ?_
    have written : Dtls13Record.plaintextHeader .handshake ⟨0, number⟩ fragment.length ++ fragment =
        ContentType.handshake.asU8 :: (ProtocolVersion.dtls12.serialize ++
          (be16 0 ++ (be48 number ++ (be16 fragment.length ++ fragment)))) := by
      simp only [Dtls13Record.plaintextHeader, List.cons_append, List.append_assoc]
    rw [written] at range ⊢
    refine (bind_of_ok (type _)).trans ((bind_of_ok (version _)).trans ?_)
    refine (bind_of_ok (require_of (by decide))).trans ((bind_of_ok (require_of (by decide))).trans ?_)
    refine (bind_of_ok (beUint_append (length_be16 0))).trans ?_
    rw [isEpoch]
    refine (bind_of_ok (require_of rfl)).trans ?_
    refine (bind_of_ok (beUint_append (length_be48 number))).trans ?_
    refine (bind_of_ok (beUint_append (length_be16 fragment.length))).trans ?_
    rw [isNumber, isLength]
    exact (bind_of_ok range).trans rfl
  have plain : Dtls13Record.parse 0 (Dtls13Record.serialize .handshake ⟨0, number⟩ fragment) =
      Dtls13Record.parsePlaintext 0
        (Dtls13Record.plaintextHeader .handshake ⟨0, number⟩ fragment.length ++ fragment) := by
    rw [serialize_clear]
    rfl
  unfold Record.ofBuffer Nom.parse StateT.run
  rw [plain, parsed]
  rfl

theorem recordEnd_clear (short : fragment.length < 65536) :
    recordEnd (Dtls13Record.serialize .handshake ⟨0, number⟩ fragment) =
      .ok (some (Dtls13Record.serialize .handshake ⟨0, number⟩ fragment).length) := by
  have field : ((Dtls13Record.serialize .handshake ⟨0, number⟩ fragment).drop 11).take 2 =
      be16 fragment.length := rfl
  have isLength : beValue (be16 fragment.length) = fragment.length := by
    rw [beValue_be16]
    exact Nat.mod_eq_of_lt short
  have long := @Dtls13Record.length_serialize_plaintext .handshake number fragment
  have type : Dtls13Record.isCiphertextHeader
      ((Dtls13Record.serialize .handshake ⟨0, number⟩ fragment).headD 0) = false := by
    have first : (Dtls13Record.serialize .handshake ⟨0, number⟩ fragment).headD 0 = 22 := rfl
    rw [first]
    decide
  unfold recordEnd
  dsimp only
  rw [type, if_neg Bool.false_ne_true, field, isLength, if_neg (by omega), long]

end Parsing

/-- The record of a piece of a message, as it is sent. -/
abbrev clearWire (header : Header) (item : Piece UInt8 × Nat) : Bytes :=
  Dtls13Record.serialize .handshake ⟨0, item.2⟩ (header.cutFragment item.1)

/-- The same, as it is found. -/
def clearRecord (header : Header) (item : Piece UInt8 × Nat) : Record :=
  .ofHeader (clearWire header item)
    (clearHeader item.2 (header.cutFragment item.1).length)

/-- The fragment in it. -/
def clearFragment (header : Header) (p : Piece UInt8) : Fragment where
  header := { header with fragmentOffset := p.offset, fragmentLength := p.length }
  range := ⟨25, 25 + p.length⟩
  handled := false

/-- A datagram with that record. -/
def clearIncoming (header : Header) (item : Piece UInt8 × Nat) : Incoming := ⟨clearRecord header item, []⟩

/-- A piece and a number that a record has room for. -/
structure Carriable (header : Header) (item : Piece UInt8 × Nat) : Prop where
  fits : Header.Fits { header with fragmentOffset := item.1.offset, fragmentLength := item.1.length }
  length : item.1.bytes.length = item.1.length
  short : item.1.length + 12 < 65536
  number : item.2 < 2 ^ 48

section Receiving

variable {e : Engine} {header : Header} {item : Piece UInt8 × Nat}

theorem Carriable.length_fragment (carriable : Carriable header item) :
    (header.cutFragment item.1).length = 12 + item.1.length := by
  rw [Header.cutFragment, Header.length_serializeFragment, carriable.length]

theorem Carriable.handshakes (carriable : Carriable header item) :
    (clearRecord header item).handshakes = [clearFragment header item.1] := by
  have whole : (clearHeader item.2 (header.cutFragment item.1).length).fragment
      (clearWire header item) =
      header.cutFragment item.1 := by
    have after : (clearWire header item).drop
        Dtls13Record.plaintextHeaderLen = header.cutFragment item.1 :=
      List.drop_left' length_plaintextHeader
    unfold Dtls13Record.fragment slice clearHeader
    dsimp only
    rw [after, Nat.add_sub_cancel_left, List.take_length]
  have isHandshake : (clearHeader item.2 (header.cutFragment item.1).length).contentType = .handshake := rfl
  unfold clearRecord Record.ofHeader
  dsimp only
  rw [if_pos isHandshake, whole]
  exact parseHandshakes_serialize carriable.fits carriable.length

/-- A handshake record is kept. -/
theorem classifyRecord_clear (opening : e.closeNotifySequence = none) :
    classifyRecord (clearRecord header item) e = .ok (some (clearRecord header item)) e := by
  have type : (clearRecord header item).record.contentType = .handshake := rfl
  have ack : ContentType.handshake ≠ .ack := by decide
  have alert : ContentType.handshake ≠ .alert := by decide
  have ccs : ContentType.handshake ≠ .changeCipherSpec := by decide
  have kept : Post (classifyRecord (clearRecord header item)) e
      (fun kept e' => kept = some (clearRecord header item) ∧ e' = e) fun _ _ => False := by
    unfold classifyRecord
    rw [post_bind, post_get, type, opening]
    simp [ack, alert, ccs]
  unfold Post at kept
  split at kept
  · rename_i isKept
    rw [isKept, kept.1, kept.2]
  · exact kept.elim

/-- The datagram is one record. -/
theorem parseRecords_clear (carriable : Carriable header item) (opening : e.closeNotifySequence = none) :
    Post (parseRecords (clearWire header item)) e
      (fun records e' => records = [clearRecord header item] ∧ e' = e) fun _ _ => False := by
  have short : (header.cutFragment item.1).length < 65536 := by
    rw [carriable.length_fragment, Nat.add_comm]
    exact carriable.short
  have parsed : Record.ofBuffer (clearWire header item) = .ok (clearRecord header item) :=
    Record.ofBuffer_clear carriable.number short
  have ends : recordEnd (clearWire header item) = .ok (some (clearWire header item).length) :=
    recordEnd_clear short
  have type : Dtls13Record.isCiphertextHeader
      ((clearWire header item).headD 0) = false := by
    have first : (clearWire header item).headD 0 = 22 := rfl
    rw [first]
    decide
  have some : (clearWire header item).isEmpty = false := rfl
  obtain ⟨fuel, isFuel⟩ : ∃ fuel, (clearWire header item).length = fuel + 1 := ⟨_, rfl⟩
  generalize clearWire header item = wire at *
  have rest : ∀ records, parseRecordsLoop fuel [] records = (pure records : EngineM (List Record)) := by
    intro records
    cases fuel <;> rfl
  unfold parseRecords
  rw [post_bind, isFuel]
  unfold parseRecordsLoop
  rw [some, if_neg Bool.false_ne_true, ends]
  dsimp only
  rw [if_neg (Nat.lt_irrefl _), List.take_length, List.drop_length, post_bind]
  unfold parseRecord
  rw [post_bind]
  refine (decryptSequenceNumber_clear (.inl type)).mono ?_ fun _ _ => id
  rintro _ _ ⟨rfl, rfl⟩
  rw [post_bind, post_get, parsed]
  dsimp only
  rw [type, post_ite]
  refine ⟨fun _ => ?_, fun off => absurd rfl off⟩
  rw [post_pure]
  dsimp only
  rw [if_pos (by decide), rest, post_pure]
  unfold classifyRecords
  rw [List.nil_append, post_bind, Post, classifyRecord_clear opening]
  exact ⟨rfl, rfl⟩

/-- A datagram that starts with a fragment of the expected message is queued. -/
theorem insertIncoming_expected {incoming : Incoming} {handshake : Fragment} {items : List Incoming}
    (isFirst : incoming.first.firstHandshake = some handshake)
    (expected : handshake.header.messageSeq = e.peerHandshakeSeqNo)
    (punctual : (((incoming.records.filterMap Record.firstHandshake).filterMap
      Fragment.dupeTriggersResend).head?.any fun seq => seq < e.peerHandshakeSeqNo) = false)
    (handshaking : e.releaseAppData = false) (room : e.queueRx.length < e.config.maxQueueRx)
    (arranged : Arranged Incoming.key Incoming.whole items e.queueRx)
    (fresh : ∀ item ∈ e.queueRx, item.Fresh) :
    Post (insertIncoming incoming) e
      (fun _ e' => ∃ numbers queueRx, e' = { e with receivedRecordNumbers := numbers, queueRx } ∧
        Arranged Incoming.key Incoming.whole (items ++ [incoming]) queueRx) fun _ _ => False := by
  have isKey : (handshake.header.messageSeq, handshake.header.fragmentOffset) = queueKey incoming := by
    simp [queueKey, isFirst]
  unfold insertIncoming
  rw [post_bind, post_get, if_neg (Nat.not_le.mpr room), isFirst]
  dsimp only
  unfold insertIncomingHandshake
  rw [post_bind, post_get, post_bind, punctual, runIf, if_neg Bool.false_ne_true, post_pure,
    post_bind, post_get]
  dsimp only
  have early : ¬handshake.header.messageSeq < e.peerHandshakeSeqNo := by omega
  have unreleased : ¬(e.releaseAppData && decide (handshake.header.msgType ≠ .keyUpdate)) = true := by
    simp [handshaking]
  rw [if_neg early, if_neg unreleased, isKey]
  split
  · rename_i index miss
    rw [post_set]
    obtain ⟨front, back, split, smaller, larger, inserted⟩ := search_miss (fun _ => then_lt)
      (fun _ => then_gt) arranged.sorted miss
    rw [split] at arranged
    exact ⟨_, _, rfl, inserted incoming ▸ arranged.insert smaller larger⟩
  · rename_i index hit
    obtain ⟨front, existing, back, split, sameKey, found, replaced⟩ :=
      search_hit (fun _ => then_lt) (fun _ => then_gt) hit
    have isFresh : existing.Fresh := fresh existing (List.mem_of_getElem? found)
    have again := (split ▸ arranged).again sameKey
    rw [found, Option.any_some, shouldReplace_fresh isFresh, post_ite]
    constructor
    · intro replaces
      rw [post_set]
      rw [if_pos replaces] at again
      exact ⟨_, _, rfl, replaced incoming ▸ again⟩
    · intro stays
      rw [if_neg stays, ← split] at again
      exact ⟨_, _, rfl, again⟩

theorem Carriable.firstHandshake (carriable : Carriable header item) :
    (clearRecord header item).firstHandshake = some (clearFragment header item.1) := by
  rw [Record.firstHandshake, carriable.handshakes]
  rfl

/-- Records that look alike hold pieces of one place. -/
theorem Carriable.offset {other : Piece UInt8 × Nat} (carriable : Carriable header item)
    (carriable' : Carriable header other) (same : clearWire header item = clearWire header other) :
    item.1.offset = other.1.offset := by
  have short : ∀ {item}, Carriable header item → (header.cutFragment item.1).length < 65536 := by
    intro item carriable
    rw [carriable.length_fragment, Nat.add_comm]
    exact carriable.short
  have isRecord : Record.ofBuffer (clearWire header item) = .ok (clearRecord header item) :=
    Record.ofBuffer_clear carriable.number (short carriable)
  have isRecord' : Record.ofBuffer (clearWire header other) = .ok (clearRecord header other) :=
    Record.ofBuffer_clear carriable'.number (short carriable')
  rw [same, isRecord'] at isRecord
  have first := carriable.firstHandshake
  rw [← Except.ok.inj isRecord, carriable'.firstHandshake] at first
  have sameFragment := Option.some.inj first
  exact (congrArg (fun h => h.header.fragmentOffset) sameFragment).symm

theorem Carriable.fresh (carriable : Carriable header item) : (clearIncoming header item).Fresh where
  starts := Option.isSome_iff_exists.mpr ⟨_, carriable.firstHandshake⟩
  unhandled := by
    intro h member
    have fragments : (clearIncoming header item).fragments = [clearFragment header item.1] := by
      rw [Incoming.fragments, clearIncoming, Incoming.records, List.flatMap_singleton, carriable.handshakes]
    rw [fragments, List.mem_singleton] at member
    rw [member]
    rfl

/-- One datagram of the expected message. -/
theorem receivePacket_clear {items : List Incoming} (carriable : Carriable header item)
    (expected : header.messageSeq = e.peerHandshakeSeqNo) (opening : e.closeNotifySequence = none)
    (handshaking : e.releaseAppData = false) (room : e.queueRx.length < e.config.maxQueueRx)
    (arranged : Arranged Incoming.key Incoming.whole items e.queueRx)
    (fresh : ∀ item ∈ e.queueRx, item.Fresh) :
    Post (receivePacket (clearWire header item)) e
      (fun _ e' => ∃ numbers queueRx log, e' = { e with receivedRecordNumbers := numbers, queueRx, log } ∧
        Arranged Incoming.key Incoming.whole (items ++ [clearIncoming header item]) queueRx)
      fun _ _ => False := by
  unfold receivePacket parsePacket
  rw [post_bind, post_modify, post_bind]
  generalize isWire : clearWire header item = wire
  have parsed := @parseRecords_clear (e.logEvent (.received wire)) header item carriable opening
  rw [isWire] at parsed
  refine parsed.mono ?_ fun _ _ => id
  rintro _ _ ⟨rfl, rfl⟩
  have punctual : ((((clearIncoming header item).records.filterMap Record.firstHandshake).filterMap
      Fragment.dupeTriggersResend).head?.any fun seq => seq < e.peerHandshakeSeqNo) = false := by
    rw [Option.any_eq_false]
    intro seq isHead
    obtain ⟨h, isFirst, triggers⟩ := List.mem_filterMap.mp (List.mem_of_head? isHead)
    obtain ⟨r, inRecords, isFirst⟩ := List.mem_filterMap.mp isFirst
    obtain rfl := List.mem_singleton.mp inRecords
    obtain rfl := Option.some.inj (carriable.firstHandshake.symm.trans isFirst)
    have number : seq = header.messageSeq := by
      unfold Fragment.dupeTriggersResend at triggers
      split at triggers
      · cases triggers
      · split at triggers
        · exact (Option.some.inj triggers).symm
        · cases triggers
    simp [number, expected]
  refine (@insertIncoming_expected (e.logEvent (.received wire)) _ _ _ carriable.firstHandshake expected
    punctual handshaking room arranged fresh).mono ?_ fun _ _ => id
  rintro _ e' ⟨numbers, queueRx, rfl, queued⟩
  exact ⟨numbers, queueRx, _, rfl, queued⟩

/-- Datagrams that come in one after the other. -/
def receiveAll : List Bytes → EngineM Unit
  | [] => pure ()
  | datagram :: rest => do
    receivePacket datagram
    receiveAll rest

/-- Copies of the records of a message. -/
def Copies (header : Header) (pieces : List (Piece UInt8)) (items : List (Piece UInt8 × Nat)) : Prop :=
  ∀ item ∈ items, Carriable header item ∧ item.1 ∈ pieces

section Copying

variable {pieces : List (Piece UInt8)} {items delivered chosen : List (Piece UInt8 × Nat)}
  {queue : List Incoming}

theorem Carriable.key (carriable : Carriable header item) :
    (clearIncoming header item).key = toLex (header.messageSeq, item.1.offset) := by
  rw [Incoming.key, queueKey, clearIncoming, carriable.firstHandshake]
  rfl

/-- What is queued of the copies, in the order of their places. -/
theorem exists_chosen (copies : Copies header pieces items)
    (arranged : Arranged Incoming.key Incoming.whole (items.map (clearIncoming header)) queue) :
    ∃ chosen, queue = chosen.map (clearIncoming header) ∧ Copies header pieces chosen ∧
      (chosen.map Prod.fst).Pairwise fun p q => p.offset < q.offset := by
  obtain ⟨chosen, rfl, inside⟩ := exists_list_map fun x member => List.mem_map.mp (arranged.subset member)
  refine ⟨chosen, rfl, fun item member => copies item (inside item member), ?_⟩
  have sorted := List.pairwise_map.mp arranged.sorted
  refine List.pairwise_map.mpr (sorted.imp_of_mem fun {item other} isChosen isChosen' less => ?_)
  rw [(copies item (inside item isChosen)).1.key, (copies other (inside other isChosen')).1.key,
    Prod.Lex.toLex_lt_toLex] at less
  obtain less | ⟨-, less⟩ := less
  · exact absurd less (Nat.lt_irrefl _)
  · exact less

/-- No more is queued than there are pieces. -/
theorem Copies.length_le (copies : Copies header pieces chosen)
    (sorted : (chosen.map Prod.fst).Pairwise fun p q => p.offset < q.offset) :
    chosen.length ≤ pieces.length := by
  have distinct : (chosen.map Prod.fst).Nodup :=
    sorted.imp fun less same => (congrArg Piece.offset same).not_lt less
  have within : chosen.map Prod.fst ⊆ pieces := by
    intro p member
    obtain ⟨item, isChosen, rfl⟩ := List.mem_map.mp member
    exact (copies item isChosen).2
  have few := (List.subperm_of_subset distinct within).length_le
  rwa [List.length_map] at few

/-- When a copy of every piece came in, one of each is queued, in order. -/
theorem chosen_complete {body : Bytes} (partition : Partition body pieces) (copies : Copies header pieces items)
    (arranged : Arranged Incoming.key Incoming.whole (items.map (clearIncoming header)) queue)
    (all : ∀ p ∈ pieces, ∃ item ∈ items, item.1 = p) :
    ∃ chosen, queue = chosen.map (clearIncoming header) ∧ Copies header pieces chosen ∧
      chosen.map Prod.fst = pieces := by
  obtain ⟨chosen, rfl, isCopy, sorted⟩ := exists_chosen copies arranged
  refine ⟨chosen, rfl, isCopy, partition.eq sorted fun p => ⟨fun member => ?_, fun isPiece => ?_⟩⟩
  · obtain ⟨item, isChosen, rfl⟩ := List.mem_map.mp member
    exact (isCopy item isChosen).2
  · obtain ⟨item, inItems, rfl⟩ := all p isPiece
    obtain ⟨x, inQueue, sameKey⟩ := arranged.exists_key (List.mem_map_of_mem inItems)
    obtain ⟨other, isChosen, rfl⟩ := List.mem_map.mp inQueue
    rw [(isCopy other isChosen).1.key, (copies item inItems).1.key, toLex_inj, Prod.mk.injEq] at sameKey
    have same := partition.at_offset (isCopy other isChosen).2 isPiece sameKey.2
    exact List.mem_map.mpr ⟨other, isChosen, same⟩

/-- Datagrams of one message, in any order and any number of times. -/
theorem receive_clear (expected : header.messageSeq = e.peerHandshakeSeqNo)
    (opening : e.closeNotifySequence = none) (handshaking : e.releaseAppData = false)
    (room : pieces.length < e.config.maxQueueRx) (copies : Copies header pieces (items ++ delivered))
    (arranged : Arranged Incoming.key Incoming.whole (items.map (clearIncoming header)) e.queueRx) :
    Post (receiveAll (delivered.map (clearWire header))) e
      (fun _ e' => ∃ numbers queueRx log, e' = { e with receivedRecordNumbers := numbers, queueRx, log } ∧
        Arranged Incoming.key Incoming.whole ((items ++ delivered).map (clearIncoming header)) queueRx)
      fun _ _ => False := by
  induction delivered generalizing e items with
  | nil => exact ⟨_, _, _, rfl, by rwa [List.append_nil]⟩
  | cons item rest inductionHypothesis =>
      obtain ⟨chosen, queue, isCopy, sorted⟩ := exists_chosen
        (fun item member => copies item (List.mem_append_left _ member)) arranged
      have fresh : ∀ x ∈ e.queueRx, x.Fresh := by
        intro x member
        rw [queue] at member
        obtain ⟨item, isChosen, rfl⟩ := List.mem_map.mp member
        exact (isCopy item isChosen).1.fresh
      have space : e.queueRx.length < e.config.maxQueueRx := by
        have few := isCopy.length_le sorted
        rw [queue, List.length_map]
        omega
      have carriable := (copies item (List.mem_append_right _ List.mem_cons_self)).1
      unfold receiveAll
      rw [List.map_cons, post_bind]
      refine (receivePacket_clear carriable expected opening handshaking space arranged fresh).mono ?_
        fun _ _ => id
      rintro _ e₁ ⟨numbers, queueRx, log, rfl, queued⟩
      have later := @inductionHypothesis { e with receivedRecordNumbers := numbers, queueRx, log }
        (items ++ [item]) expected opening handshaking room (by simpa using copies) (by simpa using queued)
      refine later.mono ?_ fun _ _ => id
      rintro _ e₂ ⟨numbers', queueRx', log', rfl, queued'⟩
      exact ⟨numbers', queueRx', log', rfl, by simpa using queued'⟩

end Copying

end Receiving

section Reading

variable {header : Header} {body : Bytes} {offset : Nat} {pieces : List (Piece UInt8)}

/-- The fragments of pieces that follow one another cover the text. -/
theorem reach_tiles (tiles : Tiles body offset pieces) :
    NoGap offset (pieces.map (clearFragment header)) ∧
      reach offset (pieces.map (clearFragment header)) = body.length := by
  induction tiles with
  | done complete => exact ⟨trivial, complete⟩
  | @piece offset length rest some inside tiles inductionHypothesis =>
      have stop : max (clearFragment header (.cut body offset length)).stop offset = offset + length :=
        Nat.max_eq_left (Nat.le_add_right ..)
      simp only [List.map_cons, NoGap, reach, stop]
      exact ⟨⟨Nat.le_refl _, inductionHypothesis.1⟩, inductionHypothesis.2⟩

theorem reach_partition (partition : Partition body pieces) :
    NoGap 0 (pieces.map (clearFragment header)) ∧
      reach 0 (pieces.map (clearFragment header)) = body.length := by
  obtain ⟨rfl, rfl⟩ | ⟨-, tiles⟩ := partition
  · exact ⟨⟨Nat.le_refl _, trivial⟩, rfl⟩
  · exact reach_tiles tiles

/-- Fragments of one message that reach its end are not disturbed. -/
theorem undisturbed_reach {messageSeq total reached : Nat} {items : List (Fragment × Bytes)}
    (own : ∀ item ∈ items, Own messageSeq item) (all : total ≤ reach reached (items.map Prod.fst)) :
    Undisturbed piece (Own messageSeq) total reached items := by
  induction items generalizing reached with
  | nil => exact all
  | cons item rest inductionHypothesis =>
      refine ⟨.inl (own item List.mem_cons_self), ?_⟩
      exact inductionHypothesis (fun other member => own other (List.mem_cons_of_mem _ member)) all

variable {e : Engine} {chosen : List (Piece UInt8 × Nat)}

/-- The piece a record was made of. -/
theorem Carriable.piece {item : Piece UInt8 × Nat} (carriable : Carriable header item) :
    piece (clearFragment header item.1, clearWire header item) = item.1 := by
  have bytes : slice (clearWire header item) ⟨25, 25 + item.1.length⟩ = item.1.bytes := by
    have after : (clearWire header item).drop 25 = item.1.bytes := rfl
    rw [slice, after, Nat.add_sub_cancel_left, ← carriable.length, List.take_length]
  unfold Dtls13.piece clearFragment
  rw [bytes]

theorem rxRecords_clear (queue : e.queueRx = chosen.map (clearIncoming header)) :
    e.rxRecords = chosen.map (clearRecord header) := by
  rw [Engine.rxRecords, queue, List.flatMap_map]
  exact List.flatMap_pure_eq_map ..

/-- What is queued when all the datagrams of a message are. -/
theorem unhandledFragments_clear (copies : Copies header pieces chosen)
    (queue : e.queueRx = chosen.map (clearIncoming header)) :
    e.unhandledFragments = chosen.map fun item => (clearFragment header item.1, clearWire header item) := by
  have waiting : ∀ r ∈ chosen.map (clearRecord header), r.isHandled = false := by
    intro r member
    obtain ⟨item, isChosen, rfl⟩ := List.mem_map.mp member
    rw [Record.isHandled, (copies item isChosen).1.handshakes]
    rfl
  have each : ∀ item ∈ chosen, ((clearRecord header item).handshakes.map fun h =>
      (h, (clearRecord header item).buffer)) = [(clearFragment header item.1, clearWire header item)] := by
    intro item isChosen
    rw [(copies item isChosen).1.handshakes]
    rfl
  have all : (chosen.map (clearRecord header)).flatMap (fun r => r.handshakes.map fun h => (h, r.buffer)) =
      chosen.map fun item => (clearFragment header item.1, clearWire header item) := by
    rw [List.flatMap_map, List.flatMap_congr each]
    exact List.flatMap_pure_eq_map ..
  rw [Engine.unhandledFragments, rxRecords_clear queue, Marking.dropWhile_none waiting, all]
  apply Marking.dropWhile_none
  intro item member
  obtain ⟨item, -, rfl⟩ := List.mem_map.mp member
  rfl

/-- A message all of whose datagrams are queued is read as it was sent. -/
theorem reassembles_clear {allowUnknown : Bool} (partition : Partition body pieces)
    (copies : Copies header pieces chosen) (whole : chosen.map Prod.fst = pieces)
    (few : pieces.length ≤ maxDefragmentPackets)
    (length : header.length = body.length) (expected : header.messageSeq = e.peerHandshakeSeqNo)
    (queue : e.queueRx = chosen.map (clearIncoming header)) :
    e.hasCompleteHandshake header.msgType = true ∧ e.Reassembles header.msgType allowUnknown body := by
  have queued := unhandledFragments_clear copies queue
  have members : ∀ {f : Piece UInt8 → Fragment}, chosen.map (fun item => f item.1) = pieces.map f := by
    intro f
    rw [← Function.comp_def f Prod.fst, ← List.map_map, whole]
  have fragments : e.queueRx.flatMap Incoming.fragments = pieces.map (clearFragment header) := by
    have each : ∀ item ∈ chosen, (clearIncoming header item).fragments =
        [clearFragment header item.1] := by
      intro item isChosen
      rw [Incoming.fragments, clearIncoming, Incoming.records, List.flatMap_singleton,
        (copies item isChosen).1.handshakes]
    rw [queue, List.flatMap_map, List.flatMap_congr each, ← members]
    exact List.flatMap_pure_eq_map ..
  have fresh : ∀ x ∈ e.queueRx, x.Fresh := by
    intro x member
    rw [queue] at member
    obtain ⟨item, isChosen, rfl⟩ := List.mem_map.mp member
    exact (copies item isChosen).1.fresh
  have few : e.rxRecords.length ≤ maxDefragmentPackets := by
    rwa [rxRecords_clear queue, List.length_map, ← List.length_map Prod.fst, whole]
  have scanned := scanFragments_fresh fresh few
  rw [fragments] at scanned
  obtain ⟨noGap, reaches⟩ := @reach_partition header body pieces partition
  have nonempty : pieces.map (clearFragment header) ≠ [] :=
    fun empty => partition.ne_nil (List.map_eq_nil_iff.mp empty)
  have own : ofMessage header.messageSeq (pieces.map (clearFragment header)) =
      pieces.map (clearFragment header) := by
    apply List.filter_eq_self.mpr
    intro h member
    obtain ⟨p, -, rfl⟩ := List.mem_map.mp member
    exact decide_eq_true rfl
  have found : scan header.messageSeq body.length (pieces.map (clearFragment header)) 0 = .complete :=
    scan_complete_iff.mpr ⟨_, nonempty, by rw [own], noGap, reaches⟩
  have complete : e.hasCompleteHandshake header.msgType = true := by
    obtain ⟨first, rest, isFirst⟩ := List.exists_cons_of_ne_nil partition.ne_nil
    unfold Engine.hasCompleteHandshake Engine.scanFirst
    rw [scanned, Option.any_eq_true]
    refine ⟨clearFragment header first, by rw [isFirst]; rfl, ?_⟩
    have each : scan (clearFragment header first).header.messageSeq
        (clearFragment header first).header.length (pieces.map (clearFragment header)) 0 = .complete := by
      rw [← length] at found
      exact found
    have next : (clearFragment header first).header.messageSeq = e.peerHandshakeSeqNo := expected
    have type : (clearFragment header first).header.msgType = header.msgType := rfl
    rw [Bool.and_eq_true, Bool.and_eq_true, decide_eq_true_eq, decide_eq_true_eq, decide_eq_true_eq]
    exact ⟨⟨next, type⟩, each⟩
  have consistent : e.Consistent header.msgType body := by
    intro item member _
    rw [queued] at member
    obtain ⟨item, isChosen, rfl⟩ := List.mem_map.mp member
    refine ⟨rfl, length, ?_⟩
    rw [(copies item isChosen).1.piece]
    exact partition.of item.1 (copies item isChosen).2
  have agrees : e.Agrees body := by
    have sameType : takenFragments e.unhandledFragments = e.unhandledFragments := by
      have types : ∀ item ∈ e.unhandledFragments, item.1.header.msgType = header.msgType := by
        intro item member
        rw [queued] at member
        obtain ⟨item, -, rfl⟩ := List.mem_map.mp member
        rfl
      cases unhandled : e.unhandledFragments with
      | nil => rfl
      | cons first rest =>
          rw [unhandled] at types
          rw [takenFragments, List.takeWhile_eq_self_iff.mpr]
          intro item member
          rw [types item (List.mem_cons_of_mem _ member), types first List.mem_cons_self]
          exact decide_eq_true rfl
    unfold Engine.Agrees
    rw [sameType]
    apply undisturbed_reach
    · intro item member
      rw [queued] at member
      obtain ⟨item, -, rfl⟩ := List.mem_map.mp member
      exact ⟨rfl, expected⟩
    · rw [queued, List.map_map, Function.comp_def, members, reaches]
  exact ⟨complete, (reassembles_iff complete consistent).1 agrees⟩

end Reading

/-- The record of a piece, as it is saved. -/
def clearEntry (header : Header) (item : Piece UInt8 × Nat) : Entry where
  contentType := .handshake
  epoch := 0
  sendSeq := item.2
  fragment := header.cutFragment item.1
  acked := false

section Crossing

variable {e : Engine} {type : MessageType} {header : Header} {body : Bytes}

theorem clearRecords_pieces {number : Nat} {pieces : List (Piece UInt8)} :
    clearRecords number (pieces.map header.cutFragment) =
      (pieces.zipIdx number).map (clearWire header) := by
  rw [clearRecords, List.zipIdx_map, List.map_map]
  rfl

/-- The numbers of plaintext records do not run out. -/
theorem Emits.small {fragments : List Bytes} {e' : Engine} (emits : Emits 0 fragments e e') :
    ∀ item ∈ fragments.zipIdx e.sequenceEpoch0, item.2 < maxSequenceNumber := by
  obtain ⟨wires, areWires, -⟩ := emits.wires
  have number : e.nextSeq 0 = e.sequenceEpoch0 := if_pos rfl
  rw [number] at areWires
  intro item member
  obtain ⟨index, isIndex, found⟩ := List.getElem_of_mem member
  have isWire := areWires.get isIndex (areWires.length_eq ▸ isIndex)
  rw [List.get_eq_getElem, found] at isWire
  generalize wires.get _ = wire at isWire
  cases isWire with
  | plaintext small => exact small
  | ciphertext later => exact absurd rfl later

/-- What leaves an empty queue in the clear. -/
structure Leaves (header : Header) (body : Bytes) (e e' : Engine) (pieces : List (Piece UInt8)) : Prop where
  partition : Partition body pieces
  filled : Filled (e.config.mtu - clearOverhead) pieces
  few : pieces.length ≤ flightCapacity
  small : ∀ item ∈ pieces.zipIdx e.sequenceEpoch0, item.2 < maxSequenceNumber
  queue : e'.queueTx = (pieces.zipIdx e.sequenceEpoch0).map (clearWire header)
  saved : e'.flightSavedRecords =
    e.flightSavedRecords ++ (pieces.zipIdx e.sequenceEpoch0).map (clearEntry header)
  config : e'.config = e.config

theorem Leaves.of_emits {e' : Engine} {pieces : List (Piece UInt8)} (partition : Partition body pieces)
    (filled : Filled (e.config.mtu - clearOverhead) pieces)
    (emits : Emits 0 (pieces.map header.cutFragment) e e')
    (queue : e'.queueTx = clearRecords e.sequenceEpoch0 (pieces.map header.cutFragment)) :
    Leaves header body e e' pieces where
  partition := partition
  filled := filled
  few := by
    simpa using emits.length_le
  small := by
    intro item member
    have counted := emits.small (header.cutFragment item.1, item.2)
    rw [List.zipIdx_map] at counted
    exact counted (List.mem_map_of_mem member)
  queue := by
    rw [queue, clearRecords_pieces]
  saved := by
    rw [emits.saved, List.zipIdx_map, List.map_map]
    rfl
  config := emits.config

theorem createFragments_leaves {fuel : Nat} (capacity : clearOverhead < e.config.mtu)
    (empty : e.queueTx = []) :
    Post (createFragments header 0 clearOverhead body fuel 0) e
      (fun _ e' => ∃ pieces, Leaves header body e e' pieces) fun _ _ => True := by
  by_cases filled : body = []
  · subst filled
    refine createFragments_empty.mono (fun _ e' emits => ⟨[.cut [] 0 0], ?_⟩) fun _ _ _ => trivial
    refine Leaves.of_emits (.inl ⟨rfl, rfl⟩) ?_ emits ?_
    · exact .piece (Nat.zero_le _) (absurd rfl) .none
    · cases emits with
      | record made later =>
          cases later with
          | none =>
              obtain ⟨wire, append, isWire, appends, placed⟩ := made.placed
              have separate : append = false := by
                by_contra appended
                obtain ⟨last, isLast, -⟩ := appends (Bool.not_eq_false _ ▸ appended)
                rw [empty] at isLast
                cases isLast
              cases isWire with
              | ciphertext later => exact absurd rfl later
              | plaintext small =>
                  rw [placed, separate, empty]
                  rfl
  · refine (createFragments_separate capacity filled (Nat.zero_le _) ?_).mono ?_ fun _ _ _ => trivial
    · intro _ last isLast
      rw [empty] at isLast
      cases isLast
    · rintro _ e' ⟨pieces, tiles, emits, limited, queue⟩
      rw [empty, List.nil_append] at queue
      exact ⟨pieces, .of_emits (.inr ⟨filled, tiles⟩) limited emits queue⟩

/-- A record has room for a piece of a message. -/
theorem carriable {pieces : List (Piece UInt8)} {item : Piece UInt8 × Nat} (partition : Partition body pieces)
    (short : item.1.length ≤ e.config.mtu - clearOverhead) (isPiece : item.1 ∈ pieces)
    (small : item.2 < maxSequenceNumber) (limit : e.config.mtu < 65536)
    (length : header.length = body.length) (bounded : body.length < 2 ^ 24)
    (numbered : header.messageSeq < 65536) : Carriable header item := by
  have of := partition.of item.1 isPiece
  have inside : item.1.offset + item.1.length ≤ body.length := of.1
  constructor
  case fits =>
    constructor
    case length => exact length.trans_lt bounded
    case messageSeq => exact numbered
    all_goals
      dsimp only
      omega
  case length => exact of.length_bytes
  case short =>
    unfold clearOverhead Dtls13Record.plaintextHeaderLen at short
    omega
  case number =>
    unfold maxSequenceNumber at small
    omega

/-- `create_handshake` from an empty queue, for a message in the clear. -/
theorem createHandshake_leaves {writeBody : EngineM Bytes} {start : Engine}
    (clear : epochForMessage type = 0) (built : writeBody start = .ok body e) (empty : e.queueTx = [])
    (capacity : clearOverhead < e.config.mtu) :
    Post (createHandshake type writeBody) start
      (fun _ e' => ∃ pieces, Leaves (e.messageHeader type body) body e e' pieces) fun _ _ => True := by
  unfold createHandshake
  rw [post_bind, Post, built]
  dsimp only
  rw [post_bind, post_get, post_bind, post_set, if_pos clear, clear]
  refine (createFragments_leaves (e := e.announce type body) capacity empty).mono ?_ fun _ _ _ => trivial
  rintro _ e' ⟨pieces, leaves⟩
  exact ⟨pieces, { leaves with }⟩

end Crossing

/-- The datagrams of a flight as it is sent first, and of each time that it is sent again. -/
def transmit : (resends : Nat) → EngineM (List (List Bytes))
  | 0 => do
    let e ← get
    set { e with queueTx := [] }
    return [e.queueTx]
  | resends + 1 => do
    let e ← get
    set { e with queueTx := [] }
    flightResend
    let later ← transmit resends
    return e.queueTx :: later

section Resending

variable {e : Engine} {header : Header} {pieces : List (Piece UInt8)}

/-- The next record of a message starts a datagram. -/
def Engine.Separate (e : Engine) : Prop := ∀ length, clearOverhead ≤ length → e.canAppend length = false

/-- A plaintext record was put into a datagram of its own. -/
def Engine.startDatagram (e : Engine) (record : Bytes) : Engine :=
  { e with
    datagramSealed := false
    queueTx := e.queueTx ++ [record]
    sequenceEpoch0 := e.sequenceEpoch0 + 1 }

/-- A record of a message that starts a datagram. -/
theorem createPlaintextRecord_separate {fragment : Bytes}
    (separate : e.canAppend (Dtls13Record.plaintextHeaderLen + fragment.length) = false) :
    Post (createPlaintextRecord .handshake false fragment) e
      (fun _ e' => e.sequenceEpoch0 < maxSequenceNumber ∧
        e' = e.startDatagram (Dtls13Record.serialize .handshake ⟨0, e.sequenceEpoch0⟩ fragment))
      fun _ _ => True := by
  unfold createPlaintextRecord
  rw [post_bind, post_get, post_bind, separate]
  unfold runIf
  rw [if_neg Bool.false_ne_true, post_pure, post_bind]
  refine checkQueueTx_post.mono ?_ fun _ _ _ => trivial
  rintro _ _ ⟨rfl, -⟩
  rw [post_ite]
  refine ⟨fun _ => trivial, fun room => ?_⟩
  rw [post_modify]
  exact ⟨Nat.lt_of_not_le room, rfl⟩

/-- The saved records of a message, each in a datagram of its own. -/
theorem resendEntries_clear {items : List (Piece UInt8 × Nat)}
    (filled : Filled (e.config.mtu - clearOverhead) (items.map Prod.fst))
    (lengths : ∀ item ∈ items, item.1.bytes.length = item.1.length)
    (capacity : clearOverhead < e.config.mtu) (separate : items ≠ [] → e.Separate) :
    Post (resendEntries (items.map (clearEntry header))) e
      (fun entries e' => ∃ sealed,
        entries = ((items.map Prod.fst).zipIdx e.sequenceEpoch0).map (clearEntry header) ∧
        (∀ item ∈ (items.map Prod.fst).zipIdx e.sequenceEpoch0, item.2 < maxSequenceNumber) ∧
        e' = { e with
          datagramSealed := sealed
          queueTx := e.queueTx ++ ((items.map Prod.fst).zipIdx e.sequenceEpoch0).map (clearWire header)
          sequenceEpoch0 := e.sequenceEpoch0 + items.length })
      fun _ _ => True := by
  induction items generalizing e with
  | nil => exact ⟨e.datagramSealed, rfl, fun _ member => absurd member List.not_mem_nil, by simp⟩
  | cons item rest inductionHypothesis =>
      cases filled with
      | piece short whole later =>
      have length : Dtls13Record.plaintextHeaderLen + (header.cutFragment item.1).length =
          clearOverhead + item.1.length := by
        rw [Header.cutFragment, Header.length_serializeFragment, lengths item List.mem_cons_self]
        exact (Nat.add_assoc ..).symm
      have first := @createPlaintextRecord_separate e (header.cutFragment item.1)
        (length ▸ separate (List.cons_ne_nil _ _) _ (Nat.le_add_right ..))
      rw [List.map_cons, resendEntries, post_bind]
      unfold resendEntry
      rw [post_bind, post_get, clearEntry, if_neg Bool.false_ne_true, post_bind]
      unfold createRecord
      rw [if_pos rfl]
      refine first.mono ?_ fun _ _ _ => trivial
      rintro _ _ ⟨small, rfl⟩
      rw [post_pure, post_bind]
      have next : rest ≠ [] → (e.startDatagram (clearWire header (item.1, e.sequenceEpoch0))).Separate := by
        intro some other long
        have full := whole (fun none => some (List.map_eq_nil_iff.mp none))
        have taken : (clearWire header (item.1, e.sequenceEpoch0)).length = clearOverhead + item.1.length := by
          rw [clearWire, Dtls13Record.length_serialize_plaintext, length]
        have some : 0 < clearOverhead := by decide
        unfold Engine.canAppend Engine.startDatagram
        dsimp only
        rw [List.getLast?_concat, Bool.not_false, Bool.true_and, decide_eq_false_iff_not, taken, full]
        omega
      refine (@inductionHypothesis (e.startDatagram _) later (fun item member => lengths item (List.mem_cons_of_mem _ member))
        capacity next).mono ?_ fun _ _ _ => trivial
      rintro _ _ ⟨sealed, rfl, counted, rfl⟩
      refine ⟨sealed, rfl, List.forall_mem_cons.mpr ⟨small, counted⟩, ?_⟩
      simp [Engine.startDatagram, Nat.add_assoc, Nat.add_comm 1]

/-- A message is the whole flight, and the queue has its records only. -/
structure Engine.Flies (e : Engine) (header : Header) (pieces : List (Piece UInt8)) : Prop where
  filled : Filled (e.config.mtu - clearOverhead) pieces
  capacity : clearOverhead < e.config.mtu
  saved : ∃ items : List (Piece UInt8 × Nat), items.map Prod.fst = pieces ∧
    e.flightSavedRecords = items.map (clearEntry header)
  queue : ∃ number, e.queueTx = (pieces.zipIdx number).map (clearWire header) ∧
    ∀ item ∈ pieces.zipIdx number, item.2 < maxSequenceNumber

/-- It is sent again as it was sent first, under new numbers. -/
theorem flightResend_clear (flies : e.Flies header pieces)
    (lengths : ∀ p ∈ pieces, p.bytes.length = p.length) :
    Post flightResend { e with queueTx := [] } (fun _ e' => e'.Flies header pieces) fun _ _ => True := by
  obtain ⟨filled, capacity, ⟨items, rfl, saved⟩, -⟩ := flies
  have own : ∀ item ∈ items, item.1.bytes.length = item.1.length :=
    fun item member => lengths item.1 (List.mem_map_of_mem member)
  have separate : Engine.Separate { e with queueTx := [], flightSavedRecords := [], datagramSealed := true } :=
    fun _ _ => rfl
  unfold flightResend
  rw [post_bind, post_get, post_bind, post_set, post_bind]
  dsimp only
  rw [saved]
  refine (resendEntries_clear (e := { e with queueTx := [], flightSavedRecords := [], datagramSealed := true })
    filled own capacity fun _ => separate).mono ?_ fun _ _ _ => trivial
  rintro _ _ ⟨sealed, rfl, small, rfl⟩
  rw [post_modify]
  constructor
  case filled => exact filled
  case capacity => exact capacity
  case saved => exact ⟨_, List.zipIdx_map_fst .., rfl⟩
  case queue => exact ⟨e.sequenceEpoch0, List.nil_append _, small⟩

/-- Every time it is sent, each datagram has the next piece. -/
theorem transmit_clear {resends : Nat} (flies : e.Flies header pieces)
    (lengths : ∀ p ∈ pieces, p.bytes.length = p.length) :
    Post (transmit resends) e
      (fun rounds _ => ∀ round ∈ rounds, ∃ number, round = (pieces.zipIdx number).map (clearWire header) ∧
        ∀ item ∈ pieces.zipIdx number, item.2 < maxSequenceNumber)
      fun _ _ => True := by
  induction resends generalizing e with
  | zero =>
      unfold transmit
      rw [post_bind, post_get, post_bind, post_set, post_pure]
      exact List.forall_mem_singleton.mpr flies.queue
  | succ resends inductionHypothesis =>
      unfold transmit
      rw [post_bind, post_get, post_bind, post_set, post_bind]
      refine (flightResend_clear flies lengths).mono ?_ fun _ _ _ => trivial
      intro _ e₁ flies₁
      rw [post_bind]
      refine (inductionHypothesis flies₁).mono ?_ fun _ _ _ => trivial
      intro rounds _ all
      exact List.forall_mem_cons.mpr ⟨flies.queue, all⟩

end Resending

end Dimpl.Dtls13
