import Dimpl.Dtls13.Engine.Outbox
import Dimpl.Dtls13.Engine.Protection
import Dimpl.Lib.Cutting

/-!
# A message in fragments

`create_handshake` cuts a message into fragments, each in a record of its own. The fragments are
a partition of the body, the records carry consecutive numbers, and they stand in the transmit
queue one behind the other.
-/

namespace Dimpl.Dtls13

open Nom Program Pieces Packing

/-- The bytes of a record with a handshake fragment, as an engine makes it for an epoch. -/
inductive Engine.Wire (e : Engine) : (epoch number : Nat) → (fragment wire : Bytes) → Prop where
  | plaintext {number : Nat} {fragment : Bytes} (small : number < maxSequenceNumber) :
      Wire e 0 number fragment (Dtls13Record.serialize .handshake ⟨0, number⟩ fragment)
  | ciphertext {epoch number : Nat} {fragment ciphertext : Bytes} {suite : SupportedDtls13CipherSuite}
      {keys : EpochKeys} (later : epoch ≠ 0) (small : number < maxSequenceNumber)
      (isSuite : e.suiteProvider = some suite) (isKeys : e.slotKeys (e.sendSlot epoch) = some keys)
      (isSealed : keys.cipher.encrypt (fragment ++ [ContentType.handshake.asU8])
        (Aad.newDtls13 (Dtls13Record.unifiedHeader ⟨epoch, number⟩ (fragment.length + 1 + suite.tagLen)))
        (Nonce.xor keys.iv number) = .ok ciphertext) :
      Wire e epoch number fragment (maskSequenceBytes (snMask suite keys ciphertext)
        (Dtls13Record.serialize .applicationData ⟨epoch, number⟩ ciphertext))

/-- A record with a handshake fragment was saved and put into the queue. -/
structure Made (epoch : Nat) (fragment : Bytes) (e e' : Engine) : Prop where
  saved : e'.flightSavedRecords = e.flightSavedRecords ++
    [{ contentType := .handshake, epoch, sendSeq := e.nextSeq epoch, fragment, acked := false }]
  placed : ∃ wire append, e.Wire epoch (e.nextSeq epoch) fragment wire ∧
    Appends e.config.mtu append e.queueTx wire ∧ e'.queueTx = enqueue append e.queueTx wire
  room : e.flightSavedRecords.length < flightCapacity
  told : e'.transcript = e.transcript ∧ e'.nextHandshakeSeqNo = e.nextHandshakeSeqNo
  number : e'.nextSeq epoch = e.nextSeq epoch + 1
  config : e'.config = e.config
  suite : e'.suiteProvider = e.suiteProvider
  keys : e'.slotKeys (e'.sendSlot epoch) = e.slotKeys (e.sendSlot epoch)

section Making

variable {e e₁ : Engine} {epoch : Nat} {fragment bytes : Bytes} {append : Bool}

theorem Engine.appends_canAppend {length : Nat} (isLength : bytes.length = length) :
    Appends e.config.mtu (e.canAppend length) e.queueTx bytes := by
  intro appends
  unfold Engine.canAppend at appends
  cases isLast : e.queueTx.getLast? with
  | none => simp [isLast] at appends
  | some last =>
      simp only [isLast, Bool.and_eq_true, decide_eq_true_eq] at appends
      exact ⟨last, rfl, isLength ▸ appends.2⟩

/-- An entry is saved where there is room for it. -/
theorem saveEntry_room {entry : Entry} :
    Post (saveEntry entry) e
      (fun _ e' => e' = { e with flightSavedRecords := e.flightSavedRecords ++ [entry] } ∧
        e.flightSavedRecords.length < flightCapacity)
      (fun _ _ => True) := by
  unfold saveEntry
  rw [post_bind, post_get, post_ite, post_set]
  exact ⟨fun room => ⟨rfl, room⟩, fun _ => trivial⟩

theorem Engine.enqueueRecord_queueTx :
    (e.enqueueRecord append bytes).queueTx = enqueue append e.queueTx bytes := by
  cases append <;> rfl

/-- A record that was counted in its slot and put into the queue. -/
theorem Engine.counted {slot : SendSlot} {event : Event} {e' : Engine}
    (isCounted : e' = ((e.bumpSlot epoch slot).enqueueRecord append bytes).logEvent event) :
    e'.flightSavedRecords = e.flightSavedRecords ∧ e'.queueTx = enqueue append e.queueTx bytes ∧
      e'.sendSlot epoch = e.sendSlot epoch ∧ e'.slotSeq slot = e.slotSeq slot + 1 ∧
      e'.slotKeys slot = e.slotKeys slot ∧ e'.config = e.config ∧ e'.suiteProvider = e.suiteProvider ∧
      e'.transcript = e.transcript ∧ e'.nextHandshakeSeqNo = e.nextHandshakeSeqNo := by
  subst isCounted
  cases slot <;> cases append <;> exact ⟨rfl, rfl, rfl, rfl, rfl, rfl, rfl, rfl, rfl⟩

theorem createPlaintextRecord_made :
    Post (createPlaintextRecord .handshake true fragment) e (fun _ e' => Made 0 fragment e e')
      fun _ _ => True := by
  unfold createPlaintextRecord
  rw [post_bind, post_get, post_bind]
  unfold runIf
  rw [if_pos rfl]
  refine saveEntry_room.mono ?_ fun _ _ _ => trivial
  rintro _ _ ⟨rfl, space⟩
  rw [post_bind]
  refine checkQueueTx_post.mono ?_ fun _ _ _ => trivial
  rintro _ _ ⟨rfl, -⟩
  rw [post_ite]
  refine ⟨fun _ => trivial, fun room => ?_⟩
  rw [post_modify]
  constructor
  case saved => exact Engine.enqueueRecord_saved
  case placed =>
    exact ⟨_, _, .plaintext (Nat.lt_of_not_le room),
      Engine.appends_canAppend Dtls13Record.length_serialize_plaintext, Engine.enqueueRecord_queueTx⟩
  case room => exact space
  all_goals
    generalize e.canAppend (Dtls13Record.plaintextHeaderLen + fragment.length) = append
    cases append <;> first | rfl | exact ⟨rfl, rfl⟩

theorem createCiphertextRecord_made (later : epoch ≠ 0) :
    Post (createCiphertextRecord .handshake epoch true fragment) e (fun _ e' => Made epoch fragment e e')
      fun _ _ => True := by
  have slotOf : e.nextSeq epoch = e.slotSeq (e.sendSlot epoch) := if_neg later
  unfold createCiphertextRecord
  rw [post_bind, post_get, post_bind]
  unfold runIf
  rw [if_pos rfl]
  refine saveEntry_room.mono ?_ fun _ _ _ => trivial
  rintro _ _ ⟨rfl, space⟩
  unfold suiteProvider
  rw [post_bind, post_bind, post_get, post_orThrow]
  refine ⟨fun suite isSuite => ?_, fun _ => trivial⟩
  rw [post_bind, post_orThrow]
  refine ⟨fun keys isKeys => ?_, fun _ => trivial⟩
  rw [post_bind, post_liftCrypto]
  refine ⟨fun ciphertext isSealed => ?_, fun _ _ => trivial⟩
  rw [List.length_append, List.length_singleton] at isSealed
  rw [post_bind]
  refine checkQueueTx_post.mono ?_ fun _ _ _ => trivial
  rintro _ _ ⟨rfl, -⟩
  rw [post_ite]
  refine ⟨fun _ => trivial, fun room => ?_⟩
  rw [post_modify]
  obtain ⟨saved, queue, slot, number, sameKeys, config, sameSuite, told⟩ :=
    Engine.counted (rfl : _ = Engine.logEvent _ _)
  constructor
  case saved => exact saved.trans (by rw [slotOf])
  case placed =>
    rw [slotOf]
    have length : (maskSequenceBytes (snMask suite keys ciphertext)
        (Dtls13Record.serialize .applicationData ⟨epoch, e.slotSeq (e.sendSlot epoch)⟩
          ciphertext)).length = 5 + ciphertext.length := by
      rw [length_maskSequenceBytes, Dtls13Record.length_serialize_unified later]
    exact ⟨_, _, .ciphertext later (Nat.lt_of_not_le room) isSuite isKeys isSealed,
      Engine.appends_canAppend length, queue⟩
  case room => exact space
  case told => exact told
  case number =>
    rw [slotOf, Engine.nextSeq, if_neg later, slot]
    exact number
  case config => exact config
  case suite => exact sameSuite
  case keys =>
    rw [slot]
    exact sameKeys

theorem createRecord_made :
    Post (createRecord .handshake epoch true fragment) e (fun _ e' => Made epoch fragment e e')
      fun _ _ => True := by
  unfold createRecord
  rw [post_ite]
  constructor
  · rintro rfl
    exact createPlaintextRecord_made
  · exact createCiphertextRecord_made

/-- Another engine with the keys makes the same records. -/
theorem Engine.Wire.congr {number : Nat} {wire : Bytes} (isWire : e₁.Wire epoch number fragment wire)
    (suite : e₁.suiteProvider = e.suiteProvider)
    (keys : e₁.slotKeys (e₁.sendSlot epoch) = e.slotKeys (e.sendSlot epoch)) :
    e.Wire epoch number fragment wire := by
  cases isWire with
  | plaintext small => exact .plaintext small
  | ciphertext later small isSuite isKeys isSealed =>
      exact .ciphertext later small (suite ▸ isSuite) (keys ▸ isKeys) isSealed

end Making

/-- Records with these fragments were made, one after the other. -/
inductive Emits (epoch : Nat) : List Bytes → Engine → Engine → Prop where
  | none {e : Engine} : Emits epoch [] e e
  | record {fragment : Bytes} {rest : List Bytes} {e e₁ e' : Engine} (made : Made epoch fragment e e₁)
      (later : Emits epoch rest e₁ e') : Emits epoch (fragment :: rest) e e'

namespace Emits

variable {epoch : Nat} {fragments : List Bytes} {e e' : Engine}

/-- They are saved for retransmission, under consecutive numbers. -/
theorem saved (emits : Emits epoch fragments e e') :
    e'.flightSavedRecords = e.flightSavedRecords ++
      (fragments.zipIdx (e.nextSeq epoch)).map fun item =>
        { contentType := .handshake, epoch, sendSeq := item.2, fragment := item.1, acked := false } := by
  induction emits with
  | none => simp
  | record made later inductionHypothesis =>
      rw [inductionHypothesis, made.saved, made.number]
      simp

/-- The flight has room for all of them. -/
theorem length_le (emits : Emits epoch fragments e e') : fragments.length ≤ flightCapacity := by
  suffices all : fragments = [] ∨ e.flightSavedRecords.length + fragments.length ≤ flightCapacity by
    obtain rfl | within := all
    · exact Nat.zero_le _
    · omega
  induction emits with
  | none => exact .inl rfl
  | record made later inductionHypothesis =>
      have space := made.room
      rw [made.saved, List.length_append, List.length_singleton] at inductionHypothesis
      rw [List.length_cons]
      obtain rfl | within := inductionHypothesis
      · exact .inr (by rw [List.length_nil]; omega)
      · exact .inr (by omega)

/-- They change neither the transcript nor the number of the next message. -/
theorem told (emits : Emits epoch fragments e e') :
    e'.transcript = e.transcript ∧ e'.nextHandshakeSeqNo = e.nextHandshakeSeqNo := by
  induction emits with
  | none => exact ⟨rfl, rfl⟩
  | record made later inductionHypothesis =>
      exact ⟨inductionHypothesis.1.trans made.told.1, inductionHypothesis.2.trans made.told.2⟩

theorem config (emits : Emits epoch fragments e e') : e'.config = e.config := by
  induction emits with
  | none => rfl
  | record made later inductionHypothesis => exact inductionHypothesis.trans made.config

/-- They stand in the queue, one behind the other. -/
theorem wires (emits : Emits epoch fragments e e') :
    ∃ wires, List.Forall₂ (fun item wire => e.Wire epoch item.2 item.1 wire)
        (fragments.zipIdx (e.nextSeq epoch)) wires ∧
      e'.queueTx.flatten = e.queueTx.flatten ++ wires.flatten ∧
      ∀ records, Grouped e.config.mtu records e.queueTx →
        Grouped e.config.mtu (records ++ wires) e'.queueTx := by
  induction emits with
  | none => exact ⟨[], .nil, by simp, fun records grouped => by simpa using grouped⟩
  | @record fragment rest e e₁ e' made later inductionHypothesis =>
      obtain ⟨wire, append, isWire, appends, placed⟩ := made.placed
      obtain ⟨wires, areWires, joined, grouped⟩ := inductionHypothesis
      refine ⟨wire :: wires, ?_, ?_, fun records before => ?_⟩
      · rw [List.zipIdx_cons]
        refine .cons isWire ?_
        rw [made.number] at areWires
        exact areWires.imp fun _ _ isWire => isWire.congr made.suite made.keys
      · rw [joined, placed, flatten_enqueue, List.flatten_cons, List.append_assoc]
      · have one : Grouped e.config.mtu (records ++ [wire]) e₁.queueTx := placed ▸ before.enqueue appends
        rw [made.config] at grouped
        have all := grouped _ one
        rwa [List.append_assoc, List.singleton_append] at all

end Emits

/-- A fragment of a message as it is sent. -/
def Header.cutFragment (header : Header) (p : Piece UInt8) : Bytes :=
  { header with fragmentOffset := p.offset, fragmentLength := p.length }.serializeFragment p.bytes

section Cutting

variable {e : Engine} {header : Header} {epoch overhead : Nat} {body : Bytes}

theorem chunkLen_le {offset : Nat} : chunkLen e overhead body.length offset ≤ e.config.mtu - overhead := by
  unfold chunkLen
  dsimp only
  split
  · exact Nat.zero_le _
  · split <;> omega

theorem chunkLen_some {offset : Nat} (capacity : overhead < e.config.mtu) (more : offset < body.length) :
    0 < chunkLen e overhead body.length offset ∧
      offset + chunkLen e overhead body.length offset ≤ body.length := by
  unfold chunkLen
  dsimp only
  rw [if_neg (by omega)]
  split <;> omega

/-- The loop of `create_handshake` cuts what is left of a body. -/
theorem createFragments_cuts {fuel offset : Nat} (capacity : overhead < e.config.mtu)
    (some : body ≠ []) (inside : offset ≤ body.length) :
    Post (createFragments header epoch overhead body fuel offset) e
      (fun _ e' => ∃ pieces, Tiles body offset pieces ∧ (∀ p ∈ pieces, p.length ≤ e.config.mtu - overhead) ∧
        Emits epoch (pieces.map header.cutFragment) e e')
      fun _ _ => True := by
  have nonempty : body.length ≠ 0 := fun empty => some (List.length_eq_zero_iff.mp empty)
  induction fuel generalizing e offset with
  | zero => trivial
  | succ fuel inductionHypothesis =>
      unfold createFragments
      dsimp only
      rw [post_ite]
      constructor
      · intro enters
        have more : offset < body.length := by
          simpa [nonempty] using enters
        obtain ⟨progress, inside⟩ := chunkLen_some capacity more
        have within := @chunkLen_le e overhead body offset
        rw [post_bind, post_get, post_bind]
        generalize chunkLen e overhead body.length offset = chunk at *
        refine createRecord_made.mono (fun _ e₁ made => ?_) fun _ _ _ => trivial
        unfold runIf
        rw [if_pos (by simpa using nonempty)]
        refine (inductionHypothesis (made.config ▸ capacity) inside).mono ?_ fun _ _ _ => trivial
        rintro _ e' ⟨pieces, tiles, short, emits⟩
        rw [made.config] at short
        exact ⟨_, .piece progress inside tiles, List.forall_mem_cons.mpr ⟨within, short⟩, .record made emits⟩
      · intro stops
        have complete : offset = body.length := by
          simp [nonempty] at stops
          omega
        exact ⟨[], .done complete, fun _ member => absurd member List.not_mem_nil, .none⟩

/-- A body without bytes goes into one empty fragment. -/
theorem createFragments_empty {fuel : Nat} :
    Post (createFragments header epoch overhead [] fuel 0) e
      (fun _ e' => Emits epoch [header.cutFragment (.cut [] 0 0)] e e') fun _ _ => True := by
  cases fuel with
  | zero => trivial
  | succ fuel =>
      unfold createFragments
      dsimp only
      rw [post_ite]
      refine ⟨fun _ => ?_, fun stops => absurd rfl stops⟩
      rw [post_bind, post_get, post_bind]
      have none : chunkLen e overhead ([] : Bytes).length 0 = 0 := by simp [chunkLen]
      rw [none]
      refine createRecord_made.mono (fun _ e₁ made => ?_) fun _ _ _ => trivial
      exact .record made .none

theorem createFragments_partition {fuel : Nat} (capacity : overhead < e.config.mtu) :
    Post (createFragments header epoch overhead body fuel 0) e
      (fun _ e' => ∃ pieces, Partition body pieces ∧ (∀ p ∈ pieces, p.length ≤ e.config.mtu - overhead) ∧
        Emits epoch (pieces.map header.cutFragment) e e') fun _ _ => True := by
  by_cases empty : body = []
  · subst empty
    refine createFragments_empty.mono (fun _ _ emits => ⟨_, .inl ⟨rfl, rfl⟩, ?_, emits⟩) fun _ _ _ => trivial
    exact List.forall_mem_singleton.mpr (Nat.zero_le _)
  · refine (createFragments_cuts capacity empty (Nat.zero_le _)).mono ?_ fun _ _ _ => trivial
    rintro _ _ ⟨pieces, tiles, short, emits⟩
    exact ⟨pieces, .inr ⟨empty, tiles⟩, short, emits⟩

end Cutting

/-- The header a message is sent under. -/
def Engine.messageHeader (e : Engine) (type : MessageType) (body : Bytes) : Header where
  msgType := type
  length := body.length
  messageSeq := e.nextHandshakeSeqNo
  fragmentOffset := 0
  fragmentLength := body.length

/-- The fragments of a message, each with the number of its record. -/
def Engine.numbered (e : Engine) (type : MessageType) (body : Bytes) (pieces : List (Piece UInt8)) :
    List (Bytes × Nat) :=
  (pieces.map (e.messageHeader type body).cutFragment).zipIdx (e.nextSeq (epochForMessage type))

/-- A message was sent: its body is in the transcript, and the pieces of a partition of it are saved
and stand in the queue, one record each. -/
structure Dispatched (type : MessageType) (body : Bytes) (e e' : Engine) : Prop where
  transcript : e'.transcript = e.transcript ++ transcriptMessage type body
  number : e'.nextHandshakeSeqNo = (e.nextHandshakeSeqNo + 1) % 65536
  cut : ∃ pieces wires, Partition body pieces ∧ (∀ p ∈ pieces, p.length ≤ e.config.mtu - e.overhead type) ∧
    pieces.length ≤ flightCapacity ∧
    e'.flightSavedRecords = e.flightSavedRecords ++ (e.numbered type body pieces).map (fun item =>
      { contentType := .handshake, epoch := epochForMessage type, sendSeq := item.2,
        fragment := item.1, acked := false }) ∧
    List.Forall₂ (fun item wire => e.Wire (epochForMessage type) item.2 item.1 wire)
      (e.numbered type body pieces) wires ∧
    e'.queueTx.flatten = e.queueTx.flatten ++ wires.flatten ∧
    ∀ records, Grouped e.config.mtu records e.queueTx → Grouped e.config.mtu (records ++ wires) e'.queueTx

section Messages

variable {e : Engine} {type : MessageType} {body : Bytes}

/-- A message whose body is written, before it is cut. -/
def Engine.announce (e : Engine) (type : MessageType) (body : Bytes) : Engine :=
  { e with
    transcript := e.transcript ++ transcriptMessage type body
    nextHandshakeSeqNo := (e.nextHandshakeSeqNo + 1) % 65536 }

/-- The records of a message that was announced. -/
theorem createFragments_dispatched {fuel : Nat} (capacity : e.overhead type < e.config.mtu) :
    Post (createFragments (e.messageHeader type body) (epochForMessage type) (e.overhead type) body fuel 0)
      (e.announce type body) (fun _ e' => Dispatched type body e e') fun _ _ => True := by
  refine (@createFragments_partition (e.announce type body) (e.messageHeader type body)
    (epochForMessage type) (e.overhead type) body fuel capacity).mono ?_ fun _ _ _ => trivial
  rintro _ e' ⟨pieces, partition, short, emits⟩
  obtain ⟨wires, areWires, joined, grouped⟩ := emits.wires
  have few : pieces.length ≤ flightCapacity := by
    simpa using emits.length_le
  exact
    { transcript := emits.told.1
      number := emits.told.2
      cut := ⟨pieces, wires, partition, short, few, emits.saved,
        areWires.imp fun _ _ isWire => isWire.congr rfl rfl, joined, grouped⟩ }

/-- `create_handshake` sends what is written. -/
theorem createHandshake_dispatched {writeBody : EngineM Bytes} :
    Post (createHandshake type writeBody) e
      (fun _ e' => ∃ body e₁, writeBody e = .ok body e₁ ∧
        (e₁.overhead type < e₁.config.mtu → Dispatched type body e₁ e')) fun _ _ => True := by
  unfold createHandshake
  rw [post_bind]
  refine post_self.mono ?_ fun _ _ _ => trivial
  intro body e₁ built
  rw [post_bind, post_get, post_bind, post_set, post_ite]
  by_cases capacity : e₁.overhead type < e₁.config.mtu
  · constructor
    · intro clear
      have overhead : e₁.overhead type = Dtls13Record.plaintextHeaderLen + 12 := if_pos clear
      refine (overhead ▸ createFragments_dispatched capacity).mono ?_ fun _ _ _ => trivial
      exact fun _ e' dispatched => ⟨body, e₁, built, fun _ => dispatched⟩
    · intro isProtected
      unfold suiteProvider
      rw [post_bind, post_bind, post_get, post_orThrow]
      refine ⟨fun suite isSuite => ?_, fun _ => trivial⟩
      have isSuite : e₁.suiteProvider = some suite := isSuite
      have overhead : e₁.overhead type = 5 + 12 + (suite.tagLen + 1) := by
        unfold Engine.overhead
        rw [if_neg isProtected, isSuite]
        rfl
      refine (overhead ▸ createFragments_dispatched capacity).mono ?_ fun _ _ _ => trivial
      exact fun _ e' dispatched => ⟨body, e₁, built, fun _ => dispatched⟩
  · have small : ∀ {program : EngineM Unit} {e : Engine}, Post program e
        (fun _ e' => ∃ body e₁', writeBody _ = .ok body e₁' ∧
          (e₁'.overhead type < e₁'.config.mtu → Dispatched type body e₁' e')) fun _ _ => True :=
      post_self.mono (fun _ _ _ => ⟨body, e₁, built, fun large => absurd large capacity⟩)
        fun _ _ _ => trivial
    exact ⟨fun _ => small, fun _ => small⟩

/-- The record of a piece is longer by the overhead. -/
theorem Engine.Wire.length {number : Nat} {wire : Bytes} {header : Header} {p : Piece UInt8}
    (isWire : e.Wire (epochForMessage type) number (header.cutFragment p) wire)
    (seals : ∀ suite, e.suiteProvider = some suite → e.Seals suite.tagLen)
    (length : p.bytes.length = p.length) : wire.length = e.overhead type + p.length := by
  have fragment : (header.cutFragment p).length = 12 + p.length := by
    rw [Header.cutFragment, Header.length_serializeFragment, length]
  generalize isEpoch : epochForMessage type = epoch at isWire
  unfold Engine.overhead
  rw [isEpoch]
  cases isWire with
  | plaintext small =>
      rw [Dtls13Record.length_serialize_plaintext, fragment, if_pos rfl, Nat.add_assoc]
  | ciphertext later small isSuite isKeys isSealed =>
      have two : epoch = 2 := by
        unfold epochForMessage at isEpoch
        split at isEpoch
        · exact absurd isEpoch.symm later
        · exact isEpoch.symm
      subst two
      rw [length_maskSequenceBytes, Dtls13Record.length_serialize_unified later,
        seals _ isSuite _ isKeys _ _ _ _ isSealed, isSuite, if_neg later, List.length_append,
        List.length_singleton, fragment]
      dsimp only [Option.elim]
      omega

/-- A message makes no datagram longer than the limit. -/
theorem Dispatched.datagrams_le {e' : Engine} (dispatched : Dispatched type body e e')
    (capacity : e.overhead type < e.config.mtu)
    (seals : ∀ suite, e.suiteProvider = some suite → e.Seals suite.tagLen)
    (short : ∀ datagram ∈ e.queueTx, datagram.length ≤ e.config.mtu) :
    ∀ datagram ∈ e'.queueTx, datagram.length ≤ e.config.mtu := by
  obtain ⟨pieces, wires, partition, limited, -, -, areWires, -, grouped⟩ := dispatched.cut
  refine (grouped _ .single).length_le fun record member => ?_
  obtain member | member := List.mem_append.mp member
  · exact short record member
  · obtain ⟨index, inside, rfl⟩ := List.getElem_of_mem member
    have known : index < (e.numbered type body pieces).length := areWires.length_eq ▸ inside
    have isWire := areWires.get known inside
    rw [List.get_eq_getElem, List.get_eq_getElem] at isWire
    have isPiece : ∃ p ∈ pieces, (e.numbered type body pieces)[index].1 =
        (e.messageHeader type body).cutFragment p := by
      have isFragment := List.fst_mem_of_mem_zipIdx (List.getElem_mem known)
      obtain ⟨p, isPiece, same⟩ := List.mem_map.mp isFragment
      exact ⟨p, isPiece, same.symm⟩
    obtain ⟨p, isPiece, same⟩ := isPiece
    rw [same] at isWire
    rw [isWire.length seals (partition.of p isPiece).length_bytes]
    have limit := limited p isPiece
    omega

end Messages

end Dimpl.Dtls13
