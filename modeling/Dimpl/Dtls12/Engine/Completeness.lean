import Dimpl.Dtls12.Engine.Reassembly
import Dimpl.Lib.Arrangement
import Dimpl.Lib.Pieces

/-!
# When the fragments of a message give the message

As in version 1.3, datagrams are queued in the order of their first fragments, and of two that
start at the same place the first stays. The completeness test asks for fragments that follow
one another exactly, and reassembly takes all there are.
-/

namespace Dimpl.Dtls12

open Nom Program Arrangement Pieces

namespace Incoming

/-- All handshake fragments of a datagram. -/
def fragments (incoming : Incoming) : List Fragment := incoming.records.flatMap Record.handshakes

/-- The place of a datagram in the queue. -/
def key (incoming : Incoming) : ℕ ×ₗ ℕ := toLex (queueKey incoming)

/-- They, each with the buffer of its record. -/
def items (incoming : Incoming) : List (Fragment × Bytes) :=
  incoming.records.flatMap fun r => r.handshakes.map fun h => (h, r.buffer)

end Incoming

/-- The queue that datagrams end up in: one for each place they start at, the first. -/
abbrev Queued : List Incoming → List Incoming → Prop := Arranged Incoming.key fun _ => false

/-- A fragment as a piece of its message. -/
def piece (item : Fragment × Bytes) : Piece UInt8 where
  offset := item.1.header.fragmentOffset
  length := item.1.header.fragmentLength
  bytes := slice item.2 item.1.range

/-- An unhandled fragment of a message with this body. -/
structure PartOf (messageSeq : Nat) (type : MessageType) (body : Bytes) (item : Fragment × Bytes) :
    Prop where
  unhandled : item.1.handled = false
  messageSeq : item.1.header.messageSeq = messageSeq
  msgType : item.1.header.msgType = type
  length : item.1.header.length = body.length
  of : (piece item).Of body

/-- A datagram that starts with a handshake fragment and holds fragments of one message. -/
structure Incoming.Carries (messageSeq : Nat) (type : MessageType) (body : Bytes)
    (incoming : Incoming) : Prop where
  starts : incoming.first.firstHandshake.isSome = true
  parts : ∀ item ∈ incoming.items, PartOf messageSeq type body item

instance {messageSeq : Nat} {type : MessageType} {body : Bytes} {item : Fragment × Bytes} :
    Decidable (PartOf messageSeq type body item) :=
  decidable_of_iff (item.1.handled = false ∧ item.1.header.messageSeq = messageSeq ∧
    item.1.header.msgType = type ∧ item.1.header.length = body.length ∧ (piece item).Of body)
    ⟨fun ⟨unhandled, number, type, length, of⟩ => ⟨unhandled, number, type, length, of⟩,
      fun part => ⟨part.unhandled, part.messageSeq, part.msgType, part.length, part.of⟩⟩

instance {messageSeq : Nat} {type : MessageType} {body : Bytes} {incoming : Incoming} :
    Decidable (incoming.Carries messageSeq type body) :=
  decidable_of_iff (incoming.first.firstHandshake.isSome = true ∧
    ∀ item ∈ incoming.items, PartOf messageSeq type body item)
    ⟨fun ⟨starts, parts⟩ => ⟨starts, parts⟩, fun carries => ⟨carries.starts, carries.parts⟩⟩

section Order

/-- Each fragment starts where the one before it ends. -/
def Adjacent : (reached : Nat) → List Fragment → Prop
  | _, [] => True
  | reached, h :: rest => h.header.fragmentOffset = reached ∧
      Adjacent (h.header.fragmentOffset + h.header.fragmentLength) rest

/-- Where the last fragment ends. -/
def endOf : (reached : Nat) → List Fragment → Nat
  | reached, [] => reached
  | _, h :: rest => endOf (h.header.fragmentOffset + h.header.fragmentLength) rest

/-- Fragments that follow one another from the start of a message to its end. -/
def Chain (total : Nat) (front : List Fragment) : Prop :=
  front ≠ [] ∧ Adjacent 0 front ∧ endOf 0 front = total

theorem contiguous_iff {messageSeq total : Nat} {fragments : List Fragment} {reached : Nat}
    (own : ∀ h ∈ fragments, h.header.messageSeq = messageSeq) :
    contiguous messageSeq total fragments reached = true ↔
      ∃ front, front ≠ [] ∧ front <+: fragments ∧ Adjacent reached front ∧
        endOf reached front = total := by
  induction fragments generalizing reached with
  | nil => simp [contiguous]
  | cons h rest inductionHypothesis =>
      have isOwn := own h List.mem_cons_self
      have later : ∀ reached, contiguous messageSeq total rest reached = true ↔ _ := fun reached =>
        inductionHypothesis fun h member => own h (List.mem_cons_of_mem _ member)
      unfold contiguous
      rw [if_neg (not_not.mpr isOwn.symm), exists_front_cons]
      simp only [Adjacent, endOf]
      by_cases starts : h.header.fragmentOffset = reached
      · rw [if_neg (not_not.mpr starts)]
        simp only [Bool.or_eq_true, decide_eq_true_eq, later]
        constructor
        · rintro (all | ⟨front, -, isPrefix, adjacent, ends⟩)
          · exact ⟨[], List.nil_prefix, ⟨starts, trivial⟩, all⟩
          · exact ⟨front, isPrefix, ⟨starts, adjacent⟩, ends⟩
        · rintro ⟨front, isPrefix, ⟨-, adjacent⟩, ends⟩
          cases front with
          | nil => exact .inl ends
          | cons next front => exact .inr ⟨_, List.cons_ne_nil _ _, isPrefix, adjacent, ends⟩
      · rw [if_pos starts]
        refine ⟨nofun, ?_⟩
        rintro ⟨_, _, ⟨same, _⟩, _⟩
        exact absurd same starts

/-- The bytes of fragments that follow one another. -/
theorem bytes_adjacent {items : List (Fragment × Bytes)} {body : Bytes} {reached : Nat}
    (of : ∀ item ∈ items, (piece item).Of body) (adjacent : Adjacent reached (items.map Prod.fst)) :
    body.take reached ++ assembledBytes items = body.take (endOf reached (items.map Prod.fst)) := by
  induction items generalizing reached with
  | nil => simp [assembledBytes, endOf]
  | cons item rest inductionHypothesis =>
      obtain ⟨starts, adjacent⟩ := adjacent
      have step := (of item List.mem_cons_self).appends
      have later := inductionHypothesis (fun other member => of other (List.mem_cons_of_mem _ member))
        adjacent
      rw [← starts, assembledBytes, List.flatMap_cons, ← List.append_assoc]
      exact (congrArg (· ++ assembledBytes rest) step).trans later

end Order

section Delivering

variable {e : Engine} {messageSeq : Nat} {type : MessageType} {body : Bytes}

/-- The fragments that the completeness test looks at. -/
def scanned (queue : List Incoming) : List Fragment :=
  ((queue.flatMap Incoming.records).take maxDefragmentPackets).flatMap Record.handshakes

/-- The test passes: some fragments in front make a chain. -/
def Seems (total : Nat) (queue : List Incoming) : Prop :=
  ∃ front, front <+: scanned queue ∧ Chain total front

/-- Some fragments in front make a chain, and those behind it are empty. -/
def Exact (total : Nat) (queue : List Incoming) : Prop :=
  ∃ front rest, queue.flatMap Incoming.fragments = front ++ rest ∧ front <+: scanned queue ∧
    Chain total front ∧ ∀ h ∈ rest, h.header.fragmentLength = 0

/-- Datagrams come in, and each time the message is asked for. -/
def deliver (wanted : MessageType) : List Incoming → EngineM (Option (Handshake × Bytes))
  | [] => return none
  | incoming :: rest => do
    insertIncoming incoming
    match ← nextHandshake wanted with
    | some message => return some message
    | none => deliver wanted rest

/-- The message is read: its body enters the transcript, and a message that is returned was
read from it. -/
def Engine.Reads (e : Engine) (wanted : MessageType) (body : Bytes)
    (program : EngineM (Option (Handshake × Bytes))) : Prop :=
  (finalState program e).transcript =
      e.transcript ++ transcriptMessage wanted e.peerHandshakeSeqNo body ∧
    ∀ found e', program e = .ok found e' → ∃ handshake, found = some (handshake, body)

/-- The fragments of a datagram that holds one message only. -/
theorem Incoming.Carries.messageSeq_eq {incoming : Incoming}
    (carries : incoming.Carries messageSeq type body) {r : Record} (inRecords : r ∈ incoming.records)
    {h : Fragment} (inHandshakes : h ∈ r.handshakes) : h.header.messageSeq = messageSeq :=
  (carries.parts (h, r.buffer) (List.mem_flatMap.mpr
    ⟨r, inRecords, List.mem_map.mpr ⟨h, inHandshakes, rfl⟩⟩)).messageSeq

/-- None of them is late. -/
theorem Incoming.Carries.noDupe {incoming : Incoming} {confirmed : Bool}
    (carries : incoming.Carries messageSeq type body) :
    (((incoming.records.filterMap Record.firstHandshake).filterMap
      Fragment.dupeTriggersResend).head?.any fun seq => seq < messageSeq && !confirmed) = false := by
  rw [Option.any_eq_false]
  intro seq isHead
  obtain ⟨h, isFirst, triggers⟩ := List.mem_filterMap.mp (List.mem_of_head? isHead)
  obtain ⟨r, inRecords, isFirst⟩ := List.mem_filterMap.mp isFirst
  have number := carries.messageSeq_eq inRecords (List.mem_of_head? isFirst)
  unfold Fragment.dupeTriggersResend at triggers
  split at triggers
  · obtain rfl := Option.some.inj triggers
    simp [number]
  · cases triggers

/-- A datagram with fragments of the expected message is queued. -/
theorem insertIncoming_queued {incoming : Incoming} {items : List Incoming}
    (carries : incoming.Carries e.peerHandshakeSeqNo type body)
    (admitted : e.peerEncryptionEnabled = true → incoming.first.sequence.epoch ≠ 0)
    (handshaking : e.releaseAppData = false) (room : e.queueRx.length < e.config.maxQueueRx)
    (queued : Queued items e.queueRx) :
    Post (insertIncoming incoming) e
      (fun _ e' => ∃ queueRx, e' = { e with queueRx } ∧ Queued (items ++ [incoming]) queueRx)
      (fun _ _ => False) := by
  obtain ⟨handshake, isFirst⟩ := Option.isSome_iff_exists.mp carries.starts
  have isKey : (handshake.header.messageSeq, handshake.header.fragmentOffset) = queueKey incoming := by
    simp [queueKey, isFirst]
  have number := carries.messageSeq_eq List.mem_cons_self (List.mem_of_head? isFirst)
  unfold insertIncoming
  rw [post_bind, post_get, if_neg (Nat.not_le.mpr room), isFirst]
  dsimp only
  unfold insertIncomingHandshake
  rw [post_bind, post_get, post_bind, carries.noDupe, runIf, if_neg Bool.false_ne_true, post_pure,
    post_bind, post_get]
  dsimp only
  have epoch : ¬(e.peerEncryptionEnabled && decide (incoming.first.sequence.epoch = 0)) = true := by
    simpa using admitted
  have unreleased : ¬(e.releaseAppData &&
      decide (e.peerHandshakeSeqNo ≥ e.peerHandshakeSeqNo)) = true := by
    simp [handshaking]
  rw [isKey, number, if_neg (Nat.lt_irrefl _), if_neg epoch, if_neg unreleased]
  split
  · rename_i index miss
    rw [post_set]
    obtain ⟨front, back, split, smaller, larger, inserted⟩ := search_miss (fun _ => then_lt)
      (fun _ => then_gt) queued.sorted miss
    rw [split] at queued
    exact ⟨_, rfl, inserted incoming ▸ queued.insert smaller larger⟩
  · rename_i index hit
    obtain ⟨front, existing, back, split, sameKey, -⟩ := search_hit (fun _ => then_lt)
      (fun _ => then_gt) hit
    have again := (split ▸ queued).again sameKey
    rw [Bool.and_false, if_neg Bool.false_ne_true, ← split] at again
    exact ⟨_, rfl, again⟩

theorem Incoming.items_fst {incoming : Incoming} : incoming.items.map Prod.fst = incoming.fragments := by
  simp [Incoming.items, Incoming.fragments, List.map_flatMap, Function.comp_def]

theorem flatMap_items_fst {queue : List Incoming} :
    (queue.flatMap Incoming.items).map Prod.fst = queue.flatMap Incoming.fragments := by
  rw [List.map_flatMap]
  simp only [Incoming.items_fst]

theorem scanned_initial {queue : List Incoming} : scanned queue <+: queue.flatMap Incoming.fragments := by
  have all : queue.flatMap Incoming.fragments =
      (queue.flatMap Incoming.records).flatMap Record.handshakes := List.flatMap_assoc.symm
  rw [all, scanned]
  conv_rhs => rw [← List.take_append_drop maxDefragmentPackets (queue.flatMap Incoming.records)]
  rw [List.flatMap_append]
  exact List.prefix_append ..

/-- Nothing in front of a queue with one message is handled. -/
theorem dropWhile_isHandled {queue : List Incoming}
    (carries : ∀ item ∈ queue, item.Carries messageSeq type body) :
    (queue.flatMap Incoming.records).dropWhile Record.isHandled = queue.flatMap Incoming.records := by
  cases queue with
  | nil => rfl
  | cons item rest =>
      have carried := carries item List.mem_cons_self
      obtain ⟨h, isFirst⟩ := Option.isSome_iff_exists.mp carried.starts
      have inRecord : h ∈ item.first.handshakes := List.mem_of_head? isFirst
      have unhandled : item.first.isHandled = false := by
        unfold Record.isHandled
        rw [if_neg (by simp [List.ne_nil_of_mem inRecord])]
        refine List.all_eq_false.mpr ⟨h, inRecord, ?_⟩
        rw [(carried.parts (h, item.first.buffer) (List.mem_flatMap.mpr
          ⟨_, List.mem_cons_self, List.mem_map.mpr ⟨h, inRecord, rfl⟩⟩)).unhandled]
        exact Bool.false_ne_true
      simp [Incoming.records, unhandled]

theorem unhandledFragments_carries (carries : ∀ item ∈ e.queueRx, item.Carries messageSeq type body) :
    e.unhandledFragments = e.queueRx.flatMap Incoming.items := by
  have items : (e.rxRecords.flatMap fun r => r.handshakes.map fun h => (h, r.buffer)) =
      e.queueRx.flatMap Incoming.items := List.flatMap_assoc
  unfold Engine.unhandledFragments
  rw [Engine.rxRecords, dropWhile_isHandled carries, ← Engine.rxRecords, items]
  refine Marking.dropWhile_none fun item member => ?_
  obtain ⟨incoming, inQueue, inItems⟩ := List.mem_flatMap.mp member
  exact ((carries incoming inQueue).parts item inItems).unhandled

theorem parts_of_carries {queue : List Incoming}
    (carries : ∀ item ∈ queue, item.Carries messageSeq type body) {item : Fragment × Bytes}
    (member : item ∈ queue.flatMap Incoming.items) : PartOf messageSeq type body item := by
  obtain ⟨incoming, inQueue, inItems⟩ := List.mem_flatMap.mp member
  exact (carries incoming inQueue).parts item inItems

theorem fragment_of_carries {queue : List Incoming}
    (carries : ∀ item ∈ queue, item.Carries messageSeq type body) {h : Fragment}
    (member : h ∈ queue.flatMap Incoming.fragments) :
    ∃ buffer, PartOf messageSeq type body (h, buffer) := by
  rw [← flatMap_items_fst] at member
  obtain ⟨item, inItems, rfl⟩ := List.mem_map.mp member
  exact ⟨item.2, parts_of_carries carries inItems⟩

theorem scanFragments_carries (carries : ∀ item ∈ e.queueRx, item.Carries messageSeq type body) :
    e.scanFragments = scanned e.queueRx := by
  unfold Engine.scanFragments
  rw [Engine.rxRecords, dropWhile_isHandled carries]
  refine Marking.dropWhile_none fun h member => ?_
  obtain ⟨buffer, part⟩ := fragment_of_carries carries (scanned_initial.subset member)
  exact part.unhandled

/-- The test of a queue with one message only. -/
theorem hasComplete_iff_seems
    (carries : ∀ item ∈ e.queueRx, item.Carries e.peerHandshakeSeqNo type body) :
    e.hasCompleteHandshake type = true ↔ Seems body.length e.queueRx := by
  have part : ∀ h ∈ scanned e.queueRx, ∃ buffer,
      PartOf e.peerHandshakeSeqNo type body (h, buffer) := fun h member =>
    fragment_of_carries carries (scanned_initial.subset member)
  have own : ∀ h ∈ scanned e.queueRx, h.header.messageSeq = e.peerHandshakeSeqNo :=
    fun h member => (part h member).choose_spec.messageSeq
  have chain : Seems body.length e.queueRx ↔
      contiguous e.peerHandshakeSeqNo body.length (scanned e.queueRx) 0 = true := by
    rw [contiguous_iff own]
    exact ⟨fun ⟨front, isPrefix, starts, chain⟩ => ⟨front, starts, isPrefix, chain⟩,
      fun ⟨front, starts, isPrefix, chain⟩ => ⟨front, isPrefix, starts, chain⟩⟩
  unfold Engine.hasCompleteHandshake
  rw [scanFragments_carries carries, chain, Option.any_eq_true]
  constructor
  · rintro ⟨first, found, holds⟩
    simp only [Bool.and_eq_true, decide_eq_true_eq] at holds
    obtain ⟨buffer, isPart⟩ := part first (List.mem_of_head? found)
    rw [isPart.messageSeq, isPart.length] at holds
    exact holds.2
  · intro complete
    cases found : scanned e.queueRx with
    | nil =>
        rw [found] at complete
        cases complete
    | cons first rest =>
        obtain ⟨buffer, isPart⟩ := part first (by rw [found]; exact List.mem_cons_self)
        refine ⟨first, rfl, ?_⟩
        rw [← found, isPart.messageSeq, isPart.msgType, isPart.length]
        simp [complete]

/-- When the test passes, the bytes are the body exactly when the queue is exact. -/
theorem bytes_iff_exact {queue : List Incoming}
    (carries : ∀ item ∈ queue, item.Carries messageSeq type body) (seems : Seems body.length queue) :
    assembledBytes (queue.flatMap Incoming.items) = body ↔ Exact body.length queue := by
  have parts : ∀ item ∈ queue.flatMap Incoming.items, (piece item).Of body := fun item member =>
    (parts_of_carries carries member).of
  -- The chain in front gives the body, so nothing may come behind it.
  have chained : ∀ front rest : List (Fragment × Bytes), queue.flatMap Incoming.items = front ++ rest →
      Chain body.length (front.map Prod.fst) →
      (assembledBytes (queue.flatMap Incoming.items) = body ↔
        ∀ h ∈ rest.map Prod.fst, h.header.fragmentLength = 0) := by
    intro front rest split ⟨_, adjacent, ends⟩
    have ofRest : ∀ item ∈ rest, (piece item).Of body := fun item member =>
      parts item (split ▸ List.mem_append_right _ member)
    have bytes := bytes_adjacent
      (fun item member => parts item (split ▸ List.mem_append_left _ member)) adjacent
    rw [List.take_zero, List.nil_append, ends, List.take_length] at bytes
    have joined : assembledBytes (front ++ rest) = body ++ assembledBytes rest := by
      rw [← bytes]
      exact List.flatMap_append
    rw [split, joined, List.append_right_eq_self, assembledBytes, List.flatMap_eq_nil_iff]
    simp only [List.forall_mem_map]
    refine forall₂_congr fun item member => ?_
    have length := (ofRest item member).length_bytes
    rw [← List.length_eq_zero_iff]
    exact ⟨fun empty => length.symm.trans empty, fun empty => length.trans empty⟩
  constructor
  · intro isBody
    obtain ⟨front, isPrefix, chain⟩ := seems
    obtain ⟨rest, split⟩ := isPrefix.trans scanned_initial
    rw [← flatMap_items_fst] at split
    obtain ⟨front', rest', split', rfl, rfl⟩ := List.map_eq_append_iff.mp split.symm
    refine ⟨_, _, ?_, isPrefix, chain, (chained front' rest' split' chain).mp isBody⟩
    rw [← flatMap_items_fst, split', List.map_append]
  · rintro ⟨front, rest, split, -, chain, empty⟩
    rw [← flatMap_items_fst] at split
    obtain ⟨front', rest', split', rfl, rfl⟩ := List.map_eq_append_iff.mp split
    exact (chained front' rest' split' chain).mpr empty

/-- What delivering a datagram comes to. -/
theorem deliver_cons {incoming : Incoming} {rest : List Incoming} {e₁ : Engine} {wanted : MessageType}
    (inserted : insertIncoming incoming e = .ok () e₁) :
    deliver wanted (incoming :: rest) e =
      match nextHandshake wanted e₁ with
      | .ok (some message) e₂ => .ok (some message) e₂
      | .ok none e₂ => deliver wanted rest e₂
      | .error err e₂ => .error err e₂ := by
  have start : deliver wanted (incoming :: rest) e = (do
      match ← nextHandshake wanted with
      | some message => return some message
      | none => deliver wanted rest : EngineM _) e₁ := by
    rw [deliver]
    simp only [bind, EStateM.bind, inserted]
  rw [start]
  simp only [bind, EStateM.bind]
  cases nextHandshake wanted e₁ with
  | ok found e₂ => cases found <;> rfl
  | error err e₂ => rfl

/-- What a call on a complete message does. -/
theorem nextHandshake_complete {first : Fragment × Bytes} {rest : List (Fragment × Bytes)}
    {wanted : MessageType} (complete : e.hasCompleteHandshake wanted = true)
    (queued : e.unhandledFragments = first :: rest) :
    Post (nextHandshake wanted) e
      (fun found e' =>
        (assembledBytes (takenFragments (first :: rest))).length = first.1.header.length ∧
        (∃ handshake, found = some (handshake, assembledBytes (takenFragments (first :: rest)))) ∧
        e'.transcript = e.transcript ++ transcriptMessage wanted first.1.header.messageSeq
          (assembledBytes (takenFragments (first :: rest))))
      (fun _ e' => e'.transcript =
        if (assembledBytes (takenFragments (first :: rest))).length = first.1.header.length then
          e.transcript ++ transcriptMessage wanted first.1.header.messageSeq
            (assembledBytes (takenFragments (first :: rest)))
        else e.transcript) := by
  have type := hasCompleteHandshake_type complete queued
  unfold nextHandshake
  rw [post_bind, post_get, post_ite]
  refine ⟨fun _ => ?_, fun incomplete => absurd complete incomplete⟩
  rw [queued]
  dsimp only
  rw [post_bind, ← type]
  refine defragment_outcome.mono (fun message e' outcome => ?_) fun _ e' outcome => outcome.2
  obtain ⟨-, -, bytes, length, transcript⟩ := outcome
  rw [bytes] at length transcript
  rw [post_bind, post_modify, post_pure]
  refine ⟨length, ⟨message.1, ?_⟩, transcript⟩
  rw [← bytes]

theorem transcriptMessage_inj {wanted : MessageType} {number : Nat} {bytes : Bytes}
    (same : transcriptMessage wanted number bytes = transcriptMessage wanted number body) :
    bytes = body := by
  simp only [transcriptMessage, Header.serializeFragment, List.cons_append, List.cons.injEq, true_and,
    List.append_assoc] at same
  have rest := (List.append_inj same rfl).2
  have rest := (List.append_inj rest rfl).2
  have rest := (List.append_inj rest rfl).2
  exact (List.append_inj rest rfl).2

/-- Once the test passes, the next call reads the body exactly when the queue is exact. -/
theorem reads_iff_exact (carries : ∀ item ∈ e.queueRx, item.Carries e.peerHandshakeSeqNo type body)
    (seems : Seems body.length e.queueRx) :
    e.Reads type body (nextHandshake type) ↔ Exact body.length e.queueRx := by
  have complete := (hasComplete_iff_seems carries).mpr seems
  have queued := unhandledFragments_carries carries
  cases isQueue : e.unhandledFragments with
  | nil =>
      obtain ⟨front, isPrefix, starts, -⟩ := seems
      have inQueue := isPrefix.trans scanned_initial
      rw [← flatMap_items_fst, ← queued, isQueue] at inQueue
      exact absurd (List.prefix_nil.mp inQueue) starts
  | cons first rest =>
      have parts : ∀ item ∈ first :: rest, PartOf e.peerHandshakeSeqNo type body item :=
        fun item member => parts_of_carries carries (queued ▸ isQueue ▸ member)
      have isFirst := parts first List.mem_cons_self
      have taken : takenFragments (first :: rest) = first :: rest := by
        rw [takenFragments, List.takeWhile_eq_self_iff.mpr]
        intro item member
        simp [(parts item (List.mem_cons_of_mem _ member)).msgType, isFirst.msgType]
      have outcome := nextHandshake_complete complete isQueue
      rw [taken, isFirst.messageSeq, isFirst.length] at outcome
      have final : (finalState (nextHandshake type) e).transcript =
          if (assembledBytes (first :: rest)).length = body.length then
            e.transcript ++ transcriptMessage type e.peerHandshakeSeqNo (assembledBytes (first :: rest))
          else e.transcript := by
        unfold Post at outcome
        unfold finalState
        cases result : nextHandshake type e with
        | ok found e' =>
            rw [result] at outcome
            rw [if_pos outcome.1]
            exact outcome.2.2
        | error err e' =>
            rw [result] at outcome
            exact outcome
      rw [← bytes_iff_exact carries seems, ← queued, isQueue]
      constructor
      · intro reads
        have transcript := final.symm.trans reads.1
        split at transcript
        · exact transcriptMessage_inj (List.append_cancel_left transcript)
        · have lengths := congrArg List.length transcript
          simp [transcriptMessage, Header.serializeFragment] at lengths
      · intro isBody
        rw [isBody, if_pos rfl] at final
        refine ⟨final, fun found e' returned => ?_⟩
        rw [Post, returned, isBody] at outcome
        exact outcome.2.1

theorem Exact.seems {total : Nat} {queue : List Incoming} (isExact : Exact total queue) :
    Seems total queue := by
  obtain ⟨front, rest, -, isPrefix, chain, -⟩ := isExact
  exact ⟨front, isPrefix, chain⟩

/-- The first time the test passes, behind the datagrams in `items`, the queue is exact. -/
def ExactAtFirst (total : Nat) (items incomings : List Incoming) : Prop :=
  ∃ front, front ≠ [] ∧ front <+: incomings ∧
    (∃ queue, Queued (items ++ front) queue ∧ Exact total queue) ∧
    ∀ shorter, shorter <+: front → shorter ≠ [] → shorter ≠ front →
      ∀ queue, Queued (items ++ shorter) queue → ¬Seems total queue

/-- What that means when one more datagram comes in. -/
theorem exactAtFirst_cons {total : Nat} {items rest queue : List Incoming} {incoming : Incoming}
    (queued : Queued (items ++ [incoming]) queue) :
    ExactAtFirst total items (incoming :: rest) ↔
      Exact total queue ∨ ¬Seems total queue ∧ ExactAtFirst total (items ++ [incoming]) rest := by
  unfold ExactAtFirst
  rw [exists_front_cons]
  constructor
  · rintro ⟨front, isPrefix, ⟨queue', queued', isExact⟩, earlier⟩
    cases front with
    | nil => exact .inl (queued.unique queued' ▸ isExact)
    | cons next front =>
        refine .inr ⟨earlier [incoming] (by simp) (List.cons_ne_nil _ _) (by simp) queue queued, ?_⟩
        refine ⟨next :: front, List.cons_ne_nil _ _, isPrefix, ⟨queue', by simpa using queued', isExact⟩, ?_⟩
        intro shorter shorterPrefix _ proper queue'' queued''
        refine earlier (incoming :: shorter) (List.cons_prefix_cons.mpr ⟨rfl, shorterPrefix⟩)
          (List.cons_ne_nil _ _) (fun same => proper (List.cons_inj_right incoming |>.mp same)) queue'' ?_
        simpa using queued''
  · rintro (isExact | ⟨unseen, front, starts, isPrefix, ⟨queue', queued', isExact⟩, earlier⟩)
    · refine ⟨[], List.nil_prefix, ⟨queue, queued, isExact⟩, fun shorter shorterPrefix starts proper => ?_⟩
      obtain ⟨x, rest', rfl⟩ := List.exists_cons_of_ne_nil starts
      obtain ⟨rfl, nil⟩ := List.cons_prefix_cons.mp shorterPrefix
      rw [List.prefix_nil.mp nil] at proper
      exact absurd rfl proper
    · refine ⟨front, isPrefix, ⟨queue', by simpa using queued', isExact⟩, ?_⟩
      intro shorter shorterPrefix shorterStarts proper queue'' queued''
      obtain ⟨x, rest', rfl⟩ := List.exists_cons_of_ne_nil shorterStarts
      obtain ⟨rfl, restPrefix⟩ := List.cons_prefix_cons.mp shorterPrefix
      cases rest' with
      | nil => exact queued.unique queued'' ▸ unseen
      | cons next rest' =>
          refine earlier (next :: rest') restPrefix (List.cons_ne_nil _ _)
            (fun same => proper (same ▸ rfl)) queue'' ?_
          simpa using queued''

theorem reads_congr {e' : Engine} {program program' : EngineM (Option (Handshake × Bytes))}
    {wanted : MessageType} (same : program e = program' e') (transcript : e.transcript = e'.transcript)
    (number : e.peerHandshakeSeqNo = e'.peerHandshakeSeqNo) :
    e.Reads wanted body program ↔ e'.Reads wanted body program' := by
  simp only [Engine.Reads, finalState, same, transcript, number]

theorem nextHandshake_incomplete {wanted : MessageType}
    (incomplete : ¬e.hasCompleteHandshake wanted = true) : nextHandshake wanted e = .ok none e := by
  have outcome : Post (nextHandshake wanted) e (fun found e' => found = none ∧ e' = e)
      (fun _ _ => False) := by
    unfold nextHandshake
    rw [post_bind, post_get, if_neg incomplete]
    exact ⟨rfl, rfl⟩
  unfold Post at outcome
  split at outcome
  · rename_i result
    rw [result, outcome.1, outcome.2]
  · exact outcome.elim

theorem nextHandshake_returns {wanted : MessageType} (complete : e.hasCompleteHandshake wanted = true) :
    Post (nextHandshake wanted) e (fun found _ => ∃ message, found = some message) (fun _ _ => True) := by
  unfold nextHandshake
  rw [post_bind, post_get, if_pos complete]
  split
  · trivial
  · rw [post_bind]
    refine defragment_outcome.mono (fun message e' _ => ?_) fun _ _ _ => trivial
    rw [post_bind, post_modify, post_pure]
    exact ⟨message, rfl⟩

/-- The message is read exactly when the queue is exact the first time the test passes. -/
theorem delivers_iff {incomings items : List Incoming}
    (carries : ∀ item ∈ items ++ incomings, item.Carries e.peerHandshakeSeqNo type body)
    (admitted : ∀ item ∈ incomings, e.peerEncryptionEnabled = true → item.first.sequence.epoch ≠ 0)
    (handshaking : e.releaseAppData = false)
    (room : (items ++ incomings).length ≤ e.config.maxQueueRx) (queued : Queued items e.queueRx) :
    e.Reads type body (deliver type incomings) ↔ ExactAtFirst body.length items incomings := by
  induction incomings generalizing e items with
  | nil =>
      refine ⟨fun reads => ?_, fun ⟨front, starts, isPrefix, _⟩ => absurd (List.prefix_nil.mp isPrefix) starts⟩
      obtain ⟨_, none⟩ := reads.2 none e rfl
      cases none
  | cons incoming rest inductionHypothesis =>
      have carried : incoming.Carries e.peerHandshakeSeqNo type body :=
        carries incoming (List.mem_append_right _ List.mem_cons_self)
      have space : e.queueRx.length < e.config.maxQueueRx := by
        have short := queued.length_le
        rw [List.length_append, List.length_cons] at room
        omega
      have insertion := insertIncoming_queued carried (admitted incoming List.mem_cons_self) handshaking
        space queued
      cases inserted : insertIncoming incoming e with
      | error err e' =>
          rw [Post, inserted] at insertion
          exact insertion.elim
      | ok _ e₁ =>
          rw [Post, inserted] at insertion
          obtain ⟨queueRx, rfl, queued'⟩ := insertion
          have carries' : ∀ item ∈ queueRx, item.Carries e.peerHandshakeSeqNo type body := by
            intro item member
            refine carries item ?_
            have inItems := queued'.subset member
            simp only [List.mem_append, List.mem_cons, List.not_mem_nil, or_false] at inItems ⊢
            exact inItems.imp id .inl
          have test := @hasComplete_iff_seems { e with queueRx } type body carries'
          rw [exactAtFirst_cons queued']
          by_cases seems : Seems body.length queueRx
          · -- The call reads what there is, for better or worse.
            have now : e.Reads type body (deliver type (incoming :: rest)) ↔
                Engine.Reads { e with queueRx } type body (nextHandshake type) := by
              refine reads_congr ?_ rfl rfl
              have outcome := nextHandshake_returns (test.mpr seems)
              rw [deliver_cons inserted]
              cases result : nextHandshake type { e with queueRx } with
              | error err e₂ => rfl
              | ok found e₂ =>
                  rw [Post, result] at outcome
                  obtain ⟨message, rfl⟩ := outcome
                  rfl
            rw [now, reads_iff_exact carries' seems]
            exact ⟨.inl, fun either => either.elim id fun later => absurd seems later.1⟩
          · have later : e.Reads type body (deliver type (incoming :: rest)) ↔
                Engine.Reads { e with queueRx } type body (deliver type rest) := by
              refine reads_congr ?_ rfl rfl
              have incomplete := mt test.mp seems
              rw [deliver_cons inserted, nextHandshake_incomplete incomplete]
            rw [later, @inductionHypothesis { e with queueRx } (items ++ [incoming]) (by simpa using carries)
              (fun item member => admitted item (List.mem_cons_of_mem _ member)) handshaking
              (by simpa using room) queued']
            refine ⟨fun atFirst => .inr ⟨seems, atFirst⟩, fun either => either.elim (fun isExact => ?_) And.right⟩
            exact absurd isExact.seems seems

end Delivering

end Dimpl.Dtls12
