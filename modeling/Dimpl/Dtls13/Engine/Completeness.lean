import Dimpl.Dtls13.Engine.Scope
import Dimpl.Dtls13.Engine.Soundness
import Dimpl.Lib.Arrangement

/-!
# When a message in the receive queue is found complete

Datagrams with handshake fragments are queued in the order of their first fragments, one for
each message number and offset. The completeness test goes through their fragments in that
order.
-/

namespace Dimpl.Dtls13

open Nom Program Arrangement Pieces

namespace Incoming

/-- All handshake fragments of a datagram. -/
def fragments (incoming : Incoming) : List Fragment := incoming.records.flatMap Record.handshakes

/-- The place of a datagram in the queue. -/
def key (incoming : Incoming) : ℕ ×ₗ ℕ := toLex (queueKey incoming)

/-- A datagram that starts with a whole message. -/
def whole (incoming : Incoming) : Bool :=
  incoming.first.firstHandshake.any fun h => h.header.length = h.header.fragmentLength

/-- A datagram that starts with a handshake fragment and of which nothing was handled. -/
structure Fresh (incoming : Incoming) : Prop where
  starts : incoming.first.firstHandshake.isSome = true
  unhandled : ∀ h ∈ incoming.fragments, h.handled = false

instance {incoming : Incoming} : Decidable incoming.Fresh :=
  decidable_of_iff (incoming.first.firstHandshake.isSome = true ∧
    ∀ h ∈ incoming.fragments, h.handled = false)
    ⟨fun ⟨starts, unhandled⟩ => ⟨starts, unhandled⟩, fun fresh => ⟨fresh.starts, fresh.unhandled⟩⟩

/-- A datagram that starts with a fragment of the expected or a later message. -/
def ahead (messageSeq : Nat) (incoming : Incoming) : Bool :=
  incoming.first.firstHandshake.any fun h => messageSeq ≤ h.header.messageSeq

end Incoming

section Inserting

variable {e : Engine} {items : List Incoming}

/-- Whether a datagram gives way, when it was not consumed. -/
theorem shouldReplace_fresh {existing incoming : Incoming} (fresh : existing.Fresh) :
    shouldReplace existing incoming = (!existing.whole && incoming.whole) := by
  obtain ⟨h, isFirst⟩ := Option.isSome_iff_exists.mp fresh.starts
  have inRecord : h ∈ existing.first.handshakes := List.mem_of_head? isFirst
  have unhandled : existing.first.isHandled = false := by
    unfold Record.isHandled
    rw [if_neg (by simp [List.ne_nil_of_mem inRecord])]
    refine List.all_eq_false.mpr ⟨h, inRecord, ?_⟩
    rw [fresh.unhandled h (List.mem_flatMap.mpr ⟨_, List.mem_cons_self, inRecord⟩)]
    exact Bool.false_ne_true
  simp [shouldReplace, unhandled, Incoming.whole, isFirst]

/-- A datagram is arranged among those before it. -/
theorem insertIncomingHandshake_arranged {incoming : Incoming} {handshake : Fragment}
    (isFirst : incoming.first.firstHandshake = some handshake)
    (arranged : Arranged Incoming.key Incoming.whole items e.queueRx)
    (fresh : ∀ item ∈ e.queueRx, item.Fresh) :
    Post (insertIncomingHandshake incoming handshake) e
      (fun _ e' => e'.peerHandshakeSeqNo = e.peerHandshakeSeqNo ∧
        Arranged Incoming.key Incoming.whole
          (items ++ [incoming].filter (Incoming.ahead e.peerHandshakeSeqNo)) e'.queueRx)
      (fun _ _ => True) := by
  have isKey : (handshake.header.messageSeq, handshake.header.fragmentOffset) = queueKey incoming := by
    simp [queueKey, isFirst]
  unfold insertIncomingHandshake
  rw [post_bind, post_get, post_bind]
  have resent : Post (runIf (((incoming.records.filterMap Record.firstHandshake).filterMap
      Fragment.dupeTriggersResend).head?.any fun seq => seq < e.peerHandshakeSeqNo) flightResend) e
      (fun _ e' => e'.peerHandshakeSeqNo = e.peerHandshakeSeqNo ∧ e'.queueRx = e.queueRx)
      (fun _ _ => True) := by
    rw [post_runIf]
    refine ⟨fun _ => flightResend_unsent.mono ?_ fun _ _ _ => trivial, fun _ => ⟨rfl, rfl⟩⟩
    rintro _ e' ⟨records, -, same⟩
    have number := congrArg Engine.peerHandshakeSeqNo same
    have queue := congrArg Engine.queueRx same
    exact ⟨number, queue⟩
  refine resent.mono ?_ fun _ _ _ => trivial
  rintro _ e₁ ⟨number, queue⟩
  rw [← number]
  rw [← queue] at arranged fresh
  rw [post_bind, post_get]
  dsimp only
  rw [post_ite]
  refine ⟨fun old => ⟨rfl, ?_⟩, fun new => ?_⟩
  · have behind : incoming.ahead e₁.peerHandshakeSeqNo = false := by
      simpa [Incoming.ahead, isFirst] using old
    simpa [behind] using arranged
  · have ahead : incoming.ahead e₁.peerHandshakeSeqNo = true := by
      simpa [Incoming.ahead, isFirst] using new
    rw [post_ite]
    refine ⟨fun _ => trivial, fun _ => ?_⟩
    rw [isKey]
    split
    · rename_i index miss
      rw [post_set]
      obtain ⟨front, back, split, smaller, larger, inserted⟩ := search_miss (fun _ => then_lt)
        (fun _ => then_gt) arranged.sorted miss
      refine ⟨rfl, ?_⟩
      rw [split] at arranged
      simpa [ahead, inserted incoming] using arranged.insert smaller larger
    · rename_i index hit
      obtain ⟨front, existing, back, split, sameKey, found, replaced⟩ :=
        search_hit (fun _ => then_lt) (fun _ => then_gt) hit
      have isFresh : existing.Fresh := fresh existing (List.mem_of_getElem? found)
      rw [found, Option.any_some, shouldReplace_fresh isFresh, post_ite]
      have again := (split ▸ arranged).again sameKey
      refine ⟨fun replaces => ?_, fun stays => ?_⟩
      · rw [post_set]
        refine ⟨rfl, ?_⟩
        rw [if_pos replaces] at again
        simpa [ahead, replaced incoming] using again
      · refine ⟨rfl, ?_⟩
        rw [if_neg stays] at again
        simpa [ahead, split] using again

/-- Datagrams that come in one after the other. -/
def insertAll : List Incoming → EngineM Unit
  | [] => pure ()
  | incoming :: rest => do
    insertIncoming incoming
    insertAll rest

theorem insertAll_arranged {incomings : List Incoming} (fresh : ∀ item ∈ incomings, item.Fresh)
    (earlier : ∀ item ∈ items, item.Fresh)
    (arranged : Arranged Incoming.key Incoming.whole items e.queueRx) :
    Post (insertAll incomings) e
      (fun _ e' => e'.peerHandshakeSeqNo = e.peerHandshakeSeqNo ∧
        Arranged Incoming.key Incoming.whole
          (items ++ incomings.filter (Incoming.ahead e.peerHandshakeSeqNo)) e'.queueRx)
      (fun _ _ => True) := by
  induction incomings generalizing e items with
  | nil => exact ⟨rfl, by simpa using arranged⟩
  | cons incoming rest inductionHypothesis =>
      have isFresh := fresh incoming List.mem_cons_self
      obtain ⟨handshake, isFirst⟩ := Option.isSome_iff_exists.mp isFresh.starts
      unfold insertAll insertIncoming
      rw [post_bind, post_bind, post_get, post_ite]
      refine ⟨fun _ => trivial, fun _ => ?_⟩
      rw [isFirst]
      refine (insertIncomingHandshake_arranged isFirst arranged fun item member =>
        earlier item (arranged.subset member)).mono ?_ fun _ _ _ => trivial
      rintro _ e₁ ⟨number, arranged⟩
      have later := inductionHypothesis (fun item member => fresh item (List.mem_cons_of_mem _ member))
        (fun item member => ?_) arranged
      · refine later.mono ?_ fun _ _ _ => trivial
        rintro _ e₂ ⟨number', arranged⟩
        refine ⟨number'.trans number, ?_⟩
        rw [number, List.append_assoc, ← List.filter_append] at arranged
        exact arranged
      · obtain member | member := List.mem_append.mp member
        · exact earlier item member
        · obtain rfl := List.mem_singleton.mp (List.mem_filter.mp member).1
          exact isFresh

end Inserting

section Order

/-- How far fragments reach. -/
def reach : (reached : Nat) → List Fragment → Nat
  | reached, [] => reached
  | reached, h :: rest => reach (max h.stop reached) rest

/-- Every fragment starts no later than where those before it end. -/
def NoGap : (reached : Nat) → List Fragment → Prop
  | _, [] => True
  | reached, h :: rest => h.header.fragmentOffset ≤ reached ∧ NoGap (max h.stop reached) rest

/-- The fragments of one message, in their order. -/
def ofMessage (messageSeq : Nat) (fragments : List Fragment) : List Fragment :=
  fragments.filter fun h => h.header.messageSeq = messageSeq

/-- A message comes first, and some fragments it starts with cover it without a gap. -/
def InOrder (messageSeq total : Nat) (fragments : List Fragment) : Prop :=
  (∃ first ∈ fragments.head?, first.header.messageSeq = messageSeq) ∧
    ∃ front, front ≠ [] ∧ front <+: ofMessage messageSeq fragments ∧ NoGap 0 front ∧
      reach 0 front = total

/-- A scan finds a message complete exactly when some fragments it starts with cover it
without a gap. -/
theorem scan_complete_iff {messageSeq total : Nat} {fragments : List Fragment} {reached : Nat} :
    scan messageSeq total fragments reached = .complete ↔
      ∃ front, front ≠ [] ∧ front <+: ofMessage messageSeq fragments ∧ NoGap reached front ∧
        reach reached front = total := by
  induction fragments generalizing reached with
  | nil => simp [scan, ofMessage]
  | cons h rest inductionHypothesis =>
      unfold scan
      by_cases other : messageSeq = h.header.messageSeq
      · have own : ofMessage messageSeq (h :: rest) = h :: ofMessage messageSeq rest := by
          simp [ofMessage, other]
        rw [if_neg (not_not.mpr other), own, exists_front_cons]
        simp only [NoGap, reach]
        by_cases gap : h.header.fragmentOffset > reached
        · rw [if_pos gap]
          refine ⟨nofun, ?_⟩
          rintro ⟨_, _, ⟨noGap, _⟩, _⟩
          exact absurd gap (Nat.not_lt.mpr noGap)
        · rw [if_neg gap]
          have noGap := Nat.le_of_not_lt gap
          by_cases all : max h.stop reached = total
          · rw [if_pos all]
            exact ⟨fun _ => ⟨[], List.nil_prefix, ⟨noGap, trivial⟩, all⟩, fun _ => rfl⟩
          · rw [if_neg all, inductionHypothesis]
            constructor
            · rintro ⟨front, -, isPrefix, rest, reaches⟩
              exact ⟨front, isPrefix, ⟨noGap, rest⟩, reaches⟩
            · rintro ⟨front, isPrefix, ⟨-, rest⟩, reaches⟩
              refine ⟨front, ?_, isPrefix, rest, reaches⟩
              rintro rfl
              exact all reaches
      · have skipped : ofMessage messageSeq (h :: rest) = ofMessage messageSeq rest := by
          simp [ofMessage, Ne.symm other]
        rw [if_pos other, inductionHypothesis, skipped]

end Order

section Found

variable {e e' : Engine}

/-- Datagrams as an honest peer cuts its messages: each message has its type and length. -/
def Honest (messages : Nat → MessageType × Nat) (incomings : List Incoming) : Prop :=
  ∀ item ∈ incomings, item.Fresh ∧ ∀ h ∈ item.fragments,
    (h.header.msgType, h.header.length) = messages h.header.messageSeq ∧ h.stop ≤ h.header.length

/-- Every byte of a message is in some fragment of it. -/
def Covered (messageSeq total : Nat) (incomings : List Incoming) : Prop :=
  (∃ item ∈ incomings, ∃ h ∈ item.fragments, h.header.messageSeq = messageSeq) ∧
    ∀ i < total, ∃ item ∈ incomings, ∃ h ∈ item.fragments, h.header.messageSeq = messageSeq ∧
      h.header.fragmentOffset ≤ i ∧ i < h.stop

instance {messages : Nat → MessageType × Nat} {incomings : List Incoming} :
    Decidable (Honest messages incomings) :=
  inferInstanceAs (Decidable (∀ item ∈ incomings, item.Fresh ∧ ∀ h ∈ item.fragments,
    (h.header.msgType, h.header.length) = messages h.header.messageSeq ∧ h.stop ≤ h.header.length))

instance {messageSeq total : Nat} {incomings : List Incoming} :
    Decidable (Covered messageSeq total incomings) :=
  inferInstanceAs (Decidable (_ ∧ ∀ i < total, ∃ item ∈ incomings, ∃ h ∈ item.fragments,
    h.header.messageSeq = messageSeq ∧ h.header.fragmentOffset ≤ i ∧ i < h.stop))

theorem scanFragments_fresh (fresh : ∀ item ∈ e.queueRx, item.Fresh)
    (few : e.rxRecords.length ≤ maxDefragmentPackets) :
    e.scanFragments = e.queueRx.flatMap Incoming.fragments := by
  have queued : e.rxRecords.flatMap Record.handshakes = e.queueRx.flatMap Incoming.fragments :=
    List.flatMap_assoc
  have unhandled : ∀ h ∈ e.queueRx.flatMap Incoming.fragments, h.handled = false := by
    intro h member
    obtain ⟨item, inQueue, inItem⟩ := List.mem_flatMap.mp member
    exact (fresh item inQueue).unhandled h inItem
  have all : (e.rxRecords.dropWhile Record.isHandled).length ≤ maxDefragmentPackets :=
    Nat.le_trans (List.dropWhile_suffix _).length_le few
  rw [Engine.scanFragments, List.take_of_length_le all, dropWhile_handled_records, queued]
  exact Marking.dropWhile_none unhandled

/-- After datagrams of an honest peer, the expected message is found complete exactly when
it comes in order in the arrangement of the datagrams that are not late. -/
theorem complete_iff_inOrder {messages : Nat → MessageType × Nat} {incomings : List Incoming}
    (empty : e.queueRx = []) (honest : Honest messages incomings)
    (accepted : insertAll incomings e = .ok () e')
    (few : e'.rxRecords.length ≤ maxDefragmentPackets) :
    e'.hasCompleteHandshake (messages e.peerHandshakeSeqNo).1 = true ↔
      ∃ queue, Arranged Incoming.key Incoming.whole
          (incomings.filter (Incoming.ahead e.peerHandshakeSeqNo)) queue ∧
        InOrder e.peerHandshakeSeqNo (messages e.peerHandshakeSeqNo).2
          (queue.flatMap Incoming.fragments) := by
  have fresh : ∀ item ∈ incomings, item.Fresh := fun item member => (honest item member).1
  have start : Arranged Incoming.key Incoming.whole [] e.queueRx := by
    rw [empty]
    exact .nil
  have inserted := insertAll_arranged fresh (fun _ member => absurd member List.not_mem_nil) start
  rw [Post, accepted] at inserted
  obtain ⟨number, arranged⟩ := inserted
  rw [List.nil_append] at arranged
  have queued : ∀ item ∈ e'.queueRx, item ∈ incomings := fun item member =>
    (List.mem_filter.mp (arranged.subset member)).1
  -- Every fragment of the queue is as its message says.
  have asSent : ∀ h ∈ e'.queueRx.flatMap Incoming.fragments,
      (h.header.msgType, h.header.length) = messages h.header.messageSeq := by
    intro h member
    obtain ⟨item, inQueue, inItem⟩ := List.mem_flatMap.mp member
    exact ((honest item (queued item inQueue)).2 h inItem).1
  have scanned := scanFragments_fresh (fun item member => fresh item (queued item member)) few
  have isComplete : e'.hasCompleteHandshake (messages e.peerHandshakeSeqNo).1 = true ↔
      InOrder e.peerHandshakeSeqNo (messages e.peerHandshakeSeqNo).2
        (e'.queueRx.flatMap Incoming.fragments) := by
    unfold Engine.hasCompleteHandshake InOrder
    rw [scanned, number, Option.any_eq_true, ← scan_complete_iff]
    constructor
    · rintro ⟨first, found, holds⟩
      simp only [Bool.and_eq_true, decide_eq_true_eq, Engine.scanFirst, scanned] at holds
      obtain ⟨⟨own, -⟩, complete⟩ := holds
      have sent := asSent first (List.mem_of_head? found)
      rw [own] at sent complete
      rw [← sent]
      exact ⟨⟨first, found, own⟩, complete⟩
    · rintro ⟨⟨first, found, own⟩, complete⟩
      have sent := asSent first (List.mem_of_head? found)
      rw [own] at sent
      refine ⟨first, found, ?_⟩
      simp only [Bool.and_eq_true, decide_eq_true_eq, Engine.scanFirst, scanned, own]
      rw [← sent] at complete ⊢
      exact ⟨⟨trivial, rfl⟩, complete⟩
  rw [isComplete]
  constructor
  · intro inOrder
    exact ⟨_, arranged, inOrder⟩
  · rintro ⟨queue, same, inOrder⟩
    exact arranged.unique same ▸ inOrder

end Found

end Dimpl.Dtls13
