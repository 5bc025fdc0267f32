import Dimpl.Dtls12.Engine.Milestone
import Dimpl.Lib.Marking

/-!
# What reassembly does to the receive queue

As in version 1.3: `next_handshake` takes the stretch of fragments that have the message type
of the first unhandled one, marks these and puts their bytes together, here without a look at
where in the message they belong.
-/

namespace Dimpl.Dtls12

open Nom Program

namespace Engine

/-- The fragments of the receive queue in order. -/
def queuedFragments (e : Engine) : List Fragment := e.rxRecords.flatMap Record.handshakes

/-- They from the first unhandled one on. -/
def pendingFragments (e : Engine) : List Fragment := e.queuedFragments.dropWhile Fragment.handled

end Engine

/-- The fragments up to the first of another message type. -/
def stretch : List Fragment → List Fragment
  | [] => []
  | first :: rest => first :: rest.takeWhile fun h => h.header.msgType = first.header.msgType

section Marking

variable {started : Bool} {left : Nat}

theorem markFragments_walk {fragments : List Fragment} :
    markFragments started left fragments =
      Marking.walk Fragment.handled Fragment.setHandled started left fragments := by
  induction fragments generalizing started left with
  | nil => rfl
  | cons h rest inductionHypothesis => simp only [markFragments, Marking.walk, inductionHypothesis]

theorem markRecords_walk {records : List Record} :
    ((markRecords started left records).1.flatMap Record.handshakes,
        (markRecords started left records).2) =
      Marking.walk Fragment.handled Fragment.setHandled started left
        (records.flatMap Record.handshakes) := by
  induction records generalizing started left with
  | nil => rfl
  | cons r rest inductionHypothesis =>
      rw [List.flatMap_cons, Marking.walk_append, ← markFragments_walk, ← inductionHypothesis]
      rfl

/-- Marking the queue is one walk over its fragments. -/
theorem markQueue_walk {queue : List Incoming} :
    ((markQueue started left queue).flatMap Incoming.records).flatMap Record.handshakes =
      (Marking.walk Fragment.handled Fragment.setHandled started left
        ((queue.flatMap Incoming.records).flatMap Record.handshakes)).1 := by
  induction queue generalizing started left with
  | nil => rfl
  | cons incoming rest inductionHypothesis =>
      have records := @markRecords_walk started left incoming.records
      simp only [List.flatMap_cons, List.flatMap_append, Marking.walk_append, ← records]
      unfold markQueue
      split
      · rename_i marked
        simp only [marked, ← inductionHypothesis, List.flatMap_cons, List.flatMap_append]
        rfl
      · rename_i marked
        have lengths := congrArg List.length (@markRecords_content started left incoming.records)
        rw [marked] at lengths
        simp [Incoming.records] at lengths

end Marking

section Pending

variable {e : Engine}

theorem dropWhile_handled_records {records : List Record} :
    ((records.dropWhile Record.isHandled).flatMap Record.handshakes).dropWhile Fragment.handled =
      (records.flatMap Record.handshakes).dropWhile Fragment.handled := by
  induction records with
  | nil => rfl
  | cons r rest inductionHypothesis =>
      rw [List.dropWhile_cons]
      split
      · rename_i handled
        have all : ∀ h ∈ r.handshakes, h.handled = true := by
          unfold Record.isHandled at handled
          split at handled
          · rename_i empty
            simp [List.isEmpty_iff.mp empty]
          · exact List.all_eq_true.mp handled
        rw [inductionHypothesis, List.flatMap_cons, List.dropWhile_append_of_pos all]
      · rfl

/-- Reassembly goes through the pending fragments. -/
theorem unhandledFragments_map : e.unhandledFragments.map Prod.fst = e.pendingFragments := by
  have fragments : e.unhandledFragments.map Prod.fst =
      ((e.rxRecords.dropWhile Record.isHandled).flatMap Record.handshakes).dropWhile
        Fragment.handled := by
    unfold Engine.unhandledFragments
    rw [← Function.comp_def Fragment.handled Prod.fst, ← List.dropWhile_map, List.map_flatMap]
    simp [Function.comp_def]
  rw [fragments, dropWhile_handled_records]
  rfl

theorem takenFragments_map {items : List (Fragment × Bytes)} :
    (takenFragments items).map Prod.fst = stretch (items.map Prod.fst) := by
  cases items with
  | nil => rfl
  | cons first rest =>
      simp only [takenFragments, stretch, List.map_cons, List.takeWhile_map, Function.comp_def]

theorem stretch_prefix {fragments : List Fragment} : stretch fragments <+: fragments := by
  cases fragments with
  | nil => exact List.prefix_rfl
  | cons first rest => exact (List.prefix_cons_inj first).mpr (List.takeWhile_prefix _)

end Pending

section Outcome

variable {e : Engine}

/-- The outcome of putting the taken fragments together. -/
theorem defragment_outcome {first : Fragment × Bytes} {rest : List (Fragment × Bytes)} :
    Post (defragment first rest) e
      (fun message e' =>
        e'.queueRx = markQueue false (takenFragments (first :: rest)).length e.queueRx ∧
        message.1.header.messageSeq = first.1.header.messageSeq ∧
        message.2 = assembledBytes (takenFragments (first :: rest)) ∧
        message.2.length = first.1.header.length ∧
        e'.transcript = e.transcript ++
          transcriptMessage first.1.header.msgType first.1.header.messageSeq message.2)
      (fun _ e' =>
        e'.queueRx = markQueue false (takenFragments (first :: rest)).length e.queueRx ∧
        e'.transcript =
          if (assembledBytes (takenFragments (first :: rest))).length = first.1.header.length then
            e.transcript ++ transcriptMessage first.1.header.msgType first.1.header.messageSeq
              (assembledBytes (takenFragments (first :: rest)))
          else e.transcript) := by
  unfold defragment
  rw [post_bind, post_get]
  dsimp only
  rw [post_bind, post_set, post_ite]
  refine ⟨fun mismatch => ⟨rfl, (if_neg mismatch).symm⟩, fun fits => ?_⟩
  have fits : (assembledBytes (takenFragments (first :: rest))).length = first.1.header.length :=
    not_not.mp fits
  rw [post_bind, post_modify, if_pos fits]
  have told : ({ first.1.header with
      fragmentOffset := 0
      fragmentLength := first.1.header.length }.serializeFragment
        (assembledBytes (takenFragments (first :: rest)))) =
      transcriptMessage first.1.header.msgType first.1.header.messageSeq
        (assembledBytes (takenFragments (first :: rest))) := by
    rw [transcriptMessage, fits]
  split
  · exact ⟨rfl, congrArg (e.transcript ++ ·) told⟩
  · rw [post_ite]
    exact ⟨fun _ => ⟨rfl, congrArg (e.transcript ++ ·) told⟩,
      fun _ => ⟨rfl, rfl, rfl, fits, congrArg (e.transcript ++ ·) told⟩⟩

/-- A message that is returned has the number of the first pending fragment, and the stretch
in front is marked. -/
theorem nextHandshake_marks {wanted : MessageType} {message : Handshake × Bytes}
    {e' : Engine}
    (returned : nextHandshake wanted e = .ok (some message) e') :
    e.pendingFragments.head?.map (fun first => first.header.messageSeq) =
        some message.1.header.messageSeq ∧
      e'.queuedFragments = (Marking.walk Fragment.handled Fragment.setHandled false
        (stretch e.pendingFragments).length e.queuedFragments).1 := by
  have outcome : Post (nextHandshake wanted) e
      (fun found e' => ∀ message, found = some message →
        e.pendingFragments.head?.map (fun first => first.header.messageSeq) =
            some message.1.header.messageSeq ∧
          e'.queuedFragments = (Marking.walk Fragment.handled Fragment.setHandled false
            (stretch e.pendingFragments).length e.queuedFragments).1) (fun _ _ => True) := by
    unfold nextHandshake
    rw [post_bind, post_get, post_ite]
    refine ⟨fun _ => ?_, fun _ => fun _ none => by cases none⟩
    split
    · trivial
    · rename_i first rest queued
      rw [post_bind]
      refine defragment_outcome.mono (fun found e' outcome => ?_) fun _ _ _ => trivial
      rw [post_bind, post_modify, post_pure]
      rintro message ⟨⟩
      obtain ⟨queue, number, -⟩ := outcome
      refine ⟨?_, ?_⟩
      · rw [← unhandledFragments_map, queued, number]
        rfl
      · rw [Engine.queuedFragments, Engine.rxRecords, queue, markQueue_walk, ← unhandledFragments_map,
          ← takenFragments_map, List.length_map, queued]
        rfl
  rw [Post, returned] at outcome
  exact outcome message rfl

end Outcome

section Exact

/-- The unhandled fragments of the stretch in front belong to one message. -/
def Engine.OneMessage (e : Engine) : Prop :=
  ∀ first ∈ e.pendingFragments.head?, ∀ h ∈ stretch e.pendingFragments, h.handled = false →
    h.header.messageSeq = first.header.messageSeq

instance {e : Engine} : Decidable e.OneMessage :=
  inferInstanceAs (Decidable (∀ first ∈ e.pendingFragments.head?, ∀ h ∈ stretch e.pendingFragments,
    h.handled = false → h.header.messageSeq = first.header.messageSeq))

/-- From one state to the other, only fragments of the messages with these numbers got
handled. -/
def HandlesOnly (numbers : Nat → Prop) (e e' : Engine) : Prop :=
  Marking.DoneOnly Fragment.handled (fun h => h.header.messageSeq) numbers e.queuedFragments
    e'.queuedFragments

/-- A call takes only fragments of the message it returns exactly when the stretch in front
is of one message. -/
theorem handlesOnly_iff {e e' : Engine} {wanted : MessageType} {message : Handshake × Bytes}
    (returned : nextHandshake wanted e = .ok (some message) e') :
    HandlesOnly (· = message.1.header.messageSeq) e e' ↔ e.OneMessage := by
  obtain ⟨number, marks⟩ := nextHandshake_marks returned
  obtain ⟨first, isFirst, number⟩ := Option.map_eq_some_iff.mp number
  have stretched : (e.queuedFragments.dropWhile Fragment.handled).take
      (stretch e.pendingFragments).length = stretch e.pendingFragments :=
    (List.prefix_iff_eq_take.mp stretch_prefix).symm
  unfold HandlesOnly Engine.OneMessage
  rw [marks, isFirst, ← number]
  refine (Marking.walk_only fun _ => rfl).trans ?_
  rw [stretched]
  simp

/-- Calls that each return a message, with the messages; the number that is expected next
may change between them. -/
inductive Fetches : Engine → List Handshake → Engine → Prop where
  | done {e : Engine} : Fetches e [] e
  | fetch {e e' e'' : Engine} {wanted : MessageType}
      {message : Handshake × Bytes} {messages : List Handshake} {next : Nat}
      (isOne : e.OneMessage)
      (returned : nextHandshake wanted e = .ok (some message) e')
      (later : Fetches { e' with peerHandshakeSeqNo := next } messages e'') :
      Fetches e (message.1 :: messages) e''

theorem nextHandshake_numbers {e e' : Engine} {wanted : MessageType}
    {message : Handshake × Bytes}
    (returned : nextHandshake wanted e = .ok (some message) e') :
    (e'.queuedFragments.map fun h => h.header.messageSeq) =
      e.queuedFragments.map fun h => h.header.messageSeq := by
  rw [(nextHandshake_marks returned).2]
  refine Marking.walk_map ?_
  exact fun _ => rfl

/-- The next call starts behind the stretch. -/
theorem nextHandshake_pending {e e' : Engine} {wanted : MessageType}
    {message : Handshake × Bytes}
    (returned : nextHandshake wanted e = .ok (some message) e') :
    e'.pendingFragments =
      (e.pendingFragments.drop (stretch e.pendingFragments).length).dropWhile Fragment.handled := by
  rw [Engine.pendingFragments, (nextHandshake_marks returned).2]
  refine Marking.dropWhile_walk ?_
  exact fun _ => rfl

/-- A fragment that gets handled belongs to a message that is returned. -/
theorem Fetches.handled {e e' : Engine} {messages : List Handshake} (fetches : Fetches e messages e') :
    HandlesOnly (fun number => ∃ message ∈ messages, number = message.header.messageSeq) e e' := by
  induction fetches with
  | done => exact .refl
  | @fetch e e' e'' _ message messages next isOne returned later inductionHypothesis =>
      have now : HandlesOnly (· = message.1.header.messageSeq) e e' := (handlesOnly_iff returned).mpr isOne
      refine (now.mono ?_).trans (nextHandshake_numbers returned)
        (inductionHypothesis.mono ?_)
      · exact fun number is => ⟨message.1, List.mem_cons_self, is⟩
      · exact fun number ⟨other, member, is⟩ => ⟨other, List.mem_cons_of_mem _ member, is⟩

end Exact

end Dimpl.Dtls12
