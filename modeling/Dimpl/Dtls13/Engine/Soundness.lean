import Dimpl.Dtls13.Engine.Reassembly
import Dimpl.Lib.Pieces

/-!
# What a message is put together from

The completeness test skips fragments of other messages, reassembly does not. The two agree
as long as a fragment of another message in the stretch brings nothing new.
-/

namespace Dimpl.Dtls13

open Nom Program Pieces

/-- A fragment as a piece of its message. -/
def piece (item : Fragment × Bytes) : Piece UInt8 where
  offset := item.1.header.fragmentOffset
  length := item.1.header.fragmentLength
  bytes := slice item.2 item.1.range

/-- An unhandled fragment of the message with this number. -/
def Own (messageSeq : Nat) (item : Fragment × Bytes) : Prop :=
  item.1.handled = false ∧ item.1.header.messageSeq = messageSeq

instance {messageSeq : Nat} {item : Fragment × Bytes} : Decidable (Own messageSeq item) :=
  inferInstanceAs (Decidable (_ ∧ _))

namespace Engine

/-- The unhandled fragments of the expected message are of one type and length and each holds
what one body has at its place. -/
def Consistent (e : Engine) (wanted : MessageType) (body : Bytes) : Prop :=
  ∀ item ∈ e.unhandledFragments, Own e.peerHandshakeSeqNo item →
    item.1.header.msgType = wanted ∧ item.1.header.length = body.length ∧ (piece item).Of body

instance {e : Engine} {wanted : MessageType} {body : Bytes} : Decidable (e.Consistent wanted body) :=
  inferInstanceAs (Decidable (∀ item ∈ e.unhandledFragments, Own e.peerHandshakeSeqNo item →
    item.1.header.msgType = wanted ∧ item.1.header.length = body.length ∧ (piece item).Of body))

/-- In the stretch that reassembly takes, fragments of other messages end no later than what
the fragments before them reach, and the expected message is complete. -/
def Agrees (e : Engine) (body : Bytes) : Prop :=
  Undisturbed piece (Own e.peerHandshakeSeqNo) body.length 0 (takenFragments e.unhandledFragments)

/-- The fragments of other messages in the stretch share no byte with the body. -/
def Apart (e : Engine) (body : Bytes) : Prop :=
  Foreign piece (Own e.peerHandshakeSeqNo) body (takenFragments e.unhandledFragments)

/-- The body is read: it enters the transcript, and a message that is returned was read from
it. -/
def Reassembles (e : Engine) (wanted : MessageType) (allowUnknown : Bool) (body : Bytes) : Prop :=
  (finalState (nextHandshakeWithOptions wanted true allowUnknown) e).transcript =
      e.transcript ++ transcriptMessage wanted body ∧
    ∀ found e', nextHandshakeWithOptions wanted true allowUnknown e = .ok found e' →
      ∃ handshake, found = some (handshake, body)

end Engine

section Assembly

theorem assemble_join {items : List (Fragment × Bytes)} {reached : Nat} :
    assemble reached items = join piece reached items := by
  induction items generalizing reached with
  | nil => rfl
  | cons item rest inductionHypothesis =>
      have bytes : slice item.2 ⟨item.1.range.start + (reached - item.1.header.fragmentOffset),
          item.1.range.stop⟩ =
          (slice item.2 item.1.range).drop (reached - item.1.header.fragmentOffset) := by
        simp only [slice, List.drop_take, List.drop_drop, Nat.sub_add_eq]
      rw [assemble, inductionHypothesis, bytes]
      rfl

/-- The first fragment is taken as it is, which is what it adds. -/
theorem assembledBytes_join {first : Fragment × Bytes} {rest : List (Fragment × Bytes)} {body : Bytes}
    (of : (piece first).Of body) :
    assembledBytes (first :: rest) = join piece 0 (first :: rest) := by
  have bytes : (piece first).beyond 0 = slice first.2 first.1.range := by
    unfold Piece.beyond
    split
    · simp only [Nat.zero_sub, List.drop_zero]
      rfl
    · rename_i covered
      have empty : (piece first).length = 0 := by omega
      have none := of.2
      rw [empty, List.take_zero] at none
      exact none.symm
  rw [assembledBytes, join, bytes, assemble_join, Nat.max_eq_left (Nat.zero_le _)]
  rfl

end Assembly

section Scan

variable {messageSeq total : Nat}

/-- A scan that ends with a complete message met no gap, as far as the list goes that it
shares with reassembly. -/
theorem gapless_of_scan {items : List (Fragment × Bytes)} {scanned : List Fragment}
    {lastFragmentEnd reached : Nat}
    (shared : items.map Prod.fst <+: scanned ∨ scanned <+: items.map Prod.fst)
    (ends : ∀ item ∈ items, Own messageSeq item → (piece item).stop ≤ total)
    (complete : scan messageSeq total scanned lastFragmentEnd = .complete ∨ total ≤ reached)
    (behind : lastFragmentEnd ≤ reached) : Gapless piece (Own messageSeq) reached items := by
  induction items generalizing scanned lastFragmentEnd reached with
  | nil => trivial
  | cons item rest inductionHypothesis =>
      have endsRest : ∀ other ∈ rest, Own messageSeq other → (piece other).stop ≤ total :=
        fun other member => ends other (List.mem_cons_of_mem _ member)
      have begins : (piece item).offset ≤ (piece item).stop := Nat.le_add_right ..
      obtain complete | reachedAll := complete
      · cases scanned with
        | nil => cases complete
        | cons h scanned =>
            obtain ⟨rfl, sharedRest⟩ : item.1 = h ∧
                (rest.map Prod.fst <+: scanned ∨ scanned <+: rest.map Prod.fst) := by
              obtain shared | shared := shared
              · exact ⟨(List.cons_prefix_cons.mp shared).1, .inl (List.cons_prefix_cons.mp shared).2⟩
              · exact ⟨(List.cons_prefix_cons.mp shared).1.symm,
                  .inr (List.cons_prefix_cons.mp shared).2⟩
            have further : max item.1.stop lastFragmentEnd ≤ max (piece item).stop reached :=
              max_le_max (Nat.le_refl _) behind
            unfold scan at complete
            split at complete
            · rename_i other
              refine ⟨fun own => absurd own.2.symm other, inductionHypothesis sharedRest endsRest (.inl complete) ?_⟩
              exact Nat.le_trans behind (Nat.le_max_right ..)
            · split at complete
              · cases complete
              · rename_i noGap
                refine ⟨fun _ => Nat.le_trans (Nat.le_of_not_lt noGap) behind, ?_⟩
                dsimp only at complete
                split at complete
                · rename_i all
                  exact inductionHypothesis sharedRest endsRest (.inr (all ▸ further)) further
                · exact inductionHypothesis sharedRest endsRest (.inl complete) further
      · refine ⟨fun own => Nat.le_trans begins (Nat.le_trans (ends item List.mem_cons_self own) reachedAll), ?_⟩
        exact inductionHypothesis (.inl List.prefix_rfl) endsRest
          (.inr (Nat.le_trans reachedAll (Nat.le_max_right ..))) (Nat.zero_le _)

end Scan

section Sound

variable {e : Engine} {wanted : MessageType} {body : Bytes}

/-- The scan looks at the pending fragments, and perhaps not at all of them. -/
theorem scanFragments_initial (found : e.scanFragments ≠ []) : e.scanFragments <+: e.pendingFragments := by
  have pending : e.pendingFragments =
      ((e.rxRecords.dropWhile Record.isHandled).flatMap Record.handshakes).dropWhile
        Fragment.handled := dropWhile_handled_records.symm
  rw [pending]
  unfold Engine.scanFragments at found ⊢
  rw [← List.take_append_drop maxDefragmentPackets (e.rxRecords.dropWhile Record.isHandled),
    List.flatMap_append, List.dropWhile_append, List.take_append_drop]
  split
  · rename_i empty
    exact absurd (List.isEmpty_iff.mp empty) found
  · exact List.prefix_append ..

/-- What a complete message starts with. -/
theorem complete_first (complete : e.hasCompleteHandshake wanted = true) :
    ∃ first rest, e.unhandledFragments = first :: rest ∧ Own e.peerHandshakeSeqNo first ∧
      first.1.header.msgType = wanted ∧ e.scanFragments ≠ [] ∧
      scan e.peerHandshakeSeqNo first.1.header.length e.scanFragments 0 = .complete := by
  unfold Engine.hasCompleteHandshake at complete
  rw [Option.any_eq_true] at complete
  obtain ⟨head, found, holds⟩ := complete
  simp only [Bool.and_eq_true, decide_eq_true_eq] at holds
  have same := unhandledFragments_head found
  cases queued : e.unhandledFragments with
  | nil =>
      rw [queued] at same
      cases same
  | cons first rest =>
      rw [queued] at same
      cases same
      have unhandled : first.1.handled = false := by
        have stopped := List.head?_dropWhile_not (fun (item : Fragment × Bytes) => item.1.handled)
          ((e.rxRecords.dropWhile Record.isHandled).flatMap fun r =>
            r.handshakes.map fun h => (h, r.buffer))
        unfold Engine.unhandledFragments at queued
        rw [queued] at stopped
        exact stopped
      refine ⟨first, rest, rfl, ⟨unhandled, holds.1.1⟩, holds.1.2, ?_, ?_⟩
      · intro empty
        rw [empty] at found
        cases found
      · rw [← holds.1.1]
        exact holds.2

/-- Reassembly takes its first fragment, an own one. -/
theorem gapless_taken (complete : e.hasCompleteHandshake wanted = true)
    (consistent : e.Consistent wanted body) :
    Gapless piece (Own e.peerHandshakeSeqNo) 0 (takenFragments e.unhandledFragments) := by
  obtain ⟨first, rest, queued, own, -, found, complete⟩ := complete_first complete
  have length : first.1.header.length = body.length :=
    (consistent first (queued ▸ List.mem_cons_self) own).2.1
  rw [length] at complete
  refine gapless_of_scan ?_ (fun item member own => ?_) (.inl complete) (Nat.le_refl 0)
  · rw [takenFragments_map, unhandledFragments_map]
    exact List.prefix_or_prefix_of_prefix stretch_prefix (scanFragments_initial found)
  · exact (consistent item (takenFragments_subset member) own).2.2.1

/-- What a call on a complete message does. -/
theorem nextHandshake_complete {allowUnknown : Bool} {first : Fragment × Bytes}
    {rest : List (Fragment × Bytes)} (complete : e.hasCompleteHandshake wanted = true)
    (queued : e.unhandledFragments = first :: rest) :
    Post (nextHandshakeWithOptions wanted true allowUnknown) e
      (fun found e' =>
        (assembledBytes (takenFragments (first :: rest))).length = first.1.header.length ∧
        (∃ handshake, found = some (handshake, assembledBytes (takenFragments (first :: rest)))) ∧
        e'.transcript = e.transcript ++
          transcriptMessage wanted (assembledBytes (takenFragments (first :: rest))))
      (fun _ e' => e'.transcript =
        if (assembledBytes (takenFragments (first :: rest))).length = first.1.header.length then
          e.transcript ++ transcriptMessage wanted (assembledBytes (takenFragments (first :: rest)))
        else e.transcript) := by
  have type := hasCompleteHandshake_type complete queued
  unfold nextHandshakeWithOptions
  rw [post_bind, post_get, post_ite]
  refine ⟨fun _ => ?_, fun incomplete => absurd complete incomplete⟩
  rw [queued]
  dsimp only
  rw [post_bind, ← type]
  refine defragment_outcome.mono (fun message e' outcome => ?_) fun _ e' outcome => outcome.2
  obtain ⟨-, -, bytes, length, transcript⟩ := outcome
  rw [bytes] at length transcript
  refine ⟨length, ⟨message.1, ?_⟩, transcript⟩
  rw [← bytes]

/-- The body is read exactly when it is what the fragments give. -/
theorem reassembles_iff_bytes {allowUnknown : Bool} {first : Fragment × Bytes}
    {rest : List (Fragment × Bytes)} (complete : e.hasCompleteHandshake wanted = true)
    (queued : e.unhandledFragments = first :: rest) (length : first.1.header.length = body.length) :
    e.Reassembles wanted allowUnknown body ↔ assembledBytes (takenFragments (first :: rest)) = body := by
  have outcome := @nextHandshake_complete e wanted allowUnknown first rest complete queued
  have final : (finalState (nextHandshakeWithOptions wanted true allowUnknown) e).transcript =
      if (assembledBytes (takenFragments (first :: rest))).length = first.1.header.length then
        e.transcript ++ transcriptMessage wanted (assembledBytes (takenFragments (first :: rest)))
      else e.transcript := by
    unfold Post at outcome
    unfold finalState
    cases result : nextHandshakeWithOptions wanted true allowUnknown e with
    | ok found e' =>
        rw [result] at outcome
        rw [if_pos outcome.1]
        exact outcome.2.2
    | error err e' =>
        rw [result] at outcome
        exact outcome
  constructor
  · intro reads
    have transcript := final.symm.trans reads.1
    split at transcript
    · have message := List.append_cancel_left transcript
      simp only [transcriptMessage, List.cons_append, List.cons.injEq, true_and] at message
      exact (List.append_inj message rfl).2
    · have lengths := congrArg List.length transcript
      simp [transcriptMessage] at lengths
  · intro isBody
    rw [isBody, length, if_pos rfl] at final
    refine ⟨final, fun found e' returned => ?_⟩
    rw [Post, returned, isBody] at outcome
    exact outcome.2.1

/-- A complete message is read as its body exactly when nothing in the stretch disturbs it;
the one direction holds for all neighbours, the other for those that share no byte with it. -/
theorem reassembles_iff {allowUnknown : Bool} (complete : e.hasCompleteHandshake wanted = true)
    (consistent : e.Consistent wanted body) :
    (e.Agrees body → e.Reassembles wanted allowUnknown body) ∧
      (e.Apart body → (e.Reassembles wanted allowUnknown body ↔ e.Agrees body)) := by
  have gapless := gapless_taken complete consistent
  obtain ⟨first, rest, queued, own, -⟩ := complete_first complete
  obtain ⟨_, length, of⟩ := consistent first (queued ▸ List.mem_cons_self) own
  have joined : assembledBytes (takenFragments (first :: rest)) =
      join piece 0 (takenFragments (first :: rest)) := assembledBytes_join of
  have pieces : ∀ item ∈ takenFragments (first :: rest), Own e.peerHandshakeSeqNo item →
      (piece item).Of body := by
    intro item member own
    exact (consistent item (queued ▸ takenFragments_subset member) own).2.2
  rw [reassembles_iff_bytes complete queued length, joined]
  unfold Engine.Agrees Engine.Apart
  rw [queued] at gapless ⊢
  have enough : Undisturbed piece (Own e.peerHandshakeSeqNo) body.length 0
      (takenFragments (first :: rest)) → join piece 0 (takenFragments (first :: rest)) = body :=
    join_undisturbed pieces gapless
  exact ⟨enough, fun apart => ⟨undisturbed_of_join pieces gapless apart, enough⟩⟩

end Sound

end Dimpl.Dtls13
