import Dimpl.Dtls12.Engine.Receipt

/-!
# Consuming the receive queue is a sequence of steps

Reassembly and delivery only mark what they take; purging only drops; the timers
and the output move records that were made before.
-/

namespace Dimpl.Dtls12

open Nom Program

/-- The contents of a datagram. -/
abbrev Incoming.contents (item : Incoming) : List (Bytes × DTLSRecord × List (Header × Range)) :=
  item.records.map Record.content

section Marking

theorem markFragments_map {started : Bool} {left : Nat} {fragments : List Fragment} :
    ((markFragments started left fragments).1.map fun h => (h.header, h.range)) =
      fragments.map fun h => (h.header, h.range) := by
  induction fragments generalizing started left with
  | nil => rfl
  | cons h rest inductionHypothesis =>
      unfold markFragments
      split
      · simp [inductionHypothesis]
      · split
        · rfl
        · simp [inductionHypothesis, Fragment.setHandled]

theorem markRecords_content {started : Bool} {left : Nat} {records : List Record} :
    (markRecords started left records).1.map Record.content = records.map Record.content := by
  induction records generalizing started left with
  | nil => rfl
  | cons r rest inductionHypothesis =>
      simp only [markRecords, List.map_cons, inductionHypothesis]
      simp [Record.content, markFragments_map]

/-- Marking fragments changes no datagram's contents. -/
theorem markQueue_contents {started : Bool} {left : Nat} {queue : List Incoming} :
    (markQueue started left queue).map Incoming.contents = queue.map Incoming.contents := by
  induction queue generalizing started left with
  | nil => rfl
  | cons incoming rest inductionHypothesis =>
      have content : (markRecords started left incoming.records).1.map Record.content =
          incoming.contents := markRecords_content
      unfold markQueue
      split
      · rename_i first others _ _ marked
        rw [marked] at content
        rw [List.map_cons, List.map_cons, inductionHypothesis]
        exact congrArg (· :: _) content
      · rw [List.map_cons, List.map_cons, inductionHypothesis]

theorem markFirstRecord_some {p : Record → Bool} {records marked : List Record} {found : Record}
    (taken : markFirstRecord p records = some (found, marked)) :
    found ∈ records ∧ p found = true ∧ marked.map Record.content = records.map Record.content := by
  induction records generalizing marked with
  | nil => cases taken
  | cons r rest inductionHypothesis =>
      unfold markFirstRecord at taken
      split at taken
      · rename_i holds
        cases taken
        exact ⟨List.mem_cons_self, holds, rfl⟩
      · obtain ⟨⟨other, others⟩, rest', isMarked⟩ := Option.map_eq_some_iff.mp taken
        cases isMarked
        obtain ⟨member, holds, content⟩ := inductionHypothesis rest'
        exact ⟨List.mem_cons_of_mem _ member, holds, by simp [content]⟩

/-- Taking a record marks it and changes no datagram's contents. -/
theorem markFirst_some {p : Record → Bool} {queue marked : List Incoming} {found : Record}
    (taken : markFirst p queue = some (found, marked)) :
    found ∈ queue.flatMap Incoming.records ∧ p found = true ∧
      marked.map Incoming.contents = queue.map Incoming.contents := by
  induction queue generalizing marked with
  | nil => cases taken
  | cons incoming rest inductionHypothesis =>
      unfold markFirst at taken
      split at taken
      · rename_i r first others inIncoming
        cases taken
        obtain ⟨member, holds, content⟩ := markFirstRecord_some inIncoming
        refine ⟨List.mem_flatMap.mpr ⟨incoming, List.mem_cons_self, member⟩, holds, ?_⟩
        exact congrArg (· :: _) content
      · obtain ⟨⟨other, others⟩, inRest, isMarked⟩ := Option.map_eq_some_iff.mp taken
        cases isMarked
        obtain ⟨member, holds, content⟩ := inductionHypothesis inRest
        refine ⟨?_, holds, congrArg (incoming.contents :: ·) content⟩
        simp only [List.flatMap_cons, List.mem_append]
        exact .inr member

@[simp] theorem markCcs_content {r : Record} : (markCcs r).content = r.content := by
  unfold markCcs
  split <;> rfl

end Marking

section Consuming

variable {S : Bytes → Prop} {K : Prop} {e e' : Engine}

/-- A queue with the same contents is a step away. -/
theorem Quiet.of_contents {queueRx : List Incoming}
    (contents : queueRx.map Incoming.contents = e.queueRx.map Incoming.contents) :
    Quiet S K e { e with queueRx } := by
  refine Quiet.of_queue fun item member => .inl ?_
  have mapped : item.contents ∈ e.queueRx.map Incoming.contents :=
    contents ▸ List.mem_map_of_mem member
  obtain ⟨item₀, queued, same⟩ := List.mem_map.mp mapped
  exact ⟨item₀, queued, same⟩

/-- A queue that lost datagrams is a step away. -/
theorem Quiet.of_subset {queueRx : List Incoming} (subset : queueRx ⊆ e.queueRx) :
    Quiet S K e { e with queueRx } :=
  Quiet.of_queue fun item member => .inl ⟨item, subset member, rfl⟩

/-- What reassembly takes is carried by records of the queue. -/
theorem unhandledFragments_carried {item : Fragment × Bytes} (member : item ∈ e.unhandledFragments) :
    ∃ r ∈ e.rxRecords, r.buffer = item.2 ∧ item.1 ∈ r.handshakes := by
  obtain ⟨r, inQueue, inRecord⟩ := List.mem_flatMap.mp ((List.dropWhile_suffix _).subset member)
  obtain ⟨h, inHandshakes, rfl⟩ := List.mem_map.mp inRecord
  exact ⟨r, (List.dropWhile_suffix _).subset inQueue, rfl, inHandshakes⟩

theorem takenFragments_subset {items : List (Fragment × Bytes)} : takenFragments items ⊆ items := by
  cases items with
  | nil => exact List.Subset.refl _
  | cons first rest => exact List.cons_subset_cons first (List.takeWhile_prefix _).subset

theorem defragment_quiet {first : Fragment × Bytes} {rest : List (Fragment × Bytes)}
    (queued : e.unhandledFragments = first :: rest) :
    Post (defragment first rest) e (fun _ e' => Quiet S K e e') (fun _ e' => Quiet S K e e') := by
  unfold defragment
  rw [post_bind, post_get]
  dsimp only
  rw [post_bind, post_set, post_ite]
  refine ⟨fun _ => Quiet.of_contents markQueue_contents, fun _ => ?_⟩
  rw [post_bind, post_modify]
  -- The message is assembled before the marks are set, as far as the history tells.
  have assembled : Quiet S K e
      (e.logEvent (.assembled first.1.header.msgType (takenFragments (first :: rest)))) := by
    refine Quiet.of_steps (.single (.assembled fun item member => ?_)) (List.Subset.refl _)
    exact unhandledFragments_carried (queued ▸ takenFragments_subset member)
  have marked : Quiet S K e
      { e.logEvent (.assembled first.1.header.msgType (takenFragments (first :: rest))) with
        queueRx := markQueue false (takenFragments (first :: rest)).length e.queueRx } :=
    assembled.trans (Quiet.of_contents markQueue_contents)
  have written : ∀ bytes, Quiet S K e
      ({ e.logEvent (.assembled first.1.header.msgType (takenFragments (first :: rest))) with
        queueRx := markQueue false (takenFragments (first :: rest)).length
          e.queueRx }.addToTranscript bytes) :=
    fun bytes => marked.trans (Quiet.of_steps (.single .told) (List.Subset.refl _))
  split
  · exact written _
  · rw [post_ite]
    exact ⟨fun _ => written _, fun _ => written _⟩

theorem nextHandshake_quiet {wanted : MessageType} : Along (Quiet S K) (nextHandshake wanted) := by
  refine along_get_bind fun e => ?_
  rw [post_ite]
  refine ⟨fun _ => ?_, fun _ => Quiet.refl⟩
  split
  · exact Quiet.refl
  · rename_i first rest queued
    rw [post_bind]
    refine (defragment_quiet queued).mono (fun message e₁ quiet => ?_) fun _ _ quiet => quiet
    rw [post_bind, post_modify]
    exact quiet.trans (Quiet.of_same rfl (List.Subset.refl _))

theorem assertNoHandshakes_readOnly {r : Record} : ReadOnly (assertNoHandshakes r) :=
  along_ite (fun _ => along_pure) fun _ => along_throw

theorem nextRecord_quiet {contentType : ContentType} :
    Along (Quiet S K) (nextRecord contentType) := by
  refine along_get_bind fun e => ?_
  split
  · exact Quiet.refl
  · rename_i r queueRx taken
    rw [post_ite]
    refine ⟨fun _ => Quiet.refl, fun _ => ?_⟩
    rw [post_bind]
    refine (assertNoHandshakes_readOnly e).mono ?_ fun _ _ same => same ▸ Quiet.refl
    rintro _ _ rfl
    rw [post_bind, post_set]
    exact Quiet.of_contents (markFirst_some taken).2.2

theorem assertCcs_readOnly {records : List Record} : ReadOnly (assertCcs records) := by
  induction records with
  | nil => exact along_pure
  | cons r rest inductionHypothesis =>
      exact along_bind (along_runIf fun _ => assertNoHandshakes_readOnly) fun _ => inductionHypothesis

theorem dropPendingCcs_quiet : Along (Quiet S K) dropPendingCcs := by
  refine along_get_bind fun e => ?_
  rw [post_bind]
  refine (assertCcs_readOnly e).mono ?_ fun _ _ same => same ▸ Quiet.refl
  rintro _ _ rfl
  rw [post_modify]
  refine Quiet.of_contents ?_
  simp [Incoming.contents, Incoming.records]

theorem retransmit_quiet {now flightTimeout : Instant} :
    Along (Quiet S K) (retransmit now flightTimeout) := by
  refine along_ite (fun _ => along_pure) fun _ => along_get_bind fun e => ?_
  rw [post_ite]
  refine ⟨fun _ => ?_, fun _ => Quiet.refl⟩
  rw [post_bind, post_set]
  exact flightResend_quiet.after (Quiet.of_same rfl (List.Subset.refl _))

/-- What `handle_timeout` does once the timers are armed. -/
theorem handleTimeout_armed {now : Instant} :
    Post (Engine.handleTimeout now) e (fun _ e' => Quiet S K (e.armTimers now) e')
      (fun _ e' => Quiet S K (e.armTimers now) e') := by
  unfold Engine.handleTimeout
  rw [post_bind, post_modify, post_bind, post_get, post_ite]
  refine ⟨fun _ => Quiet.refl, fun _ => ?_⟩
  split
  · exact retransmit_quiet _
  · exact Quiet.refl

/-- `poll_app_data` hands out a queued application data record, once released. -/
theorem pollAppData_quiet {bufLen : Nat} : Along (Quiet S K) (pollAppData bufLen) := by
  refine along_get_bind fun e => ?_
  rw [post_ite]
  refine ⟨fun _ => Quiet.refl, fun released => ?_⟩
  split
  · exact Quiet.refl
  · rename_i r queueRx taken
    rw [post_ite]
    refine ⟨fun _ => Quiet.refl, fun _ => ?_⟩
    rw [post_bind]
    refine (assertNoHandshakes_readOnly e).mono ?_ fun _ _ same => same ▸ Quiet.refl
    rintro _ _ rfl
    rw [post_bind, post_set]
    obtain ⟨queued, isData, contents⟩ := markFirst_some taken
    have delivered : Quiet S K e (e.logEvent (.delivered r.fragment)) := by
      refine Quiet.of_steps (.single (.delivered ?_ queued ?_)) (List.Subset.refl _)
      · simpa using released
      · simp only [Bool.and_eq_true, decide_eq_true_eq] at isData
        exact isData.1
    exact delivered.trans (Quiet.of_contents contents)

theorem pollPacketTx_quiet {bufLen : Nat} : Along (Quiet S K) (pollPacketTx bufLen) := by
  refine along_get_bind fun e => ?_
  split
  · exact Quiet.refl
  · rw [post_bind, post_set, post_ite]
    exact ⟨fun _ => Quiet.of_same rfl (List.Subset.refl _),
      fun _ => Quiet.of_same rfl (List.Subset.refl _)⟩

theorem purgeHandledQueueRx_quiet : Quiet S K e e.purgeHandledQueueRx :=
  Quiet.of_subset (List.dropWhile_suffix _).subset

theorem pollOutput_quiet {bufLen : Nat} {now : Instant} :
    Along (Quiet S K) (Engine.pollOutput bufLen now) := by
  refine along_bind (along_modify fun e => purgeHandledQueueRx_quiet) fun _ => ?_
  refine along_bind pollAppData_quiet fun data => ?_
  cases data with
  | some data => exact along_pure
  | none =>
      refine along_bind pollPacketTx_quiet fun packet => ?_
      cases packet with
      | some packet => exact along_pure
      | none =>
          refine along_get_bind fun e => ?_
          rw [post_ite]
          refine ⟨fun _ => ?_, fun _ => Quiet.refl⟩
          rw [post_bind, post_set]
          exact Quiet.of_same rfl (List.Subset.refl _)

end Consuming

end Dimpl.Dtls12
