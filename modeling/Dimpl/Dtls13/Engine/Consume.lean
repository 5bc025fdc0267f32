import Dimpl.Dtls13.Engine.Receipt

/-!
# Consuming the receive queue is a sequence of steps

Reassembly and delivery only mark what they take; purging only drops; the timers
and the output move records that were made before.
-/

namespace Dimpl.Dtls13

open Nom Program

section Marking

theorem markFragments_map {started : Bool} {left : Nat} {fragments : List Fragment} :
    ((markFragments started left fragments).1.map fun h => (h.header, h.range)) =
      fragments.map fun h => (h.header, h.range) := by
  induction fragments generalizing started left with
  | nil => rfl
  | cons h rest inductionHypothesis =>
      unfold markFragments
      split
      · simp [inductionHypothesis]
      · split
        · rfl
        · simp [inductionHypothesis, Fragment.setHandled]

theorem markRecords_content {started : Bool} {left : Nat} {records : List Record} :
    (markRecords started left records).1.map Record.content = records.map Record.content := by
  induction records generalizing started left with
  | nil => rfl
  | cons r rest inductionHypothesis =>
      simp only [markRecords, List.map_cons, inductionHypothesis]
      simp [Record.content, markFragments_map]

/-- Marking fragments changes no record's content. -/
theorem markQueue_content {started : Bool} {left : Nat} {queue : List Incoming} :
    ((markQueue started left queue).flatMap Incoming.records).map Record.content =
      (queue.flatMap Incoming.records).map Record.content := by
  induction queue generalizing started left with
  | nil => rfl
  | cons incoming rest inductionHypothesis =>
      have content : (markRecords started left incoming.records).1.map Record.content =
          incoming.records.map Record.content := markRecords_content
      unfold markQueue
      split
      · rename_i first others _ _ marked
        rw [marked] at content
        simp only [List.flatMap_cons, List.map_append, inductionHypothesis]
        rw [← content]
        rfl
      · rename_i marked
        simp only [List.flatMap_cons, List.map_append, inductionHypothesis]

theorem markFirstRecord_some {p : Record → Bool} {records marked : List Record} {found : Record}
    (taken : markFirstRecord p records = some (found, marked)) :
    found ∈ records ∧ p found = true ∧ marked.map Record.content = records.map Record.content := by
  induction records generalizing marked with
  | nil => cases taken
  | cons r rest inductionHypothesis =>
      unfold markFirstRecord at taken
      split at taken
      · rename_i holds
        cases taken
        exact ⟨List.mem_cons_self, holds, rfl⟩
      · obtain ⟨⟨other, others⟩, rest', isMarked⟩ := Option.map_eq_some_iff.mp taken
        cases isMarked
        obtain ⟨member, holds, content⟩ := inductionHypothesis rest'
        exact ⟨List.mem_cons_of_mem _ member, holds, by simp [content]⟩

/-- Taking a record marks it and changes no record's content. -/
theorem markFirst_some {p : Record → Bool} {queue marked : List Incoming} {found : Record}
    (taken : markFirst p queue = some (found, marked)) :
    found ∈ queue.flatMap Incoming.records ∧ p found = true ∧
      (marked.flatMap Incoming.records).map Record.content =
        (queue.flatMap Incoming.records).map Record.content := by
  induction queue generalizing marked with
  | nil => cases taken
  | cons incoming rest inductionHypothesis =>
      unfold markFirst at taken
      split at taken
      · rename_i r first others inIncoming
        cases taken
        obtain ⟨member, holds, content⟩ := markFirstRecord_some inIncoming
        refine ⟨List.mem_flatMap.mpr ⟨incoming, List.mem_cons_self, member⟩, holds, ?_⟩
        simp only [List.flatMap_cons, List.map_append, ← content]
        rfl
      · obtain ⟨⟨other, others⟩, inRest, isMarked⟩ := Option.map_eq_some_iff.mp taken
        cases isMarked
        obtain ⟨member, holds, content⟩ := inductionHypothesis inRest
        refine ⟨?_, holds, ?_⟩
        · simp only [List.flatMap_cons, List.mem_append]
          exact .inr member
        · simp only [List.flatMap_cons, List.map_append, content]

end Marking

section Consuming

variable {S : Bytes → Prop} {K : Prop} {e e' : Engine}

/-- A queue with the same contents is a step away. -/
theorem Quiet.of_content {queueRx : List Incoming}
    (content : (queueRx.flatMap Incoming.records).map Record.content =
      e.rxRecords.map Record.content) : Quiet S K e { e with queueRx } := by
  refine Quiet.of_queue fun r member => .inl ?_
  have mapped : r.content ∈ e.rxRecords.map Record.content :=
    content ▸ List.mem_map_of_mem member
  obtain ⟨r₀, isQueued, same⟩ := List.mem_map.mp mapped
  exact ⟨r₀, isQueued, same⟩

/-- A queue that lost datagrams is a step away. -/
theorem Quiet.of_subset {queueRx : List Incoming} (subset : queueRx ⊆ e.queueRx) :
    Quiet S K e { e with queueRx } := by
  refine Quiet.of_queue fun r member => .inl ⟨r, ?_, rfl⟩
  obtain ⟨item, inQueue, inItem⟩ := List.mem_flatMap.mp member
  exact List.mem_flatMap.mpr ⟨item, subset inQueue, inItem⟩

/-- What reassembly takes is carried by records of the queue. -/
theorem unhandledFragments_carried {item : Fragment × Bytes} (member : item ∈ e.unhandledFragments) :
    ∃ r ∈ e.rxRecords, r.buffer = item.2 ∧ item.1 ∈ r.handshakes := by
  obtain ⟨r, inQueue, inRecord⟩ := List.mem_flatMap.mp ((List.dropWhile_suffix _).subset member)
  obtain ⟨h, inHandshakes, rfl⟩ := List.mem_map.mp inRecord
  exact ⟨r, (List.dropWhile_suffix _).subset inQueue, rfl, inHandshakes⟩

theorem takenFragments_subset {items : List (Fragment × Bytes)} : takenFragments items ⊆ items := by
  cases items with
  | nil => exact List.Subset.refl _
  | cons first rest => exact List.cons_subset_cons first (List.takeWhile_prefix _).subset

theorem defragment_quiet {first : Fragment × Bytes} {rest : List (Fragment × Bytes)}
    {withTranscript allowUnknownClientHelloSuites : Bool}
    (queued : e.unhandledFragments = first :: rest) :
    Post (defragment first rest withTranscript allowUnknownClientHelloSuites) e
      (fun _ e' => Quiet S K e e') (fun _ e' => Quiet S K e e') := by
  unfold defragment
  rw [post_bind, post_get]
  dsimp only
  rw [post_bind, post_set, post_ite]
  refine ⟨fun _ => Quiet.of_content markQueue_content, fun _ => ?_⟩
  simp only [post_bind, post_modify]
  -- The message is assembled before the marks are set, as far as the history tells.
  have assembled : Quiet S K e
      (e.logEvent (.assembled first.1.header.msgType (takenFragments (first :: rest)))) := by
    refine Quiet.of_steps (.single (.assembled fun item member => ?_)) rfl rfl rfl rfl
    exact unhandledFragments_carried (queued ▸ takenFragments_subset member)
  have marked : Quiet S K e
      { e.logEvent (.assembled first.1.header.msgType (takenFragments (first :: rest))) with
        queueRx := markQueue false (takenFragments (first :: rest)).length e.queueRx } :=
    IsTrans.trans _ _ _ assembled (Quiet.of_content markQueue_content)
  refine Post.mono (Q := fun _ e' => Quiet S K e e') (E := fun _ e' => Quiet S K e e') ?_
    (fun _ e' quiet => ?_) fun _ _ quiet => quiet
  · rw [post_runIf]
    refine ⟨fun _ => ?_, fun _ => marked⟩
    exact IsTrans.trans _ _ _ marked (Quiet.of_same rfl rfl)
  · split
    · exact quiet
    · rw [post_ite]
      exact ⟨fun _ => quiet, fun _ => quiet⟩

theorem nextHandshakeWithOptions_quiet {wanted : MessageType}
    {withTranscript allowUnknownClientHelloSuites : Bool} :
    Along (Quiet S K)
      (nextHandshakeWithOptions wanted withTranscript allowUnknownClientHelloSuites) := by
  refine along_get_bind fun e => ?_
  rw [post_ite]
  refine ⟨fun _ => ?_, fun _ => along_pure e⟩
  split
  · exact along_throw e
  · rename_i first rest queued
    rw [post_bind]
    exact defragment_quiet queued

theorem maybeScheduleHandshakeAck_quiet {now : Instant} :
    Quiet S K e (e.maybeScheduleHandshakeAck now) := by
  simp only [Engine.maybeScheduleHandshakeAck]
  split
  · exact Quiet.of_same rfl rfl
  · split
    · exact Quiet.refl
    · split
      · exact Quiet.refl
      · exact Quiet.of_same rfl rfl

theorem sendHandshakeAckEpoch2_quiet {numbers : List (Nat × Nat)} :
    Along (Quiet S K) (sendHandshakeAckEpoch2 numbers) := by
  refine along_get_bind fun e => ?_
  rw [post_runIf]
  refine ⟨fun _ => ?_, fun _ => Quiet.refl⟩
  exact (createCiphertextRecord_sends fun _ => .inl rfl).mono (fun _ _ sends => sends.1)
    fun _ _ sends => sends.1

theorem maybeFlushHandshakeAck_quiet {now : Instant} :
    Along (Quiet S K) (maybeFlushHandshakeAck now) := by
  refine along_get_bind fun e => ?_
  split
  · exact Quiet.refl
  · rw [post_ite]
    refine ⟨fun _ => Quiet.refl, fun _ => ?_⟩
    rw [post_bind, post_set]
    exact (along_runIf fun _ => sendHandshakeAckEpoch2_quiet).after (Quiet.of_same rfl rfl)

theorem retransmit_quiet {now flightTimeout : Instant} :
    Along (Quiet S K) (retransmit now flightTimeout) := by
  refine along_ite (fun _ => along_pure) fun _ => along_get_bind fun e => ?_
  rw [post_ite]
  refine ⟨fun _ => ?_, fun _ => Quiet.refl⟩
  rw [post_bind, post_set]
  exact flightResend_quiet.after (Quiet.of_same rfl rfl)

theorem handleTimeout_quiet {now : Instant} : Along (Quiet S K) (Engine.handleTimeout now) := by
  refine along_bind (along_modify fun e => Quiet.of_same rfl rfl) fun _ => ?_
  refine along_get_bind fun e => ?_
  rw [post_ite]
  refine ⟨fun _ => Quiet.refl, fun _ => ?_⟩
  split
  · refine along_bind retransmit_quiet (fun _ => along_bind ?_ fun _ => ?_) e
    · exact along_modify fun e => maybeScheduleHandshakeAck_quiet
    · exact maybeFlushHandshakeAck_quiet
  · exact Quiet.refl

/-- `poll_app_data` hands out a queued application data record, once released. -/
theorem pollAppData_quiet {bufLen : Nat} : Along (Quiet S K) (pollAppData bufLen) := by
  refine along_get_bind fun e => ?_
  rw [post_ite]
  refine ⟨fun _ => Quiet.refl, fun released => ?_⟩
  split
  · exact Quiet.refl
  · rename_i r queueRx taken
    simp only [post_ite]
    refine ⟨fun _ => Quiet.refl, fun _ => ⟨fun _ => Quiet.refl, fun _ => ?_⟩⟩
    rw [post_bind, post_set]
    obtain ⟨queued, isData, content⟩ := markFirst_some taken
    have delivered : Quiet S K e (e.logEvent (.delivered r.fragment)) := by
      refine Quiet.of_steps (.single (.delivered ?_ queued ?_)) rfl rfl rfl rfl
      · simpa using released
      · simp only [Bool.and_eq_true, decide_eq_true_eq] at isData
        exact isData.1
    exact IsTrans.trans _ _ _ delivered (Quiet.of_content content)

theorem pollPacketTx_quiet {bufLen : Nat} : Along (Quiet S K) (pollPacketTx bufLen) := by
  refine along_get_bind fun e => ?_
  split
  · exact Quiet.refl
  · rw [post_bind, post_set, post_ite]
    exact ⟨fun _ => Quiet.of_same rfl rfl, fun _ => Quiet.of_same rfl rfl⟩

theorem purgeHandledQueueRx_quiet : Quiet S K e e.purgeHandledQueueRx :=
  Quiet.of_subset (List.dropWhile_suffix _).subset

theorem pollOutput_quiet {bufLen : Nat} {now : Instant} :
    Along (Quiet S K) (Engine.pollOutput bufLen now) := by
  refine along_bind (along_modify fun e => purgeHandledQueueRx_quiet) fun _ => ?_
  refine along_bind pollAppData_quiet fun data => ?_
  cases data with
  | some data => exact along_pure
  | none =>
      refine along_bind (along_modify fun e => maybeScheduleHandshakeAck_quiet) fun _ => ?_
      refine along_bind pollPacketTx_quiet fun packet => ?_
      cases packet with
      | some packet => exact along_pure
      | none =>
          refine along_get_bind fun e => ?_
          rw [post_ite]
          refine ⟨fun _ => ?_, fun _ => Quiet.refl⟩
          rw [post_bind, post_set]
          exact Quiet.of_same rfl rfl

end Consuming

end Dimpl.Dtls13
