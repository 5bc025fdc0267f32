import Dimpl.Dtls13.Engine.Numbers
import Dimpl.Dtls13.Engine.Quiet

/-!
# Receiving is a sequence of steps

From a datagram to the receive queue: every record slice that is parsed is part
of the datagram, and what enters the queue was admitted.
-/

namespace Dimpl.Dtls13

open Nom Program

section Receiving

variable {S : Bytes → Prop} {K : Prop} {e e' : Engine}

/-- Steps leave the encryption flag alone and only add to the history. -/
theorem Step.mono_log (step : Step S K e e') :
    e'.peerEncryptionEnabled = e.peerEncryptionEnabled ∧ ∀ event ∈ e.log, event ∈ e'.log := by
  cases step with
  | other same =>
      have flag : e'.peerEncryptionEnabled = e.peerEncryptionEnabled :=
        congrArg Core.peerEncryptionEnabled same
      have log : e'.log = e.log := congrArg Core.log same
      exact ⟨flag, fun event member => log ▸ member⟩
  | opened slice fresh decrypted =>
      refine ⟨?_, fun event member => ?_⟩
      · simp only [Engine.replayUpdate, Engine.logEvent]
        split <;> rfl
      · have same : ∀ sequence, (e.replayUpdate sequence).log = e.log := by
          intro sequence
          simp only [Engine.replayUpdate]
          split <;> rfl
        simp [Engine.logEvent, same, member]
  | queue sources => exact ⟨rfl, fun event member => member⟩
  | delivered released queued data =>
      exact ⟨rfl, fun event member => List.mem_append_left _ member⟩
  | assembled carried => exact ⟨rfl, fun event member => List.mem_append_left _ member⟩
  | sealed available room known =>
      refine ⟨?_, fun event member => List.mem_append_left _ ?_⟩
      · cases e.sendSlot _ <;> rfl
      · cases e.sendSlot _ <;> exact member
  | forgotten => exact ⟨rfl, fun event member => member⟩

theorem Steps.mono_log (steps : Steps S K e e') :
    e'.peerEncryptionEnabled = e.peerEncryptionEnabled ∧ ∀ event ∈ e.log, event ∈ e'.log := by
  induction steps with
  | refl => exact ⟨rfl, fun _ member => member⟩
  | tail _ step inductionHypothesis =>
      exact ⟨step.mono_log.1.trans inductionHypothesis.1,
        fun event member => step.mono_log.2 event (inductionHypothesis.2 event member)⟩

theorem Opened.mono {log log' : List Event} {r : Record} (opened : Opened log r)
    (more : ∀ event ∈ log, event ∈ log') : Opened log' r := by
  obtain ⟨key, record, plaintext, contentLen, member, inner, content⟩ := opened
  exact ⟨key, record, plaintext, contentLen, more _ member, inner, content⟩

/-- An admitted record stays so along steps. -/
theorem Admitted.of_steps {r : Record} (admitted : Admitted S e r) (steps : Steps S K e e') :
    Admitted S e' r := by
  cases admitted with
  | raw slice parsed clear => exact .raw slice parsed (clear.imp id (steps.mono_log.1.trans ·))
  | opened opened => exact .opened (opened.mono steps.mono_log.2)

theorem decryptSequenceNumber_readOnly {recordSlice : Bytes} :
    ReadOnly (decryptSequenceNumber recordSlice) := by
  refine along_get_bind fun e => ?_
  dsimp only
  rw [post_ite]
  refine ⟨fun _ => ?_, fun _ => along_pure e⟩
  split
  · exact along_pure e
  · exact along_bind suiteProvider_readOnly (fun _ => along_pure) e

theorem xorMask_length {bytes mask : Bytes} : (xorMask bytes mask).length = bytes.length := by
  induction bytes generalizing mask with
  | nil => rfl
  | cons byte rest inductionHypothesis =>
      cases mask with
      | nil => rfl
      | cons first others => simp [xorMask, inductionHypothesis]

/-- Decrypting the sequence number keeps the length of a record. -/
theorem decryptSequenceNumber_length {recordSlice : Bytes} :
    Post (decryptSequenceNumber recordSlice) e
      (fun buffer _ => buffer.length = recordSlice.length) (fun _ _ => True) := by
  unfold decryptSequenceNumber
  rw [post_bind, post_get]
  dsimp only
  rw [post_ite]
  refine ⟨fun long => ?_, fun _ => rfl⟩
  split
  · exact rfl
  · rw [post_bind]
    refine (suiteProvider_readOnly e).mono (fun _ _ _ => ?_) (by simp)
    have room : 1 + Dtls13Record.seqLen (recordSlice.headD 0) ≤ recordSlice.length := by
      have long := of_decide_eq_true (Bool.and_eq_true_iff.mp long).2
      unfold Dtls13Record.unifiedHeaderLen at long
      omega
    rw [post_pure]
    simp only [List.cons_append, List.length_cons, List.length_append, xorMask_length,
      List.length_take, List.length_drop]
    omega

/-- Without keys in use, or on a plaintext record, the bytes stay as they are. -/
theorem decryptSequenceNumber_clear {recordSlice : Bytes}
    (clear : Dtls13Record.isCiphertextHeader (recordSlice.headD 0) = false ∨
      e.peerEncryptionEnabled = false) :
    Post (decryptSequenceNumber recordSlice) e (fun buffer e' => buffer = recordSlice ∧ e' = e)
      (fun _ _ => False) := by
  unfold decryptSequenceNumber
  rw [post_bind, post_get]
  dsimp only
  have off : (Dtls13Record.isCiphertextHeader (recordSlice.headD 0) && e.peerEncryptionEnabled &&
      decide (Dtls13Record.unifiedHeaderLen (recordSlice.headD 0) + 16 ≤ recordSlice.length)) =
      false := by
    rcases clear with plaintext | off
    · rw [plaintext]
      rfl
    · rw [off, Bool.and_false]
      rfl
  rw [off]
  simp

/-- A committed opening keeps the flight and the send epochs. -/
theorem Sends.of_opened {header ciphertext record plaintext : Bytes} {sequence : Sequence}
    {key : KeyId} (slice : S record) (fresh : e.replayCheck sequence = true)
    (decrypted : e.decryptRecord header sequence ciphertext = .ok (key, plaintext)) :
    Sends S K e ((e.replayUpdate sequence).logEvent (.opened key sequence record plaintext)) := by
  have frame : (e.replayUpdate sequence).flightSavedRecords = e.flightSavedRecords ∧
      (e.replayUpdate sequence).appSendEpoch = e.appSendEpoch ∧
      (e.replayUpdate sequence).prevAppSendKeys = e.prevAppSendKeys ∧
      (e.replayUpdate sequence).prevAppSendEpoch = e.prevAppSendEpoch := by
    unfold Engine.replayUpdate
    split <;> simp
  exact ⟨Quiet.of_steps (.single (.opened slice fresh decrypted)) frame.1 frame.2.1 frame.2.2.1
    frame.2.2.2, frame.2⟩

/-- The fragment of an opened record, in the buffer the plaintext was written
into, is the content of the plaintext. -/
theorem slice_opened {buffer plaintext residue : Bytes} {headerEnd contentLen : Nat}
    (inside : headerEnd ≤ buffer.length) (content : contentLen < plaintext.length) :
    slice (buffer.take headerEnd ++ plaintext ++ residue) ⟨headerEnd, headerEnd + contentLen⟩ =
      plaintext.take contentLen := by
  have headerLength : (buffer.take headerEnd).length = headerEnd := by simpa using inside
  have dropped : (buffer.take headerEnd ++ plaintext ++ residue).drop headerEnd =
      plaintext ++ residue := by
    rw [List.append_assoc]
    exact List.drop_left' headerLength
  simp only [slice, dropped, Nat.add_sub_cancel_left]
  exact List.take_append_of_le_length content.le

/-- `openRecord` leaves the state alone or commits one opening, and the record it
returns is what was opened. -/
theorem openRecord_post {recordSlice : Bytes} {r : Record} (slice : S recordSlice)
    (inside : r.record.fragmentRange.start ≤ r.buffer.length)
    (sameLength : r.buffer.length = recordSlice.length) :
    Post (openRecord recordSlice r) e
      (fun result e' => Sends S K e e' ∧ ∀ r', result = some r' → Opened e'.log r')
      (fun _ e' => e' = e) := by
  unfold openRecord
  rw [post_bind, post_get]
  dsimp only
  rw [post_ite]
  refine ⟨fun _ => ⟨Std.Refl.refl e, by simp⟩, fun fresh => ?_⟩
  rw [post_bind]
  refine (suiteProvider_readOnly e).mono ?_ fun _ _ same => same.symm
  rintro suite _ rfl
  rw [post_ite]
  refine ⟨fun _ => ⟨Std.Refl.refl e, by simp⟩, fun _ => ?_⟩
  split
  · exact ⟨Std.Refl.refl e, by simp⟩
  · rename_i key plaintext decrypted
    rw [post_bind, post_modify]
    have sends := Sends.of_opened (K := K) (e := e) slice (by simpa using fresh) decrypted
    split
    · exact ⟨sends, by simp⟩
    · rename_i contentType contentLen recovered
      refine ⟨sends, ?_⟩
      rintro _ ⟨⟩
      refine ⟨key, recordSlice, plaintext, contentLen, ?_, recovered, ?_, ?_⟩
      · simp [Engine.logEvent, Record.ofHeader]
      · exact slice_opened inside (recoverInnerContentType_le recovered)
      · refine ⟨_, _, ?_, rfl⟩
        simpa [inside] using sameLength

/-- `Record::parse` leaves the state alone or commits one opening, and what it
returns is admitted. -/
theorem parseRecord_post {recordSlice : Bytes} (slice : S recordSlice) :
    Post (parseRecord recordSlice) e
      (fun result e' => Sends S K e e' ∧ ∀ r, result = some r → Admitted S e' r)
      (fun _ e' => e' = e) := by
  unfold parseRecord
  rw [post_bind]
  by_cases clear : Dtls13Record.isCiphertextHeader (recordSlice.headD 0) = false ∨
      e.peerEncryptionEnabled = false
  · refine (decryptSequenceNumber_clear clear).mono ?_ (by simp)
    rintro buffer e₁ ⟨isSlice, same⟩
    rw [isSlice, same, post_bind, post_get]
    split
    · exact ⟨Std.Refl.refl _, by simp⟩
    · rename_i r parsed
      have isClear : (!Dtls13Record.isCiphertextHeader (recordSlice.headD 0) ||
          !e.peerEncryptionEnabled) = true := by
        simpa using clear
      rw [if_pos isClear]
      refine ⟨Std.Refl.refl _, ?_⟩
      rintro _ ⟨⟩
      have buffer : r.buffer = recordSlice := by rw [(Record.ofBuffer_ok parsed).1]; rfl
      exact .raw (buffer ▸ slice) (buffer ▸ parsed) (buffer ▸ clear)
  · refine ((decryptSequenceNumber_readOnly e).and decryptSequenceNumber_length).mono ?_
      fun _ _ failed => failed.1.symm
    rintro buffer _ ⟨rfl, sameLength⟩
    rw [post_bind, post_get]
    split
    · exact ⟨Std.Refl.refl _, by simp⟩
    · rename_i r parsed
      have isProtected : ¬(!Dtls13Record.isCiphertextHeader (recordSlice.headD 0) ||
          !e.peerEncryptionEnabled) = true := by
        simpa using clear
      rw [if_neg isProtected]
      have isBuffer : r.buffer = buffer := by rw [(Record.ofBuffer_ok parsed).1]; rfl
      have inside := (Record.ofBuffer_ok parsed).2.1
      rw [← isBuffer] at inside sameLength
      refine (openRecord_post (K := K) slice inside sameLength).mono ?_ fun _ _ same => same
      rintro result e' ⟨sends, opened⟩
      exact ⟨sends, fun r' isResult => .opened (opened r' isResult)⟩

/-- The records a datagram is cut into are parts of it. -/
theorem recordSlices_infix {packet slice : Bytes} (member : slice ∈ recordSlices packet) :
    slice <:+: packet := by
  have inside : ∀ fuel packet, slice ∈ recordSlicesLoop fuel packet → slice <:+: packet := by
    intro fuel
    induction fuel with
    | zero => simp [recordSlicesLoop]
    | succ fuel inductionHypothesis =>
        intro packet member
        unfold recordSlicesLoop at member
        split at member
        · simp at member
        · split at member
          · rename_i stop _
            split at member
            · simp at member
            · rcases List.mem_cons.mp member with rfl | inRest
              · exact (List.take_prefix stop packet).isInfix
              · exact (inductionHypothesis _ inRest).trans (List.drop_suffix stop packet).isInfix
          · simp at member
  exact inside _ _ member

/-- What `Records::parse` finds in a datagram is admitted. -/
theorem parseRecordsLoop_post {fuel : Nat} {packet : Bytes} {parsed : List Record}
    (slices : ∀ slice ∈ recordSlicesLoop fuel packet, S slice) (known : K → e.FlightKnown)
    (admitted : ∀ r ∈ parsed, Admitted S e r) :
    Post (parseRecordsLoop fuel packet parsed) e
      (fun result e' => Sends S K e e' ∧ ∀ r ∈ result, Admitted S e' r)
      (fun _ e' => Sends S K e e') := by
  induction fuel generalizing e packet parsed with
  | zero => exact ⟨Std.Refl.refl e, admitted⟩
  | succ fuel inductionHypothesis =>
      unfold parseRecordsLoop
      rw [post_ite]
      refine ⟨fun _ => ⟨Std.Refl.refl e, admitted⟩, fun _ => ?_⟩
      split
      · exact Sends.refl
      · exact ⟨Std.Refl.refl e, admitted⟩
      · rename_i notEmpty _ stop isEnd
        rw [post_ite]
        refine ⟨fun _ => Sends.refl, fun fits => ?_⟩
        have isCut : recordSlicesLoop (fuel + 1) packet =
            packet.take stop :: recordSlicesLoop fuel (packet.drop stop) := by
          simp [recordSlicesLoop, notEmpty, isEnd, fits]
        rw [isCut] at slices
        rw [post_bind]
        refine (parseRecord_post (K := K) (slices _ List.mem_cons_self)).mono ?_
          fun _ _ same => same ▸ Sends.refl
        rintro result e₁ ⟨sends, fresh⟩
        obtain ⟨steps, known₁⟩ := sends.1 known
        have kept : ∀ r ∈ parsed, Admitted S e₁ r :=
          fun r member => (admitted r member).of_steps steps
        have slicesRest : ∀ slice ∈ recordSlicesLoop fuel (packet.drop stop), S slice :=
          fun slice member => slices slice (List.mem_cons_of_mem _ member)
        cases result with
        | none =>
            refine (inductionHypothesis slicesRest known₁ kept).mono ?_
              fun _ _ more => IsTrans.trans _ _ _ sends more
            exact fun _ _ more => ⟨IsTrans.trans _ _ _ sends more.1, more.2⟩
        | some r =>
            rw [post_ite]
            refine ⟨fun _ => ?_, fun _ => sends⟩
            have all : ∀ r' ∈ parsed ++ [r], Admitted S e₁ r' := by
              intro r' member
              rcases List.mem_append.mp member with old | new
              · exact kept r' old
              · cases List.mem_singleton.mp new
                exact fresh r rfl
            refine (inductionHypothesis slicesRest known₁ all).mono ?_
              fun _ _ more => IsTrans.trans _ _ _ sends more
            exact fun _ _ more => ⟨IsTrans.trans _ _ _ sends more.1, more.2⟩

/-- Acknowledgements mark and clear the flight and forget old send keys. -/
theorem processAck_quiet {ackData : Bytes} : Quiet S K e (e.processAck ackData) := by
  unfold Engine.processAck
  split
  · exact Std.Refl.refl e
  · rename_i acked _
    have marked : Quiet S K e (e.markAcked acked) := by
      refine Quiet.of_core rfl fun _ entry' member => .inr (.inr ?_)
      obtain ⟨entry, inFlight, rfl⟩ := List.mem_map.mp member
      refine ⟨entry, inFlight, ?_⟩
      split <;> rfl
    have ended : ∀ e₁ : Engine, Quiet S K e₁ e₁.endHandshakeFlight := by
      intro e₁
      simp only [Engine.endHandshakeFlight]
      split
      · exact Quiet.of_core rfl (by simp)
      · exact Std.Refl.refl e₁
    have forgotten : ∀ e₁ : Engine, Quiet S K e₁ e₁.endKeyUpdate := by
      intro e₁
      unfold Engine.endKeyUpdate
      split
      · intro _
        have first : Steps S K e₁ { e₁ with prevAppSendKeys := none } := .single .forgotten
        exact ⟨first.tail (.other rfl), by simp [Engine.FlightKnown]⟩
      · exact Std.Refl.refl e₁
    exact IsTrans.trans _ _ _ marked (IsTrans.trans _ _ _ (ended _) (forgotten _))

theorem classifyRecord_post {r : Record} :
    Post (classifyRecord r) e (fun kept e' => Quiet S K e e' ∧ (kept = none ∨ kept = some r))
      (fun _ e' => e' = e) := by
  unfold classifyRecord
  rw [post_bind, post_get]
  dsimp only
  simp only [post_ite]
  refine ⟨fun _ => ⟨Std.Refl.refl e, .inl rfl⟩, fun _ => ⟨fun _ => ⟨Std.Refl.refl e, .inl rfl⟩,
    fun _ => ⟨fun _ => ?_, fun _ => ⟨fun _ => ?_, fun _ => ⟨fun _ => ⟨Std.Refl.refl e, .inl rfl⟩,
      fun _ => ⟨Std.Refl.refl e, .inr rfl⟩⟩⟩⟩⟩⟩
  · rw [post_bind, post_set]
    exact ⟨processAck_quiet, .inl rfl⟩
  · split
    · exact ⟨Std.Refl.refl e, .inl rfl⟩
    · simp only [post_ite]
      refine ⟨fun _ => ?_, fun _ => ⟨fun _ => ⟨Std.Refl.refl e, .inl rfl⟩, fun _ => rfl⟩⟩
      rw [post_bind, post_set]
      exact ⟨Quiet.of_same rfl rfl, .inl rfl⟩

theorem classifyRecords_post {records : List Record} :
    Post (classifyRecords records) e (fun kept e' => Quiet S K e e' ∧ kept ⊆ records)
      (fun _ e' => Quiet S K e e') := by
  induction records generalizing e with
  | nil => exact ⟨Std.Refl.refl e, List.Subset.refl _⟩
  | cons r rest inductionHypothesis =>
      unfold classifyRecords
      rw [post_bind]
      refine (classifyRecord_post (S := S) (K := K)).mono ?_ fun _ _ same => same ▸ Quiet.refl
      rintro kept e₁ ⟨quiet, isKept⟩
      rw [post_bind]
      refine inductionHypothesis.mono ?_ fun _ _ more => IsTrans.trans _ _ _ quiet more
      rintro others e₂ ⟨more, subset⟩
      refine ⟨IsTrans.trans _ _ _ quiet more, ?_⟩
      rcases isKept with rfl | rfl
      · exact List.Subset.trans subset (List.subset_cons_self r rest)
      · exact List.cons_subset_cons r subset

/-- `Records::parse`: what is left of a datagram is admitted. -/
theorem parseRecords_post {packet : Bytes} (slices : ∀ slice ∈ recordSlices packet, S slice)
    (known : K → e.FlightKnown) :
    Post (parseRecords packet) e
      (fun result e' => Quiet S K e e' ∧ ∀ r ∈ result, Admitted S e' r)
      (fun _ e' => Quiet S K e e') := by
  unfold parseRecords
  rw [post_bind]
  refine (parseRecordsLoop_post slices known (by simp)).mono ?_ fun _ _ sends => sends.1
  rintro parsed e₁ ⟨sends, admitted⟩
  obtain ⟨_, known₁⟩ := sends.1 known
  refine classifyRecords_post.mono ?_ fun _ _ more => IsTrans.trans _ _ _ sends.1 more
  rintro kept e₂ ⟨quiet, subset⟩
  refine ⟨IsTrans.trans _ _ _ sends.1 quiet, fun r member => ?_⟩
  exact (admitted r (subset member)).of_steps (quiet known₁).1

/-- A receive queue whose records were there or are admitted is a step away. -/
theorem Quiet.of_queue {queueRx : List Incoming}
    (sources : ∀ r ∈ queueRx.flatMap Incoming.records,
      (∃ r₀ ∈ e.rxRecords, r₀.content = r.content) ∨ Admitted S e r) :
    Quiet S K e { e with queueRx } :=
  Quiet.of_steps (.single (.queue sources)) rfl rfl rfl rfl

/-- Inserting or replacing a datagram of admitted records. -/
theorem Quiet.of_incoming {queueRx : List Incoming} {incoming : Incoming}
    (members : ∀ item ∈ queueRx, item ∈ e.queueRx ∨ item = incoming)
    (admitted : ∀ r ∈ incoming.records, Admitted S e r) :
    Quiet S K e { e with queueRx } := by
  refine Quiet.of_queue fun r member => ?_
  obtain ⟨item, inQueue, inItem⟩ := List.mem_flatMap.mp member
  rcases members item inQueue with old | rfl
  · exact .inl ⟨r, List.mem_flatMap.mpr ⟨item, old, inItem⟩, rfl⟩
  · exact .inr (admitted r inItem)

theorem insertIncomingHandshake_quiet {incoming : Incoming} {handshake : Fragment}
    (known : K → e.FlightKnown) (admitted : ∀ r ∈ incoming.records, Admitted S e r) :
    Post (insertIncomingHandshake incoming handshake) e (fun _ e' => Quiet S K e e')
      (fun _ e' => Quiet S K e e') := by
  unfold insertIncomingHandshake
  rw [post_bind, post_get, post_bind]
  refine (along_runIf (fun _ => flightResend_quiet) e).mono ?_ fun _ _ quiet => quiet
  intro _ e₁ quiet
  have stillAdmitted : ∀ r ∈ incoming.records, Admitted S e₁ r :=
    fun r member => (admitted r member).of_steps (quiet known).1
  rw [post_bind, post_get]
  simp only [post_ite]
  refine ⟨fun _ => quiet, fun _ => ⟨fun _ => quiet, fun _ => ?_⟩⟩
  -- The tracked record numbers are no part of the core.
  have tracked : ∀ queueRx numbers, (∀ item ∈ queueRx, item ∈ e₁.queueRx ∨ item = incoming) →
      Quiet S K e { e₁ with receivedRecordNumbers := numbers, queueRx } := by
    intro queueRx numbers members
    refine IsTrans.trans _ _ _ quiet (IsTrans.trans _ _ _
      (Quiet.of_incoming members stillAdmitted) ?_)
    exact Quiet.of_same rfl rfl
  split
  · exact tracked _ _ fun item member => (List.eq_or_mem_of_mem_insertIdx member).symm
  · rw [post_ite]
    refine ⟨fun _ => ?_, fun _ => quiet⟩
    exact tracked _ _ fun item member => List.mem_or_eq_of_mem_set member

theorem insertIncomingNonHandshake_quiet {incoming : Incoming}
    (admitted : ∀ r ∈ incoming.records, Admitted S e r) :
    Post (insertIncomingNonHandshake incoming) e (fun _ e' => Quiet S K e e')
      (fun _ e' => Quiet S K e e') := by
  unfold insertIncomingNonHandshake
  rw [post_bind, post_get]
  split
  · exact Quiet.of_incoming
      (fun item member => (List.eq_or_mem_of_mem_insertIdx member).symm) admitted
  · exact Quiet.refl

theorem insertIncoming_quiet {incoming : Incoming} (known : K → e.FlightKnown)
    (admitted : ∀ r ∈ incoming.records, Admitted S e r) :
    Post (insertIncoming incoming) e (fun _ e' => Quiet S K e e') (fun _ e' => Quiet S K e e') := by
  unfold insertIncoming
  rw [post_bind, post_get, post_ite]
  refine ⟨fun _ => Quiet.refl, fun _ => ?_⟩
  split
  · exact insertIncomingHandshake_quiet known admitted
  · exact insertIncomingNonHandshake_quiet admitted

/-- `parse_packet` takes steps on slices of the datagram. -/
theorem parsePacket_quiet {packet : Bytes} (slices : ∀ slice ∈ recordSlices packet, S slice) :
    Along (Quiet S K) (parsePacket packet) := by
  refine fun e => post_quiet fun known => ?_
  unfold parsePacket
  rw [post_bind]
  refine (parseRecords_post slices known).mono ?_ fun _ _ quiet => quiet
  rintro records e₁ ⟨quiet, admitted⟩
  cases records with
  | nil => exact quiet
  | cons first rest =>
      have insert : Post (insertIncoming ⟨first, rest⟩) e₁ (fun _ e' => Quiet S K e₁ e')
          (fun _ e' => Quiet S K e₁ e') :=
        insertIncoming_quiet (quiet known).2 admitted
      exact insert.mono (fun _ _ more => IsTrans.trans _ _ _ quiet more)
        fun _ _ more => IsTrans.trans _ _ _ quiet more

theorem reparse_quiet {buffers : List Bytes}
    (slices : ∀ buffer ∈ buffers, ∀ slice ∈ recordSlices buffer, S slice) :
    Along (Quiet S K) (reparse buffers) := by
  induction buffers with
  | nil => exact along_pure
  | cons buffer rest inductionHypothesis =>
      refine along_bind (parsePacket_quiet (slices buffer List.mem_cons_self)) fun _ => ?_
      exact inductionHypothesis fun other member => slices other (List.mem_cons_of_mem _ member)

end Receiving

end Dimpl.Dtls13
