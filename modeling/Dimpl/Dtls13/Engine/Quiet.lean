import Dimpl.Dtls13.Engine.Step

/-!
# Engine functions are sequences of steps

One lemma for each function of the engine. The functions that install, rotate,
release or enable are not here: they are described where they are used.
-/

namespace Dimpl.Dtls13

open Nom Program

section Reading

theorem suiteProvider_readOnly : ReadOnly suiteProvider :=
  along_bind along_get fun _ => along_orThrow

theorem hashAlgorithm_readOnly : ReadOnly hashAlgorithm :=
  along_bind along_get fun _ => along_bind along_orThrow fun _ => along_pure

theorem hashLen_readOnly : ReadOnly hashLen :=
  along_bind hashAlgorithm_readOnly fun _ => along_pure

theorem expandLabel_readOnly {secret context : Bytes} {label : String} {outputLen : Nat} :
    ReadOnly (expandLabel secret label context outputLen) :=
  along_bind hashAlgorithm_readOnly fun _ => along_bind along_get fun _ => along_liftCrypto

theorem extract_readOnly {salt ikm : Bytes} : ReadOnly (extract salt ikm) :=
  along_bind hashAlgorithm_readOnly fun _ => along_bind along_get fun _ => along_liftCrypto

theorem transcriptHashOf_readOnly {data : Bytes} : ReadOnly (transcriptHashOf data) :=
  along_bind hashAlgorithm_readOnly fun _ => along_bind along_get fun _ => along_pure

theorem transcriptHash_readOnly : ReadOnly transcriptHash :=
  along_bind along_get fun _ => transcriptHashOf_readOnly

theorem zeros_readOnly : ReadOnly zeros :=
  along_bind hashAlgorithm_readOnly fun _ => along_ite (fun _ => along_pure) fun _ => along_throw

end Reading

/-- A record of a known epoch on the current keys has the current epoch. -/
theorem Engine.EpochKnown.current {e : Engine} {epoch : Nat} (known : e.EpochKnown epoch)
    (slot : e.sendSlot epoch = .current) : epoch = e.appSendEpoch := by
  unfold Engine.sendSlot at slot
  split at slot
  · cases slot
  · rename_i notHandshake
    split at slot
    · cases slot
    · rename_i notPrevious
      rcases known with handshake | current | ⟨isSome, previous⟩
      · exact absurd handshake notHandshake
      · exact current
      · simp [isSome, previous] at notPrevious

/-- Quiet steps that leave the epochs to send in as they are. -/
def Sends (S : Bytes → Prop) (K : Prop) (e e' : Engine) : Prop :=
  Quiet S K e e' ∧ e'.appSendEpoch = e.appSendEpoch ∧ e'.prevAppSendKeys = e.prevAppSendKeys ∧
    e'.prevAppSendEpoch = e.prevAppSendEpoch

section Sending

variable {S : Bytes → Prop} {K : Prop} {e e' : Engine}

instance : Std.Refl (Sends S K) := ⟨fun _ => ⟨Std.Refl.refl _, rfl, rfl, rfl⟩⟩

instance : IsTrans Engine (Sends S K) :=
  ⟨fun _ _ _ first second =>
    ⟨IsTrans.trans _ _ _ first.1 second.1, second.2.1.trans first.2.1,
      second.2.2.1.trans first.2.2.1, second.2.2.2.trans first.2.2.2⟩⟩

theorem Sends.refl : Sends S K e e := Std.Refl.refl e

theorem Sends.epochKnown {epoch : Nat} (sends : Sends S K e e') (known : e.EpochKnown epoch) :
    e'.EpochKnown epoch := by
  obtain ⟨_, current, keys, previous⟩ := sends
  simpa [Engine.EpochKnown, current, keys, previous] using known

/-- A quiet change that leaves the core alone sends nothing. -/
theorem Quiet.sends_of_core (quiet : Quiet S K e e') (same : e'.core = e.core) : Sends S K e e' :=
  ⟨quiet, congrArg Core.appSendEpoch same, congrArg Core.prevAppSendKeys same,
    congrArg Core.prevAppSendEpoch same⟩

theorem saveEntry_post {entry : Entry} :
    Post (saveEntry entry) e
      (fun _ e' => e' = { e with flightSavedRecords := e.flightSavedRecords ++ [entry] })
      (fun _ e' => e' = e) := by
  simp [saveEntry, post_ite]

/-- A change outside the core and the flight sends nothing. -/
theorem Sends.of_same (same : e'.core = e.core)
    (flight : e'.flightSavedRecords = e.flightSavedRecords) : Sends S K e e' :=
  (Quiet.of_same same flight).sends_of_core same

/-- Saving a record of a known epoch is quiet and changes only the flight. -/
theorem Sends.of_saved {entry : Entry} (known : K → entry.epoch = 0 ∨ e.EpochKnown entry.epoch) :
    Sends S K e { e with flightSavedRecords := e.flightSavedRecords ++ [entry] } := by
  refine Quiet.sends_of_core (Quiet.of_core rfl fun k entry' member => ?_) rfl
  rcases List.mem_append.mp member with old | new
  · exact .inr (.inr ⟨entry', old, rfl⟩)
  · cases List.mem_singleton.mp new
    exact (known k).imp id .inl

theorem checkQueueTx_readOnly {append : Bool} : ReadOnly (checkQueueTx append) :=
  along_bind along_get fun _ => along_ite (fun _ => along_throw) fun _ => along_pure

@[simp] theorem Engine.enqueueRecord_core {append : Bool} {bytes : Bytes} :
    (e.enqueueRecord append bytes).core = e.core := by
  unfold Engine.enqueueRecord
  split <;> rfl

@[simp] theorem Engine.enqueueRecord_flight {append : Bool} {bytes : Bytes} :
    (e.enqueueRecord append bytes).flightSavedRecords = e.flightSavedRecords := by
  unfold Engine.enqueueRecord
  split <;> rfl

theorem createPlaintextRecord_sends {contentType : ContentType} {saveFragment : Bool}
    {fragment : Bytes} : Along (Sends S K) (createPlaintextRecord contentType saveFragment fragment) := by
  refine along_get_bind fun e => ?_
  rw [post_bind]
  -- The record may be saved first; from there on only the transmit queue moves.
  have saved : Post (runIf saveFragment (saveEntry ⟨contentType, 0, e.sequenceEpoch0, fragment, false⟩))
      e (fun _ e' => Sends S K e e') (fun _ e' => Sends S K e e') := by
    rw [post_runIf]
    refine ⟨fun _ => saveEntry_post.mono ?_ ?_, fun _ => Std.Refl.refl e⟩
    · rintro _ _ rfl
      exact Sends.of_saved fun _ => .inl rfl
    · rintro _ _ rfl
      exact Std.Refl.refl _
  refine saved.mono (fun _ e₁ moved => ?_) fun _ _ moved => moved
  refine Along.after (along_bind checkQueueTx_readOnly.along fun _ => ?_) moved
  refine along_ite (fun _ => along_throw) fun _ => along_modify fun e₂ => ?_
  have same : ({ e₂.enqueueRecord (e.canAppend (Dtls13Record.plaintextHeaderLen + fragment.length))
      (Dtls13Record.serialize contentType ⟨0, e.sequenceEpoch0⟩ fragment) with
      sequenceEpoch0 := e₂.sequenceEpoch0 + 1 } : Engine).core = e₂.core :=
    Engine.enqueueRecord_core
  exact Sends.of_same same (by simp)


/-- Counting a record touches neither the flight nor the epochs. -/
theorem Engine.bumpSlot_frame (e : Engine) (epoch : Nat) (slot : SendSlot) :
    (e.bumpSlot epoch slot).flightSavedRecords = e.flightSavedRecords ∧
      (e.bumpSlot epoch slot).appSendEpoch = e.appSendEpoch ∧
      (e.bumpSlot epoch slot).prevAppSendKeys = e.prevAppSendKeys ∧
      (e.bumpSlot epoch slot).prevAppSendEpoch = e.prevAppSendEpoch := by
  cases slot with
  | handshake => exact ⟨rfl, rfl, rfl, rfl⟩
  | previous => exact ⟨rfl, rfl, rfl, rfl⟩
  | current => exact ⟨rfl, rfl, rfl, rfl⟩

/-- Placing a protected record of a known epoch in the queue is sending. -/
theorem Sends.of_sealed {epoch : Nat} {keys : EpochKeys} {append : Bool} {bytes : Bytes}
    (known : K → e.EpochKnown epoch) (available : e.slotKeys (e.sendSlot epoch) = some keys)
    (room : e.slotSeq (e.sendSlot epoch) < maxSequenceNumber) :
    Sends S K e (((e.bumpSlot epoch (e.sendSlot epoch)).enqueueRecord append bytes).logEvent
      (.sealed keys.id ⟨epoch, e.slotSeq (e.sendSlot epoch)⟩)) := by
  obtain ⟨flight, current, previousKeys, previousEpoch⟩ :=
    e.bumpSlot_frame epoch (e.sendSlot epoch)
  have sealed : Quiet S K e ((e.bumpSlot epoch (e.sendSlot epoch)).logEvent
      (.sealed keys.id ⟨epoch, e.slotSeq (e.sendSlot epoch)⟩)) :=
    Quiet.of_steps (.single (.sealed available room fun k => (known k).current)) flight current previousKeys
      previousEpoch
  have queued : ∀ (e₁ : Engine) (event : Event), Sends S K (e₁.logEvent event)
      ((e₁.enqueueRecord append bytes).logEvent event) := by
    intro e₁ event
    unfold Engine.enqueueRecord
    split
    · exact Sends.of_same (by rfl) (by rfl)
    · exact Sends.of_same (by rfl) (by rfl)
  exact IsTrans.trans _ _ _ ⟨sealed, current, previousKeys, previousEpoch⟩ (queued _ _)

theorem createCiphertextRecord_sends {contentType : ContentType} {epoch : Nat}
    {saveFragment : Bool} {fragment : Bytes} (known : K → e.EpochKnown epoch) :
    Post (createCiphertextRecord contentType epoch saveFragment fragment) e
      (fun _ e' => Sends S K e e') (fun _ e' => Sends S K e e') := by
  unfold createCiphertextRecord
  rw [post_bind, post_get, post_bind]
  -- Saving the record changes the flight only, so slot, number and keys are still those of `e`.
  have saved : Post (runIf saveFragment (saveEntry
      ⟨contentType, epoch, e.slotSeq (e.sendSlot epoch), fragment, false⟩)) e
      (fun _ e' => Sends S K e e' ∧ ∃ flight, e' = { e with flightSavedRecords := flight })
      (fun _ e' => Sends S K e e') := by
    rw [post_runIf]
    refine ⟨fun _ => saveEntry_post.mono ?_ ?_, fun _ => ⟨Std.Refl.refl e, _, rfl⟩⟩
    · rintro _ _ rfl
      exact ⟨Sends.of_saved fun k => .inr (known k), _, rfl⟩
    · rintro _ _ rfl
      exact Std.Refl.refl _
  refine saved.mono ?_ fun _ _ moved => moved
  rintro _ _ ⟨moved, flight, rfl⟩
  rw [post_bind]
  refine (suiteProvider_readOnly _).mono ?_ fun _ _ same => same ▸ moved
  rintro suite _ rfl
  rw [post_bind, post_orThrow]
  refine ⟨fun keys available => ?_, fun _ => moved⟩
  rw [post_bind, post_liftCrypto]
  refine ⟨fun ciphertext _ => ?_, fun _ _ => moved⟩
  rw [post_bind]
  refine (checkQueueTx_readOnly _).mono ?_ fun _ _ same => same ▸ moved
  rintro _ _ rfl
  rw [post_ite]
  refine ⟨fun _ => moved, fun room => ?_⟩
  rw [post_modify]
  refine IsTrans.trans _ _ _ moved ?_
  exact Sends.of_sealed (e := { e with flightSavedRecords := flight }) known available
    (Nat.lt_of_not_le room)

theorem createRecord_sends {contentType : ContentType} {epoch : Nat} {saveFragment : Bool}
    {fragment : Bytes} (known : K → epoch = 0 ∨ e.EpochKnown epoch) :
    Post (createRecord contentType epoch saveFragment fragment) e
      (fun _ e' => Sends S K e e') (fun _ e' => Sends S K e e') := by
  unfold createRecord
  rw [post_ite]
  refine ⟨fun _ => createPlaintextRecord_sends e, fun nonzero => ?_⟩
  exact createCiphertextRecord_sends fun k => (known k).resolve_left nonzero

theorem resendEntry_post {entry : Entry} (known : K → entry.epoch = 0 ∨ e.EpochKnown entry.epoch) :
    Post (resendEntry entry) e (fun entry' e' => Sends S K e e' ∧ entry'.epoch = entry.epoch)
      (fun _ e' => Sends S K e e') := by
  unfold resendEntry
  rw [post_bind, post_get, post_ite]
  refine ⟨fun _ => ⟨Std.Refl.refl e, rfl⟩, fun _ => ?_⟩
  rw [post_bind]
  exact (createRecord_sends known).mono (fun _ _ sends => ⟨sends, rfl⟩) fun _ _ sends => sends

/-- A retransmission sends the saved records, whose epochs stay known. -/
theorem resendEntries_post {entries : List Entry}
    (known : K → ∀ entry ∈ entries, entry.epoch = 0 ∨ e.EpochKnown entry.epoch) :
    Post (resendEntries entries) e
      (fun entries' e' => Sends S K e e' ∧
        (K → ∀ entry ∈ entries', entry.epoch = 0 ∨ e.EpochKnown entry.epoch))
      (fun _ e' => Sends S K e e') := by
  induction entries generalizing e with
  | nil => exact ⟨Std.Refl.refl e, known⟩
  | cons entry rest inductionHypothesis =>
      unfold resendEntries
      rw [post_bind]
      refine (resendEntry_post fun k => known k entry List.mem_cons_self).mono ?_ fun _ _ sends => sends
      rintro entry' e₁ ⟨sends, sameEpoch⟩
      have knownRest : K → ∀ entry ∈ rest, entry.epoch = 0 ∨ e₁.EpochKnown entry.epoch :=
        fun k other member => (known k other (List.mem_cons_of_mem _ member)).imp id sends.epochKnown
      rw [post_bind]
      refine (inductionHypothesis knownRest).mono ?_ fun _ _ more => IsTrans.trans _ _ _ sends more
      rintro rest' e₂ ⟨more, knownAfter⟩
      refine ⟨IsTrans.trans _ _ _ sends more, fun k other member => ?_⟩
      rcases List.mem_cons.mp member with rfl | inRest
      · exact sameEpoch ▸ known k entry List.mem_cons_self
      · refine (knownAfter k other inRest).imp id fun isKnown => ?_
        simpa [Engine.EpochKnown, sends.2.1, sends.2.2.1, sends.2.2.2] using isKnown

/-- A quiet program may be judged at states with a known flight. -/
theorem post_quiet {α : Type} {x : EngineM α}
    (quiet : (K → e.FlightKnown) → Post x e (fun _ e' => Quiet S K e e') (fun _ e' => Quiet S K e e')) :
    Post x e (fun _ e' => Quiet S K e e') (fun _ e' => Quiet S K e e') := by
  by_cases known : K → e.FlightKnown
  · exact quiet known
  · exact post_state.mpr fun isKnown => absurd isKnown known

theorem flightResend_quiet : Along (Quiet S K) flightResend := by
  refine fun e => post_quiet fun known => ?_
  have emptied : Quiet S K e { e with flightSavedRecords := [], datagramSealed := true } :=
    Quiet.of_core rfl (by simp)
  unfold flightResend
  simp only [post_bind, post_get, post_set]
  refine (resendEntries_post (S := S) (K := K) (e := { e with flightSavedRecords := [], datagramSealed := true })
    known).mono ?_ fun _ _ sends => IsTrans.trans _ _ _ emptied sends.1
  rintro records e₁ ⟨sends, knownRecords⟩
  refine IsTrans.trans _ _ _ emptied (IsTrans.trans _ _ _ sends.1 ?_)
  refine Quiet.of_core rfl fun k entry member => ?_
  exact (knownRecords k entry member).imp id fun isKnown => .inl (sends.epochKnown isKnown)

/-- Handshake fragments are plaintext or of epoch 2. -/
theorem createFragments_quiet {header : Header} {epoch fixedOverhead : Nat} {body : Bytes}
    (handshakeEpoch : epoch = 0 ∨ epoch = 2) {fuel offset : Nat} :
    Along (Quiet S K) (createFragments header epoch fixedOverhead body fuel offset) := by
  induction fuel generalizing offset with
  | zero => exact along_throw
  | succ fuel inductionHypothesis =>
      unfold createFragments
      refine along_ite (fun _ => along_get_bind fun e => ?_) fun _ => along_pure
      rw [post_bind]
      have known : epoch = 0 ∨ e.EpochKnown epoch := handshakeEpoch.imp id .inl
      refine (createRecord_sends fun _ => known).mono (fun _ e₁ sends => ?_) fun _ _ sends => sends.1
      exact (along_runIf fun _ => inductionHypothesis).after sends.1

theorem epochForMessage_cases (type : MessageType) :
    epochForMessage type = 0 ∨ epochForMessage type = 2 := by
  unfold epochForMessage
  split
  · exact .inl rfl
  · exact .inr rfl

theorem createHandshake_quiet {type : MessageType} {writeBody : EngineM Bytes}
    (quiet : Along (Quiet S K) writeBody) : Along (Quiet S K) (createHandshake type writeBody) := by
  refine along_bind quiet fun body => along_get_bind fun e => ?_
  rw [post_bind, post_set]
  refine Along.after (s := e) ?_ (Quiet.of_same rfl rfl)
  refine along_ite (fun _ => createFragments_quiet (epochForMessage_cases type)) fun _ => ?_
  exact along_bind suiteProvider_readOnly.along fun _ =>
    createFragments_quiet (epochForMessage_cases type)

theorem sendAck_quiet : Along (Quiet S K) sendAck := by
  refine along_get_bind fun e => ?_
  rw [post_ite]
  refine ⟨fun _ => along_pure e, fun _ => ?_⟩
  rw [post_bind, post_set]
  have emptied : Quiet S K e { e with receivedRecordNumbers := [] } := Quiet.of_same rfl rfl
  have known : ({ e with receivedRecordNumbers := [] } : Engine).EpochKnown
      (if e.appSendKeys.isSome then e.appSendEpoch else 2) := by
    split
    · exact .inr (.inl rfl)
    · exact .inl rfl
  exact (createCiphertextRecord_sends fun _ => known).mono
    (fun _ _ sends => IsTrans.trans _ _ _ emptied sends.1)
    fun _ _ sends => IsTrans.trans _ _ _ emptied sends.1

end Sending

end Dimpl.Dtls13
