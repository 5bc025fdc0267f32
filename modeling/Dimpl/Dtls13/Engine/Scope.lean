import Dimpl.Dtls13.Engine.Change

/-!
# What each stage of the engine can touch

Sending a record, opening one, acting on a control record and queueing a datagram
each change a few fields. The engine without these fields is what they keep.
-/

namespace Dimpl.Dtls13

open Nom Program

/-- A receive entry without its replay state. -/
def RecvEpochEntry.keyed (entry : RecvEpochEntry) : RecvEpochEntry :=
  RecvEpochEntry.fresh entry.epoch entry.keys

/-- What a retransmission keeps of a saved record: all but its number. -/
def Entry.kept (entry : Entry) : Entry := { entry with sendSeq := 0 }

namespace Engine

/-- The engine without what sending a record changes. -/
def unsent (e : Engine) : Engine :=
  { e with
    queueTx := []
    datagramSealed := false
    sequenceEpoch0 := 0
    hsSendSeq := 0
    prevAppSendSeq := 0
    appSendSeq := 0
    appSendRecordCount := 0
    needsKeyUpdate := false
    log := [] }

/-- The engine without what sending messages and acknowledgements changes, the saved flight
included. -/
def unspoken (e : Engine) : Engine :=
  { e.unsent with
    flightSavedRecords := []
    receivedRecordNumbers := []
    handshakeAckDeadline := none }

/-- The engine without what a timeout changes. -/
def untimed (e : Engine) : Engine :=
  { e.unspoken with
    rng := ⟨fun _ => 0, 0⟩
    flightBackoff := ⟨0, 0, 0, 0, 0⟩
    flightTimeout := .disabled
    connectTimeout := .disabled }

/-- The engine without what sending whole messages and KeyUpdates changes. -/
def unuttered (e : Engine) : Engine :=
  { e.untimed with
    transcript := []
    nextHandshakeSeqNo := 0
    installations := 0
    appSendKeys := none
    appSendEpoch := 0
    prevAppSendKeys := none
    prevAppSendEpoch := 0
    aeadEncryptionThreshold := 0 }

/-- The engine without what installing application keys and following a KeyUpdate changes. -/
def unequipped (e : Engine) : Engine :=
  { e with
    installations := 0
    appSendKeys := none
    appSendEpoch := 0
    appSendSeq := 0
    appRecvKeys := [] }

/-- The engine without what deriving, installing and rotating keys changes. -/
def unkeyed (e : Engine) : Engine :=
  { e with
    rng := ⟨fun _ => 0, 0⟩
    installations := 0
    hsSendKeys := none
    hsRecvKeys := none
    hsSendSeq := 0
    appSendKeys := none
    appSendEpoch := 0
    appSendSeq := 0
    prevAppSendKeys := none
    prevAppSendEpoch := 0
    prevAppSendSeq := 0
    appRecvKeys := []
    appSendRecordCount := 0
    aeadEncryptionThreshold := 0
    needsKeyUpdate := false }

/-- The engine without what opening a record changes. -/
def unopened (e : Engine) : Engine :=
  { e with
    appRecvKeys := e.appRecvKeys.map RecvEpochEntry.keyed
    hsReplay := .new
    hsExpectedRecvSeq := 0
    log := [] }

/-- The engine without what acknowledgements and alerts change. -/
def unclassified (e : Engine) : Engine :=
  { e with
    flightSavedRecords := []
    flightTimeout := .disabled
    prevAppSendKeys := none
    closeNotifySequence := none }

/-- The engine without what reading messages and application data changes. -/
def unread (e : Engine) : Engine := { e with queueRx := [], transcript := [], log := [] }

/-- The engine without what queueing a datagram changes. -/
def unqueued (e : Engine) : Engine := { e.unspoken with queueRx := [] }

/-- The engine without what a poll changes. -/
def unpolled (e : Engine) : Engine := { e.unspoken.unread with closeNotifyReported := false }

/-- The engine without what a datagram changes. -/
def unreceived (e : Engine) : Engine :=
  { e.unspoken.unread.unclassified with
    appRecvKeys := e.appRecvKeys.map RecvEpochEntry.keyed
    hsReplay := .new
    hsExpectedRecvSeq := 0 }

end Engine

section Sending

variable {e e' : Engine}

theorem Engine.bumpSlot_unsent {epoch : Nat} {slot : SendSlot} :
    (e.bumpSlot epoch slot).unsent = e.unsent := by
  cases slot <;> rfl

theorem Engine.enqueueRecord_unsent {append : Bool} {bytes : Bytes} :
    (e.enqueueRecord append bytes).unsent = e.unsent := by
  unfold Engine.enqueueRecord
  split <;> rfl

theorem Engine.logEvent_unsent {event : Event} : (e.logEvent event).unsent = e.unsent := rfl

/-- A saved record is the only other thing that a record leaves behind. -/
theorem createCiphertextRecord_unsent {contentType : ContentType} {epoch : Nat}
    {saveFragment : Bool} {fragment : Bytes} :
    Post (createCiphertextRecord contentType epoch saveFragment fragment) e
      (fun _ e' => e'.unsent = Engine.unsent { e with flightSavedRecords := e.flightSavedRecords ++
        if saveFragment then
          [⟨contentType, epoch, e.slotSeq (e.sendSlot epoch), fragment, false⟩] else [] })
      (fun _ e' => saveFragment = false → e'.unsent = e.unsent) := by
  unfold createCiphertextRecord
  rw [post_bind, post_get, post_bind]
  have saved : Post (runIf saveFragment (saveEntry
      ⟨contentType, epoch, e.slotSeq (e.sendSlot epoch), fragment, false⟩)) e
      (fun _ e' => e' = { e with flightSavedRecords := e.flightSavedRecords ++
        if saveFragment then
          [⟨contentType, epoch, e.slotSeq (e.sendSlot epoch), fragment, false⟩] else [] })
      (fun _ _ => saveFragment = true) := by
    rw [post_runIf]
    refine ⟨fun saves => saveEntry_post.mono ?_ fun _ _ _ => saves, fun free => by simp [free]⟩
    rintro _ _ rfl
    simp [saves]
  refine saved.mono ?_ fun _ _ saves free => by simp [free] at saves
  rintro _ e₁ isSaved
  -- From here on an error leaves what was saved, which is nothing when nothing is saved.
  have failed : saveFragment = false → e₁.unsent = e.unsent := by
    intro free
    simp [isSaved, free]
  rw [← isSaved, post_bind]
  refine (suiteProvider_readOnly e₁).mono ?_ fun _ _ same => same ▸ failed
  rintro suite _ rfl
  rw [post_bind, post_orThrow]
  refine ⟨fun keys _ => ?_, fun _ => failed⟩
  rw [post_bind, post_liftCrypto]
  refine ⟨fun ciphertext _ => ?_, fun _ _ => failed⟩
  rw [post_bind]
  refine (checkQueueTx_readOnly e₁).mono ?_ fun _ _ same => same ▸ failed
  rintro _ _ rfl
  rw [post_ite]
  refine ⟨fun _ => failed, fun _ => ?_⟩
  rw [post_modify, Engine.logEvent_unsent, Engine.enqueueRecord_unsent, Engine.bumpSlot_unsent]

theorem createPlaintextRecord_unsent {contentType : ContentType} {fragment : Bytes} :
    Along (Keeps Engine.unsent) (createPlaintextRecord contentType false fragment) := by
  refine along_bind along_get fun e => along_bind along_pure fun _ => ?_
  refine along_bind checkQueueTx_readOnly.along fun _ => ?_
  refine along_ite (fun _ => along_throw) fun _ => along_modify fun e₁ => ?_
  have queued : ∀ append bytes, Keeps Engine.unsent e₁ (e₁.enqueueRecord append bytes) :=
    fun _ _ => Engine.enqueueRecord_unsent
  exact IsTrans.trans _ _ _ (queued _ _) (rfl : Engine.unsent _ = Engine.unsent _)

/-- A record that is not saved. -/
theorem createUnsaved_unsent {contentType : ContentType} {epoch : Nat} {fragment : Bytes} :
    Along (Keeps Engine.unsent) (createCiphertextRecord contentType epoch false fragment) := by
  intro e
  refine createCiphertextRecord_unsent.mono (fun _ e' kept => ?_) fun _ e' kept => kept rfl
  simpa [Keeps] using kept

theorem createRecord_unsent {contentType : ContentType} {epoch : Nat} {fragment : Bytes} :
    Along (Keeps Engine.unsent) (createRecord contentType epoch false fragment) :=
  along_ite (fun _ => createPlaintextRecord_unsent) fun _ => createUnsaved_unsent

theorem resendEntry_unsent {entry : Entry} :
    Post (resendEntry entry) e
      (fun entry' e' => e'.unsent = e.unsent ∧ entry'.kept = entry.kept)
      (fun _ e' => e'.unsent = e.unsent) := by
  unfold resendEntry
  rw [post_bind, post_get, post_ite]
  refine ⟨fun _ => ⟨rfl, rfl⟩, fun _ => ?_⟩
  rw [post_bind]
  exact (createRecord_unsent e).mono (fun _ _ kept => ⟨kept, rfl⟩) fun _ _ kept => kept

theorem resendEntries_unsent {entries : List Entry} :
    Post (resendEntries entries) e
      (fun entries' e' => e'.unsent = e.unsent ∧
        entries'.map Entry.kept = entries.map Entry.kept)
      (fun _ e' => e'.unsent = e.unsent) := by
  induction entries generalizing e with
  | nil => exact ⟨rfl, rfl⟩
  | cons entry rest inductionHypothesis =>
      unfold resendEntries
      rw [post_bind]
      refine resendEntry_unsent.mono ?_ fun _ _ kept => kept
      rintro entry' e₁ ⟨kept, isEntry⟩
      rw [post_bind]
      refine inductionHypothesis.mono ?_ fun _ _ more => more.trans kept
      rintro rest' e₂ ⟨more, isRest⟩
      exact ⟨more.trans kept, by simp [isEntry, isRest]⟩

/-- A retransmission that succeeds keeps the saved records but for their numbers. -/
theorem flightResend_unsent :
    Post flightResend e
      (fun _ e' => ∃ records, records.map Entry.kept = e.flightSavedRecords.map Entry.kept ∧
        e'.unsent = Engine.unsent { e with flightSavedRecords := records })
      (fun _ e' => e'.unsent = Engine.unsent { e with flightSavedRecords := [] }) := by
  unfold flightResend
  rw [post_bind, post_get, post_bind, post_set, post_bind]
  refine resendEntries_unsent.mono ?_ fun _ _ kept => kept
  rintro records e₁ ⟨kept, same⟩
  rw [post_modify]
  refine ⟨records, same, ?_⟩
  have put : Engine.unsent { e₁ with flightSavedRecords := records } =
      { e₁.unsent with flightSavedRecords := records } := rfl
  rw [put, kept]
  rfl

theorem saveEntry_unspoken {entry : Entry} : Along (Keeps Engine.unspoken) (saveEntry entry) := by
  intro e
  refine saveEntry_post.mono ?_ ?_
  · rintro _ _ rfl
    rfl
  · rintro _ _ rfl
    rfl

theorem Engine.enqueueRecord_unspoken {append : Bool} {bytes : Bytes} :
    (e.enqueueRecord append bytes).unspoken = e.unspoken := by
  unfold Engine.enqueueRecord
  split <;> rfl

theorem Engine.bumpSlot_unspoken {epoch : Nat} {slot : SendSlot} :
    (e.bumpSlot epoch slot).unspoken = e.unspoken := by
  cases slot <;> rfl

theorem createPlaintextRecord_unspoken {contentType : ContentType} {saveFragment : Bool}
    {fragment : Bytes} :
    Along (Keeps Engine.unspoken) (createPlaintextRecord contentType saveFragment fragment) := by
  refine along_bind along_get fun e => ?_
  refine along_bind (along_runIf fun _ => saveEntry_unspoken) fun _ => ?_
  refine along_bind checkQueueTx_readOnly.along fun _ => ?_
  exact along_ite (fun _ => along_throw) fun _ => along_modify fun e₁ => Engine.enqueueRecord_unspoken

theorem createCiphertextRecord_unspoken {contentType : ContentType} {epoch : Nat}
    {saveFragment : Bool} {fragment : Bytes} :
    Along (Keeps Engine.unspoken)
      (createCiphertextRecord contentType epoch saveFragment fragment) := by
  refine along_bind along_get fun e => ?_
  refine along_bind (along_runIf fun _ => saveEntry_unspoken) fun _ => ?_
  refine along_bind suiteProvider_readOnly.along fun _ => along_bind along_orThrow fun _ => ?_
  refine along_bind along_liftCrypto fun _ => along_bind checkQueueTx_readOnly.along fun _ => ?_
  refine along_ite (fun _ => along_throw) fun _ => along_modify fun e₁ => ?_
  exact Engine.enqueueRecord_unspoken.trans Engine.bumpSlot_unspoken

theorem createRecord_unspoken {contentType : ContentType} {epoch : Nat} {saveFragment : Bool}
    {fragment : Bytes} :
    Along (Keeps Engine.unspoken) (createRecord contentType epoch saveFragment fragment) :=
  along_ite (fun _ => createPlaintextRecord_unspoken) fun _ => createCiphertextRecord_unspoken

theorem resendEntries_unspoken {entries : List Entry} :
    Along (Keeps Engine.unspoken) (resendEntries entries) := by
  induction entries with
  | nil => exact along_pure
  | cons entry rest inductionHypothesis =>
      refine along_bind ?_ fun _ => along_bind inductionHypothesis fun _ => along_pure
      refine along_bind along_get fun e => along_ite (fun _ => along_pure) fun _ => ?_
      exact along_bind createRecord_unspoken fun _ => along_pure

theorem flightResend_unspoken : Along (Keeps Engine.unspoken) flightResend := by
  refine along_get_bind fun e => ?_
  rw [post_bind, post_set]
  refine Along.after (s := e) ?_ rfl
  exact along_bind resendEntries_unspoken fun _ => along_modify fun _ => rfl

theorem createFragments_unspoken {header : Header} {epoch fixedOverhead : Nat} {body : Bytes}
    {fuel offset : Nat} : Along (Keeps Engine.unspoken)
      (createFragments header epoch fixedOverhead body fuel offset) := by
  induction fuel generalizing offset with
  | zero => exact along_throw
  | succ fuel inductionHypothesis =>
      refine along_ite (fun _ => along_bind along_get fun e => ?_) fun _ => along_pure
      exact along_bind createRecord_unspoken fun _ => along_runIf fun _ => inductionHypothesis

theorem sendAck_unspoken : Along (Keeps Engine.unspoken) sendAck := by
  refine along_get_bind fun e => ?_
  rw [post_ite]
  refine ⟨fun _ => along_pure e, fun _ => ?_⟩
  rw [post_bind, post_set]
  exact createCiphertextRecord_unspoken.after rfl

theorem Engine.maybeScheduleHandshakeAck_unspoken {now : Instant} :
    (e.maybeScheduleHandshakeAck now).unspoken = e.unspoken := by
  unfold Engine.maybeScheduleHandshakeAck
  dsimp only
  split
  · rfl
  · split
    · rfl
    · split <;> rfl

theorem maybeFlushHandshakeAck_unspoken {now : Instant} :
    Along (Keeps Engine.unspoken) (maybeFlushHandshakeAck now) := by
  refine along_get_bind fun e => ?_
  split
  · rfl
  · rw [post_ite]
    refine ⟨fun _ => rfl, fun _ => ?_⟩
    rw [post_bind, post_set]
    refine (along_runIf fun _ => along_bind along_get fun e => ?_).after rfl
    exact along_runIf fun _ => createCiphertextRecord_unspoken

theorem pollPacketTx_unspoken {bufLen : Nat} :
    Along (Keeps Engine.unspoken) (pollPacketTx bufLen) := by
  refine along_get_bind fun e => ?_
  split
  · rfl
  · rw [post_bind, post_set, post_ite]
    exact ⟨fun _ => rfl, fun _ => rfl⟩

end Sending

section Keys

theorem deriveEpochKeys_unequipped {epoch : Nat} {trafficSecret : Bytes} :
    Along (Keeps Engine.unequipped) (deriveEpochKeys epoch trafficSecret) := by
  intro e
  refine deriveEpochKeys_post.mono ?_ ?_
  · rintro keys _ ⟨-, rfl⟩
    rfl
  · rintro _ _ rfl
    rfl

theorem pushRecvEpoch_unequipped {epoch : Nat} {keys : EpochKeys} :
    Along (Keeps Engine.unequipped) (pushRecvEpoch epoch keys) := by
  intro e
  refine pushRecvEpoch_post.mono ?_ ?_
  · rintro _ _ rfl
    rfl
  · rintro _ _ rfl
    rfl

theorem installApplicationKeys_unequipped {client server : Bytes} :
    Along (Keeps Engine.unequipped) (installApplicationKeys client server) := by
  refine along_bind along_get fun e => along_bind deriveEpochKeys_unequipped fun _ => ?_
  refine along_bind (along_modify fun _ => rfl) fun _ => ?_
  refine along_bind deriveEpochKeys_unequipped fun _ => along_bind pushRecvEpoch_unequipped fun _ => ?_
  exact along_modify fun _ => rfl

theorem updateRecvKeys_unequipped : Along (Keeps Engine.unequipped) updateRecvKeys := by
  refine along_bind along_get fun e => along_bind along_orThrow fun _ => ?_
  refine along_bind deriveNextTrafficSecret_readOnly.along fun _ => ?_
  refine along_bind deriveEpochKeys_unequipped fun _ => ?_
  exact along_bind (along_modify fun _ => rfl) fun _ => pushRecvEpoch_unequipped

theorem deriveEpochKeys_unkeyed {epoch : Nat} {trafficSecret : Bytes} :
    Along (Keeps Engine.unkeyed) (deriveEpochKeys epoch trafficSecret) :=
  deriveEpochKeys_unequipped.through Engine.unkeyed fun _ => rfl

theorem installHandshakeKeys_unkeyed {client server : Bytes} :
    Along (Keeps Engine.unkeyed) (installHandshakeKeys client server) := by
  refine along_bind along_get fun e => along_bind deriveEpochKeys_unkeyed fun _ => ?_
  refine along_bind (along_modify fun _ => rfl) fun _ => ?_
  exact along_bind deriveEpochKeys_unkeyed fun _ => along_modify fun _ => rfl

theorem installApplicationKeys_unkeyed {client server : Bytes} :
    Along (Keeps Engine.unkeyed) (installApplicationKeys client server) :=
  installApplicationKeys_unequipped.through Engine.unkeyed fun _ => rfl

theorem updateRecvKeys_unkeyed : Along (Keeps Engine.unkeyed) updateRecvKeys :=
  updateRecvKeys_unequipped.through Engine.unkeyed fun _ => rfl

theorem updateSendKeys_unkeyed : Along (Keeps Engine.unkeyed) updateSendKeys := by
  refine along_bind along_get fun e => along_bind along_orThrow fun _ => ?_
  refine along_bind (along_modify fun _ => rfl) fun _ => ?_
  refine along_bind deriveNextTrafficSecret_readOnly.along fun _ => ?_
  exact along_bind deriveEpochKeys_unkeyed fun _ => along_modify fun _ => rfl

end Keys

section Receiving

theorem updateFirst_keyed {epoch : Nat} {f : RecvEpochEntry → RecvEpochEntry}
    (same : ∀ entry, (f entry).keyed = entry.keyed) {entries : List RecvEpochEntry} :
    (Engine.updateFirst epoch f entries).map RecvEpochEntry.keyed =
      entries.map RecvEpochEntry.keyed := by
  induction entries with
  | nil => rfl
  | cons entry rest inductionHypothesis =>
      unfold Engine.updateFirst
      split
      · simp [same]
      · simp [inductionHypothesis]

theorem Engine.opened_unopened {e : Engine} {sequence : Sequence} {event : Event} :
    ((e.replayUpdate sequence).logEvent event).unopened = e.unopened := by
  unfold Engine.replayUpdate
  split
  · rfl
  · have keyed := @updateFirst_keyed sequence.epoch
      (fun entry => entry.receive sequence.sequenceNumber) (fun _ => rfl) e.appRecvKeys
    simp only [Engine.unopened, Engine.logEvent, keyed]

theorem openRecord_unopened {recordSlice : Bytes} {r : Record} :
    Along (Keeps Engine.unopened) (openRecord recordSlice r) := by
  refine along_bind along_get fun e => along_ite (fun _ => along_pure) fun _ => ?_
  refine along_bind suiteProvider_readOnly.along fun suite => along_ite (fun _ => along_pure) fun _ => ?_
  split
  · exact along_pure
  · refine along_bind (along_modify fun e => Engine.opened_unopened) fun _ => ?_
    split <;> exact along_pure

theorem parseRecord_unopened {recordSlice : Bytes} :
    Along (Keeps Engine.unopened) (parseRecord recordSlice) := by
  refine along_bind decryptSequenceNumber_readOnly.along fun buffer => along_bind along_get fun e => ?_
  split
  · exact along_pure
  · exact along_ite (fun _ => along_pure) fun _ => openRecord_unopened

theorem parseRecordsLoop_unopened {fuel : Nat} {packet : Bytes} {parsed : List Record} :
    Along (Keeps Engine.unopened) (parseRecordsLoop fuel packet parsed) := by
  induction fuel generalizing packet parsed with
  | zero => exact along_pure
  | succ fuel inductionHypothesis =>
      unfold parseRecordsLoop
      refine along_ite (fun _ => along_pure) fun _ => ?_
      split
      · exact along_throw
      · exact along_pure
      · refine along_ite (fun _ => along_throw) fun _ => along_bind parseRecord_unopened fun found => ?_
        split
        · exact inductionHypothesis
        · exact along_ite (fun _ => inductionHypothesis) fun _ => along_throw

theorem Engine.processAck_unclassified {e : Engine} {ackData : Bytes} :
    (e.processAck ackData).unclassified = e.unclassified := by
  unfold Engine.processAck
  split
  · rfl
  · unfold Engine.endKeyUpdate Engine.endHandshakeFlight
    dsimp only
    split <;> split <;> rfl

theorem classifyRecord_unclassified {r : Record} :
    Along (Keeps Engine.unclassified) (classifyRecord r) := by
  refine along_get_bind fun e => ?_
  simp only [post_ite, post_pure]
  refine ⟨fun _ => rfl, fun _ => ⟨fun _ => rfl, fun _ => ⟨fun _ => ?_, fun _ => ?_⟩⟩⟩
  · rw [post_bind, post_set]
    exact Engine.processAck_unclassified
  · refine ⟨fun _ => ?_, fun _ => ⟨fun _ => rfl, fun _ => rfl⟩⟩
    cases r.fragment[1]? with
    | none => rfl
    | some description =>
        simp only [post_ite, post_pure, post_throw]
        exact ⟨fun _ => rfl, fun _ => ⟨fun _ => rfl, fun _ => rfl⟩⟩

theorem classifyRecords_unclassified {records : List Record} :
    Along (Keeps Engine.unclassified) (classifyRecords records) := by
  induction records with
  | nil => exact along_pure
  | cons r rest inductionHypothesis =>
      refine along_bind classifyRecord_unclassified fun _ => ?_
      exact along_bind inductionHypothesis fun _ => along_pure

theorem insertIncoming_unqueued {incoming : Incoming} :
    Along (Keeps Engine.unqueued) (insertIncoming incoming) := by
  have resent : Along (Keeps Engine.unqueued) flightResend :=
    flightResend_unspoken.through Engine.unqueued fun _ => rfl
  refine along_bind along_get fun e => along_ite (fun _ => along_throw) fun _ => ?_
  split
  · refine along_bind along_get fun e => ?_
    refine along_bind (along_runIf fun _ => resent) fun _ => along_get_bind fun e => ?_
    dsimp only
    rw [post_ite, post_ite]
    refine ⟨fun _ => rfl, fun _ => ⟨fun _ => rfl, fun _ => ?_⟩⟩
    split
    · rfl
    · rw [post_ite]
      exact ⟨fun _ => rfl, fun _ => rfl⟩
  · refine along_get_bind fun e => ?_
    split <;> rfl

/-- What a datagram that is parsed leaves alone. -/
theorem parsePacket_unreceived {packet : Bytes} :
    Along (Keeps Engine.unreceived) (parsePacket packet) := by
  have opened : Along (Keeps Engine.unreceived) (parseRecordsLoop packet.length packet []) :=
    parseRecordsLoop_unopened.through
      (fun e => { e.unspoken.unread.unclassified with appRecvKeys := e.appRecvKeys }) fun _ => rfl
  have classified : ∀ records, Along (Keeps Engine.unreceived) (classifyRecords records) :=
    fun _ => classifyRecords_unclassified.through Engine.unreceived fun _ => rfl
  refine along_bind (along_bind opened fun _ => classified _) fun records => ?_
  split
  · exact along_pure
  · exact insertIncoming_unqueued.through Engine.unreceived fun _ => rfl

theorem reparse_unreceived {buffers : List Bytes} :
    Along (Keeps Engine.unreceived) (reparse buffers) := by
  induction buffers with
  | nil => exact along_pure
  | cons buffer rest inductionHypothesis =>
      exact along_bind parsePacket_unreceived fun _ => inductionHypothesis

theorem receivePacket_unreceived {datagram : Bytes} :
    Along (Keeps Engine.unreceived) (receivePacket datagram) :=
  along_bind (along_modify fun _ => rfl) fun _ => parsePacket_unreceived

theorem nextHandshakeWithOptions_unread {wanted : MessageType} {withTranscript allowUnknown : Bool} :
    Along (Keeps Engine.unread) (nextHandshakeWithOptions wanted withTranscript allowUnknown) := by
  refine along_bind along_get fun e => along_ite (fun _ => ?_) fun _ => along_pure
  split
  · exact along_throw
  · refine along_bind (along_get_bind fun e => ?_) fun _ => along_pure
    dsimp only
    rw [post_bind, post_set]
    refine Along.after (s := e) ?_ rfl
    refine along_ite (fun _ => along_throw) fun _ => along_bind (along_modify fun _ => rfl) fun _ => ?_
    refine along_bind (along_runIf fun _ => along_modify fun _ => rfl) fun _ => ?_
    split
    · exact along_throw
    · exact along_ite (fun _ => along_throw) fun _ => along_pure

theorem pollAppData_unread {bufLen : Nat} : Along (Keeps Engine.unread) (pollAppData bufLen) := by
  refine along_get_bind fun e => ?_
  rw [post_ite]
  refine ⟨fun _ => rfl, fun _ => ?_⟩
  split
  · rfl
  · rw [post_ite, post_ite]
    exact ⟨fun _ => rfl, fun _ => ⟨fun _ => rfl, fun _ => rfl⟩⟩

end Receiving

section Calls

theorem createHandshake_unuttered {type : MessageType} {writeBody : EngineM Bytes}
    (readOnly : ReadOnly writeBody) :
    Along (Keeps Engine.unuttered) (createHandshake type writeBody) := by
  have fragments : ∀ header epoch fixedOverhead body fuel offset,
      Along (Keeps Engine.unuttered) (createFragments header epoch fixedOverhead body fuel offset) :=
    fun _ _ _ _ _ _ => createFragments_unspoken.through Engine.unuttered fun _ => rfl
  refine along_bind readOnly.along fun body => along_get_bind fun e => ?_
  rw [post_bind, post_set]
  refine Along.after (s := e) ?_ rfl
  refine along_ite (fun _ => fragments _ _ _ _ _ _) fun _ => ?_
  exact along_bind suiteProvider_readOnly.along fun _ => fragments _ _ _ _ _ _

theorem createKeyUpdate_unuttered {request : KeyUpdateRequest} :
    Along (Keeps Engine.unuttered) (createKeyUpdate request) := by
  have derived : ∀ epoch secret, Along (Keeps Engine.unuttered) (deriveEpochKeys epoch secret) := by
    intro epoch secret e
    refine deriveEpochKeys_post.mono ?_ fun _ _ same => congrArg Engine.unuttered same
    rintro keys _ ⟨-, rfl⟩
    rfl
  have updated : Along (Keeps Engine.unuttered) updateSendKeys := by
    refine along_bind along_get fun e => along_bind along_orThrow fun _ => ?_
    refine along_bind (along_modify fun _ => rfl) fun _ => ?_
    refine along_bind deriveNextTrafficSecret_readOnly.along fun _ => ?_
    exact along_bind (derived _ _) fun _ => along_modify fun _ => rfl
  have sent : ∀ epoch fragment,
      Along (Keeps Engine.unuttered) (createCiphertextRecord .handshake epoch true fragment) :=
    fun _ _ => createCiphertextRecord_unspoken.through Engine.unuttered fun _ => rfl
  refine along_bind (along_modify fun _ => rfl) fun _ => along_get_bind fun e => ?_
  rw [post_bind, post_set]
  exact Along.after (s := e) (along_bind (sent _ _) fun _ => updated) rfl

theorem handleTimeout_untimed {now : Instant} :
    Along (Keeps Engine.untimed) (Engine.handleTimeout now) := by
  have resent : ∀ flightTimeout, Along (Keeps Engine.untimed) (retransmit now flightTimeout) := by
    intro flightTimeout
    refine along_ite (fun _ => along_pure) fun _ => along_get_bind fun e => ?_
    rw [post_ite]
    refine ⟨fun _ => ?_, fun _ => rfl⟩
    rw [post_bind, post_set]
    exact (flightResend_unspoken.through Engine.untimed fun _ => rfl).after rfl
  have scheduled : ∀ e : Engine, (e.maybeScheduleHandshakeAck now).untimed = e.untimed := by
    intro e
    have same : (e.maybeScheduleHandshakeAck now).unspoken.untimed = e.unspoken.untimed :=
      congrArg Engine.untimed Engine.maybeScheduleHandshakeAck_unspoken
    exact same
  have flushed : Along (Keeps Engine.untimed) (maybeFlushHandshakeAck now) :=
    maybeFlushHandshakeAck_unspoken.through Engine.untimed fun _ => rfl
  refine along_bind (along_modify fun _ => rfl) fun _ => along_bind along_get fun e => ?_
  refine along_ite (fun _ => along_throw) fun _ => ?_
  split
  · exact along_bind (resent _) fun _ => along_bind (along_modify scheduled) fun _ => flushed
  · exact along_pure

theorem pollOutput_unpolled {bufLen : Nat} {now : Instant} :
    Along (Keeps Engine.unpolled) (Engine.pollOutput bufLen now) := by
  have data : Along (Keeps Engine.unpolled) (pollAppData bufLen) :=
    pollAppData_unread.through Engine.unpolled fun _ => rfl
  have packets : Along (Keeps Engine.unpolled) (pollPacketTx bufLen) :=
    pollPacketTx_unspoken.through Engine.unpolled fun _ => rfl
  have scheduled : ∀ e : Engine, (e.maybeScheduleHandshakeAck now).unpolled = e.unpolled := by
    intro e
    have same : (e.maybeScheduleHandshakeAck now).unspoken.unpolled = e.unspoken.unpolled :=
      congrArg Engine.unpolled Engine.maybeScheduleHandshakeAck_unspoken
    exact same
  refine along_bind (along_modify fun _ => rfl) fun _ => along_bind data fun data => ?_
  cases data with
  | some data => exact along_pure
  | none =>
      refine along_bind (along_modify scheduled) fun _ => along_bind packets fun packet => ?_
      cases packet with
      | some packet => exact along_pure
      | none =>
          refine along_get_bind fun e => ?_
          rw [post_ite]
          exact ⟨fun _ => rfl, fun _ => rfl⟩

end Calls

end Dimpl.Dtls13
