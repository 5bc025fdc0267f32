import Dimpl.Dtls12.Engine.Authenticity

/-!
# The assertions of the receive path

`insert_incoming_non_handshake` asserts that a duplicate is plaintext, and
`Record::set_handled` that a record has no handshake fragments. Once the peer's
encryption is on the replay window keeps duplicates out; before that nothing
does, and what was queued then under an epoch from 2 on stays in the queue.
-/

namespace Dimpl.Dtls12

open Nom Program

/-- A fault that is neither of the two assertions. -/
def Held (fault : Fault) : Prop :=
  fault ≠ .panic .duplicateProtectedRecord ∧ fault ≠ .panic .setHandledOnHandshake

section Throws

theorem held_crypto (err : CryptoError) : Held (Fault.ofCrypto err) := ⟨nofun, nofun⟩

theorem held_assertion : Held (.panic .assertion) := ⟨nofun, nofun⟩

theorem held_transient {reason : TransientError} : Held (.transient reason) := ⟨nofun, nofun⟩

theorem held_fatal {err : Error} : Held (.fatal err) := ⟨nofun, nofun⟩

theorem selectedCipherSuite_held : Throws Held selectedCipherSuite :=
  throws_bind throws_get fun _ => throws_orThrow held_fatal

theorem randomArr_held {count : Nat} : Throws Held (randomArr count) :=
  throws_bind throws_get fun _ => throws_bind throws_set fun _ => throws_pure

theorem xorNonce_held {iv : Bytes} {sequence : Sequence} : Throws Held (xorNonce iv sequence) :=
  throws_ite throws_pure (throws_throw held_assertion)

theorem joinNonce_held {iv explicitNonce : Bytes} : Throws Held (joinNonce iv explicitNonce) :=
  throws_ite throws_pure (throws_throw held_assertion)

theorem sendNonce_held {suite : Dtls12CipherSuite} {iv : Bytes} {sequence : Sequence} :
    Throws Held (sendNonce suite iv sequence) := by
  refine throws_bind throws_get fun e => throws_ite ?_ (throws_ite ?_ ?_)
  · exact throws_bind xorNonce_held fun _ => throws_pure
  · exact throws_bind randomArr_held fun _ => throws_bind joinNonce_held fun _ => throws_pure
  · exact throws_throw (held_crypto _)

theorem protectFragment_held {contentType : ContentType} {sequence : Sequence} {fragment : Bytes} :
    Throws Held (protectFragment contentType sequence fragment) :=
  throws_bind selectedCipherSuite_held fun _ => throws_bind throws_get fun _ =>
    throws_bind (throws_orThrow (held_crypto _)) fun _ => throws_bind sendNonce_held fun _ =>
      throws_bind (throws_liftCrypto held_crypto) fun _ =>
        throws_bind (throws_liftCrypto held_crypto) fun _ => throws_pure

theorem checkQueueTx_held {append : Bool} : Throws Held (checkQueueTx append) :=
  throws_bind throws_get fun _ => throws_ite (throws_throw held_fatal) throws_pure

theorem createRecordInner_held {contentType : ContentType} {epoch : Nat}
    {saveFragment forceNewDatagram : Bool} {fragment : Bytes} :
    Throws Held (createRecordInner contentType epoch saveFragment forceNewDatagram fragment) := by
  refine throws_bind throws_get fun e => throws_ite (throws_throw held_fatal) ?_
  refine throws_bind (throws_runIf throws_modify) fun _ => throws_bind checkQueueTx_held fun _ => ?_
  exact throws_ite throws_modify (throws_bind protectFragment_held fun _ => throws_modify)

theorem resendEntries_held {forceNewDatagram : Bool} {entries : List Entry} :
    Throws Held (resendEntries forceNewDatagram entries) := by
  induction entries generalizing forceNewDatagram with
  | nil => exact throws_pure
  | cons entry rest inductionHypothesis =>
      exact throws_bind createRecordInner_held fun _ => inductionHypothesis

theorem flightResend_held : Throws Held flightResend := by
  refine throws_bind throws_get fun e => throws_bind throws_set fun _ => ?_
  intro e'
  rw [post_ensuring]
  exact resendEntries_held e'

theorem createFragments_held {header : Header} {epoch fixedOverhead : Nat} {body : Bytes}
    {fuel offset : Nat} : Throws Held (createFragments header epoch fixedOverhead body fuel offset) := by
  induction fuel generalizing offset with
  | zero => exact throws_throw held_assertion
  | succ fuel inductionHypothesis =>
      refine throws_ite (throws_bind throws_get fun e => ?_) throws_pure
      exact throws_bind createRecordInner_held fun _ => throws_runIf inductionHypothesis

theorem createHandshake_held {type : MessageType} {body : Bytes} :
    Throws Held (createHandshake type (pure body)) := by
  refine throws_bind throws_pure fun _ => throws_bind throws_get fun e => ?_
  refine throws_bind throws_set fun _ => throws_bind ?_ fun _ => createFragments_held
  refine throws_ite ?_ throws_pure
  exact throws_bind selectedCipherSuite_held fun _ => throws_bind throws_get fun _ => throws_pure

theorem openRecord_held {recordSlice : Bytes} {dtls : DTLSRecord} :
    Throws Held (openRecord recordSlice dtls) := by
  have nonce : Throws Held (openNonce dtls recordSlice) :=
    throws_bind (throws_bind throws_get fun _ => throws_orThrow held_assertion) fun _ =>
      throws_bind throws_get fun _ => throws_ite xorNonce_held joinNonce_held
  refine throws_bind throws_get fun e => throws_ite throws_pure (throws_ite throws_pure ?_)
  refine throws_bind nonce fun value => ?_
  split
  · exact throws_ite throws_pure (throws_throw (held_crypto _))
  · refine throws_bind throws_modify fun _ => ?_
    split
    · exact throws_throw ⟨nofun, nofun⟩
    · exact throws_pure

theorem parseRecord_held {recordSlice : Bytes} : Throws Held (parseRecord recordSlice) := by
  refine throws_bind throws_get fun e => ?_
  split
  · exact throws_pure
  · exact throws_ite throws_pure openRecord_held

theorem parseRecordsLoop_held {fuel : Nat} {packet : Bytes} {parsed : List Record} :
    Throws Held (parseRecordsLoop fuel packet parsed) := by
  induction fuel generalizing packet parsed with
  | zero => exact throws_pure
  | succ fuel inductionHypothesis =>
      unfold parseRecordsLoop
      refine throws_ite throws_pure ?_
      split
      · exact throws_throw held_transient
      · refine throws_bind parseRecord_held fun result => ?_
        split
        · exact inductionHypothesis
        · exact throws_ite inductionHypothesis (throws_throw held_transient)

theorem classifyRecord_held {r : Record} : Throws Held (classifyRecord r) := by
  have alert : Throws Held (classifyAlert r) := by
    refine throws_bind throws_get fun e => throws_ite (throws_ite throws_pure ?_)
      (throws_ite throws_pure ?_)
    · split
      · exact throws_throw held_fatal
      · exact throws_pure
    · split
      · exact throws_ite (throws_bind throws_set fun _ => throws_pure)
          (throws_ite (throws_throw held_fatal) throws_pure)
      · exact throws_pure
  exact throws_bind throws_get fun e => throws_ite throws_pure (throws_ite throws_pure
    (throws_ite alert (throws_ite throws_pure throws_pure)))

theorem parseRecords_held {packet : Bytes} : Throws Held (parseRecords packet) := by
  refine throws_bind parseRecordsLoop_held fun records => ?_
  induction records with
  | nil => exact throws_pure
  | cons r rest inductionHypothesis =>
      exact throws_bind classifyRecord_held fun _ => throws_bind inductionHypothesis fun _ => throws_pure

theorem insertIncomingHandshake_held {incoming : Incoming} {handshake : Fragment} :
    Throws Held (insertIncomingHandshake incoming handshake) := by
  refine throws_bind throws_get fun e => throws_bind (throws_runIf flightResend_held) fun _ => ?_
  refine throws_bind throws_get fun e => throws_ite throws_pure (throws_ite throws_pure
    (throws_ite (throws_throw held_fatal) ?_))
  split
  · exact throws_set
  · exact throws_pure

theorem nextHandshake_held {wanted : MessageType} : Throws Held (nextHandshake wanted) := by
  refine throws_bind throws_get fun e => throws_ite ?_ throws_pure
  split
  · exact throws_throw held_assertion
  · refine throws_bind ?_ fun message => throws_bind throws_modify fun _ => throws_pure
    refine throws_bind throws_get fun e => throws_bind throws_set fun _ => ?_
    refine throws_ite (throws_throw held_transient) (throws_bind throws_modify fun _ => ?_)
    split
    · exact throws_throw ⟨nofun, nofun⟩
    · exact throws_ite (throws_throw held_transient) throws_pure

theorem handleTimeout_held {now : Instant} : Throws Held (Engine.handleTimeout now) := by
  refine throws_bind throws_modify fun _ => throws_bind throws_get fun e =>
    throws_ite (throws_throw held_fatal) ?_
  split
  · refine throws_ite throws_pure (throws_bind throws_get fun _ => throws_ite ?_
      (throws_throw held_fatal))
    exact throws_bind throws_set fun _ => flightResend_held
  · exact throws_pure

end Throws

namespace Engine

/-- Whether the search for a number finds a datagram that starts with it. -/
def finds (e : Engine) (sequence : Sequence) : Bool :=
  (e.config.dequeSearch.searchBy (fun item => item.first.sequence.cmp sequence) e.queueRx).toBool

/-- With encryption off: what is left of the datagram starts with a protected
record without handshake that the queue has already, and there is room for it. -/
def earlyDuplicate (e : Engine) (datagram : Bytes) : Bool :=
  match value? (parseRecords datagram) e with
  | some (first :: _) =>
    first.firstHandshake.isNone && first.sequence.epoch ≠ 0 &&
      e.queueRx.length < e.config.maxQueueRx && e.finds first.sequence
  | _ => false

/-- A record that the replay window lets through and that opens has one of the
numbers. -/
def collides (e : Engine) (numbers : List Sequence) (recordSlice : Bytes) : Bool :=
  match Record.ofBuffer recordSlice 0 with
  | .ok r => e.replayCheck r.sequence && e.opens recordSlice r.record && numbers.contains r.sequence
  | .error _ => false

end Engine

/-- The numbers of epochs from 2 on that datagrams of the queue start with. -/
def lateNumbers (queue : List Incoming) : List Sequence :=
  (queue.map fun item => item.first.sequence).filter fun sequence => 2 ≤ sequence.epoch

/-- The condition on a call. With encryption off no early duplicate is received;
with encryption on, and when queued records are parsed again, no record opens with
the number of a datagram queued under an epoch from 2 on. -/
def AssertCondition (e : Engine) : Call → Prop
  | .receivePacket datagram =>
    if e.peerEncryptionEnabled then
      ∀ slice ∈ recordSlices datagram, e.collides (lateNumbers e.queueRx) slice = false
    else
      -- The history has the datagram before it is parsed.
      (e.logEvent (.received datagram)).earlyDuplicate datagram = false
  | .enablePeerEncryption =>
    ∀ r ∈ ((e.queueRx.dropWhile fun item => !hasEpoch1 item).flatMap Incoming.records).filter
      (fun r => !r.isHandled), ∀ slice ∈ recordSlices r.buffer,
        e.collides (lateNumbers (e.queueRx.takeWhile fun item => !hasEpoch1 item)) slice = false
  | _ => True

instance (e : Engine) (call : Call) : Decidable (AssertCondition e call) :=
  match call with
  | .receivePacket datagram =>
    inferInstanceAs (Decidable (if e.peerEncryptionEnabled then
      ∀ slice ∈ recordSlices datagram, e.collides (lateNumbers e.queueRx) slice = false
    else (e.logEvent (.received datagram)).earlyDuplicate datagram = false))
  | .enablePeerEncryption =>
    inferInstanceAs (Decidable (∀ r ∈ ((e.queueRx.dropWhile fun item => !hasEpoch1 item).flatMap
      Incoming.records).filter (fun r => !r.isHandled), ∀ slice ∈ recordSlices r.buffer,
        e.collides (lateNumbers (e.queueRx.takeWhile fun item => !hasEpoch1 item)) slice = false))
  | .releaseApplicationData | .setClient _ | .setCipherSuite _ | .nextHandshake _
  | .nextChangeCipherSpec | .dropPendingCcs | .createHandshake _ _ | .createRecord _ _ _ _
  | .flightBegin | .flightStopResendTimers | .discardPendingWrites | .abort
  | .resetServerForHelloVerifyRequest | .resetClientForHelloVerifyRequest
  | .setNextHandshakeSeqNo _ | .advanceEpoch0Sequence | .addToTranscript _ | .random _
  | .context _ | .handleTimeout _ | .pollOutput _ _ => isTrue trivial

/-- Only handshake records have fragments, and with encryption on every datagram
starts with a plaintext record, a number the replay window knows or an epoch from
2 on. -/
structure Engine.AssertInv (e : Engine) : Prop where
  plain : ∀ r ∈ e.rxRecords, r.record.contentType ≠ .handshake → r.handshakes = []
  numbers : e.peerEncryptionEnabled = true → ∀ item ∈ e.queueRx,
    item.first.sequence.epoch = 0 ∨ e.replayCheck item.first.sequence = false ∨
      2 ≤ item.first.sequence.epoch

/-- Rules that allow every call. -/
def assertRules : Rules where
  slices := fun _ => True
  plain := False
  mayEnable := fun _ => True
  mayRelease := fun _ => True
  mayRekey := fun _ => True
  maySelect := fun _ => True
  mayTime := fun _ => True

/-- Every datagram starts with a plaintext record, a number the replay window
knows or one of these. -/
def Engine.Numbered (e : Engine) (early : Sequence → Prop) : Prop :=
  ∀ item ∈ e.queueRx, item.first.sequence.epoch = 0 ∨
    e.replayCheck item.first.sequence = false ∨ early item.first.sequence

section Invariant

variable {S : Bytes → Prop} {K : Prop} {rules : Rules} {e e' : Engine} {early : Sequence → Prop}

theorem Engine.Numbered.of_same (numbered : e.Numbered early) (queue : e'.queueRx = e.queueRx)
    (numbers : ∀ sequence, e.replayCheck sequence = false → e'.replayCheck sequence = false) :
    e'.Numbered early := by
  intro item member
  rcases numbered item (queue ▸ member) with plaintext | known | isEarly
  · exact .inl plaintext
  · exact .inr (.inl (numbers _ known))
  · exact .inr (.inr isEarly)

theorem Incoming.first_content {item₀ item : Incoming}
    (same : item₀.records.map Record.content = item.records.map Record.content) :
    item₀.first.content = item.first.content := by
  simp only [Incoming.records, List.map_cons, List.cons.injEq] at same
  exact same.1

theorem Record.sequence_of_content {r₀ r : Record} (content : r₀.content = r.content) :
    r₀.sequence = r.sequence :=
  congrArg (fun c => c.2.1.sequence) content

/-- With encryption on, what steps put into the queue is plaintext or was opened. -/
theorem Step.numbered (step : Step S K e e') (enabled : e.peerEncryptionEnabled = true)
    (numbered : e.Numbered early) : e'.Numbered early := by
  have numbers := step.grows.numbers
  cases step with
  | other same => exact numbered.of_same (congrArg Core.queueRx same) numbers
  | queue sources =>
      intro item member
      rcases sources item member with ⟨item₀, queued, same⟩ | ⟨incoming, admitted, same⟩
      · rw [← Record.sequence_of_content (Incoming.first_content same)]
        exact numbered item₀ queued
      · rw [← Record.sequence_of_content (Incoming.first_content same)]
        cases admitted incoming.first List.mem_cons_self with
        | raw slice parsed clear =>
            exact .inl (clear.resolve_right (by simp [enabled]))
        | opened opened number header => exact .inr (.inl number)
  | opened | delivered | assembled | told | sealed => exact numbered.of_same rfl numbers

theorem Steps.numbered (steps : Steps S K e e') (enabled : e.peerEncryptionEnabled = true)
    (numbered : e.Numbered early) : e'.Numbered early := by
  induction steps with
  | refl => exact numbered
  | tail steps step inductionHypothesis =>
      exact step.numbered ((Steps.grows steps).enabled.trans enabled) inductionHypothesis

theorem Admitted.plain {r : Record} (admitted : Admitted S e r)
    (other : r.record.contentType ≠ .handshake) : r.handshakes = [] := by
  cases admitted with
  | raw slice parsed clear =>
      rw [(Record.ofBuffer_ok parsed).1]
      exact Record.ofHeader_handshakes other
  | opened opened number header =>
      rw [header]
      exact Record.ofHeader_handshakes other

/-- Having fragments depends on the content of a record only. -/
theorem Record.plain_of_content {r₀ r : Record} (content : r₀.content = r.content)
    (plain : r₀.record.contentType ≠ .handshake → r₀.handshakes = [])
    (other : r.record.contentType ≠ .handshake) : r.handshakes = [] := by
  simp only [Record.content, Prod.mk.injEq] at content
  obtain ⟨_, header, fragments⟩ := content
  rw [← header] at other
  rw [plain other] at fragments
  simpa using fragments.symm

theorem Step.plain (step : Step S K e e')
    (plain : ∀ r ∈ e.rxRecords, r.record.contentType ≠ .handshake → r.handshakes = []) :
    ∀ r ∈ e'.rxRecords, r.record.contentType ≠ .handshake → r.handshakes = [] := by
  cases step with
  | other same =>
      have queue : e'.queueRx = e.queueRx := congrArg Core.queueRx same
      simpa [Engine.rxRecords, queue] using plain
  | queue sources =>
      intro r member
      obtain ⟨item, inQueue, inItem⟩ := List.mem_flatMap.mp member
      rcases Sourced.record (sources item inQueue) inItem with
        ⟨r₀, queued, content⟩ | ⟨r₀, admitted, content⟩
      · exact Record.plain_of_content content (plain r₀ queued)
      · exact Record.plain_of_content content admitted.plain
  | opened | delivered | assembled | told | sealed => exact plain

/-- Every change keeps the invariant. -/
theorem Change.assertInv (change : Change rules e e') (inv : e.AssertInv) : e'.AssertInv := by
  cases change with
  | quiet step =>
      refine ⟨step.plain inv.plain, fun enabled => ?_⟩
      have before := step.grows.enabled.symm.trans enabled
      have numbered : e.Numbered fun sequence => 2 ≤ sequence.epoch := inv.numbers before
      exact step.numbered before numbered
  | received => exact ⟨inv.plain, inv.numbers⟩
  | enabled allowed =>
      constructor
      · intro r member
        obtain ⟨item, inPrefix, inItem⟩ := List.mem_flatMap.mp member
        exact inv.plain r (List.mem_flatMap.mpr
          ⟨item, (List.takeWhile_prefix _).subset inPrefix, inItem⟩)
      · intro _ item member
        -- Nothing of epoch 1 is in the part that is kept.
        have noEpoch1 := List.all_eq_true.mp List.all_takeWhile item member
        have notOne : item.first.sequence.epoch ≠ 1 := by
          intro one
          simp [hasEpoch1, Incoming.records, one] at noEpoch1
        omega
  | released allowed => exact ⟨inv.plain, inv.numbers⟩
  | rekeyed allowed => exact ⟨inv.plain, inv.numbers⟩
  | selected allowed lengths => exact ⟨inv.plain, inv.numbers⟩
  | retold allowed => exact ⟨inv.plain, inv.numbers⟩
  | timed allowed => exact ⟨inv.plain, inv.numbers⟩

/-- A hit of the search starts with the number. -/
theorem Engine.finds_queued {sequence : Sequence} (found : e.finds sequence = true) :
    ∃ item ∈ e.queueRx, item.first.sequence = sequence := by
  unfold Engine.finds at found
  cases hit : e.config.dequeSearch.searchBy (fun item => item.first.sequence.cmp sequence)
      e.queueRx with
  | error index => simp [hit, Except.toBool] at found
  | ok index =>
      obtain ⟨item, isItem, equal⟩ := Search.DequeSearch.searchBy_ok hit
      exact ⟨item, List.mem_of_getElem? isItem, Sequence.eq_of_cmp equal⟩

theorem insertIncomingNonHandshake_held {incoming : Incoming}
    (absent : incoming.first.sequence.epoch ≠ 0 → e.finds incoming.first.sequence = false) :
    Post (insertIncomingNonHandshake incoming) e (fun _ _ => True) (fun fault _ => Held fault) := by
  unfold insertIncomingNonHandshake
  rw [post_bind, post_get]
  dsimp only
  rw [post_ite]
  refine ⟨fun _ => trivial, fun _ => ?_⟩
  split
  · trivial
  · rename_i index hit
    rw [post_ite]
    refine ⟨fun _ => trivial, fun isProtected => ?_⟩
    have missed := absent isProtected
    simp [Engine.finds, hit, Except.toBool] at missed

/-- A datagram whose first record is not a duplicate is inserted. -/
theorem insertIncoming_held {incoming : Incoming}
    (absent : incoming.first.firstHandshake = none → incoming.first.sequence.epoch ≠ 0 →
      e.queueRx.length < e.config.maxQueueRx → e.finds incoming.first.sequence = false) :
    Post (insertIncoming incoming) e (fun _ _ => True) (fun fault _ => Held fault) := by
  unfold insertIncoming
  rw [post_bind, post_get, post_ite]
  refine ⟨fun _ => held_fatal, fun room => ?_⟩
  split
  · exact insertIncomingHandshake_held e
  · rename_i none
    exact insertIncomingNonHandshake_held fun isProtected => absent none isProtected (by omega)

/-- With encryption off the queue is searched for what the datagram starts with. -/
theorem parsePacket_early {packet : Bytes} (fresh : e.earlyDuplicate packet = false) :
    Post (parsePacket packet) e (fun _ _ => True) (fun fault _ => Held fault) := by
  unfold parsePacket
  rw [post_bind]
  have reads : Post (parseRecords packet) e
      (fun result e' => Reads (fun _ => True) False e e' ∧ _) (fun _ e' => Reads (fun _ => True) False e e') :=
    parseRecords_post fun _ _ => trivial
  refine ((reads.and post_self).and (parseRecords_held e)).mono ?_ fun _ _ failed => failed.2
  rintro records e₁ ⟨⟨⟨⟨_, _, _, _, _, rfl⟩, _⟩, isResult⟩, _⟩
  cases records with
  | nil => trivial
  | cons first rest =>
      refine insertIncoming_held fun noHandshake isProtected room => ?_
      have noHandshake : first.firstHandshake = none := noHandshake
      have isProtected : first.sequence.epoch ≠ 0 := isProtected
      have room : e.queueRx.length < e.config.maxQueueRx := room
      have missed : e.finds first.sequence = false := by
        simpa [Engine.earlyDuplicate, value_of_ok isResult, noHandshake, isProtected, room] using fresh
      exact missed

/-- With encryption on a record that gets into the queue has a number that no
datagram starts with. -/
theorem parsePacket_enabled {packet : Bytes} {numbers : List Sequence}
    (enabled : e.peerEncryptionEnabled = true) (numbered : e.Numbered (· ∈ numbers))
    (fresh : ∀ slice ∈ recordSlices packet, e.collides numbers slice = false) :
    Post (parsePacket packet) e (fun _ _ => True) (fun fault _ => Held fault) := by
  unfold parsePacket
  rw [post_bind]
  have reads : Post (parseRecords packet) e
      (fun result e' => Reads (fun _ => True) False e e' ∧ ∀ r ∈ result,
        Admitted (fun _ => True) e' r ∧ ∃ slice ∈ recordSlices packet, FromSlice e slice r)
      (fun _ e' => Reads (fun _ => True) False e e') :=
    parseRecords_post fun _ _ => trivial
  refine (reads.and (parseRecords_held e)).mono ?_ fun _ _ failed => failed.2
  rintro records e₁ ⟨⟨⟨_, _, _, _, _, rfl⟩, origins⟩, _⟩
  cases records with
  | nil => trivial
  | cons first rest =>
      refine insertIncoming_held fun _ isProtected _ => ?_
      by_contra found
      obtain ⟨item, queued, same⟩ := Engine.finds_queued (by simpa using found)
      obtain ⟨_, slice, inside, r₀, parsed, number, checked⟩ := origins first List.mem_cons_self
      obtain ⟨unknown, opens⟩ := checked enabled isProtected
      have same : item.first.sequence = first.sequence := same
      -- The number is unknown to the window, so the datagram would be an early one.
      rcases numbered item queued with plaintext | known | isEarly
      · exact isProtected (same ▸ plaintext)
      · rw [same, unknown] at known
        cases known
      · have hit := fresh slice inside
        rw [same] at isEarly
        simp [Engine.collides, parsed, ← number, unknown, opens, isEarly] at hit

/-- What does not collide now does not collide when the window knows more. -/
theorem collides_of_session {numbers : List Sequence} {recordSlice : Bytes}
    (session : e'.session = e.session)
    (known : ∀ sequence, e.replayCheck sequence = false → e'.replayCheck sequence = false)
    (free : e.collides numbers recordSlice = false) : e'.collides numbers recordSlice = false := by
  unfold Engine.collides at *
  split
  · rename_i r parsed
    simp only [parsed, Bool.and_eq_false_iff] at free ⊢
    rw [Engine.opens_of_session session]
    exact free.imp (Or.imp (known _) id) id
  · rfl

theorem reparse_held {buffers : List Bytes} {numbers : List Sequence}
    (enabled : e.peerEncryptionEnabled = true) (numbered : e.Numbered (· ∈ numbers))
    (fresh : ∀ buffer ∈ buffers, ∀ slice ∈ recordSlices buffer, e.collides numbers slice = false) :
    Post (reparse buffers) e (fun _ _ => True) (fun fault _ => Held fault) := by
  induction buffers generalizing e with
  | nil => trivial
  | cons buffer rest inductionHypothesis =>
      unfold reparse
      rw [post_bind]
      have quiet : Along (Quiet (fun _ => True) False) (parsePacket buffer) :=
        parsePacket_quiet fun _ _ => trivial
      refine ((quiet e).and (parsePacket_enabled enabled numbered
        (fresh buffer List.mem_cons_self))).mono ?_ fun _ _ failed => failed.2
      rintro _ e₁ ⟨moved, _⟩
      have steps := (moved False.elim).1
      refine inductionHypothesis ((Steps.grows steps).enabled.trans enabled)
        (Steps.numbered steps enabled numbered) fun other member slice inside => ?_
      have grows := Steps.grows steps
      exact collides_of_session grows.session grows.numbers
        (fresh other (List.mem_cons_of_mem _ member) slice inside)

theorem assertNoHandshakes_held {r : Record} (none : r.handshakes = []) :
    Throws Held (assertNoHandshakes r) := by
  intro e
  simp [assertNoHandshakes, none]

theorem nextRecord_held {contentType : ContentType} (other : contentType ≠ .handshake)
    (inv : e.AssertInv) :
    Post (nextRecord contentType) e (fun _ _ => True) (fun fault _ => Held fault) := by
  unfold nextRecord
  rw [post_bind, post_get]
  split
  · trivial
  · rename_i r queueRx taken
    rw [post_ite]
    refine ⟨fun _ => trivial, fun isType => ?_⟩
    have isType : r.record.contentType = contentType := by simpa using isType
    have none := inv.plain r (markFirst_some taken).1 (isType ▸ other)
    exact throws_bind (assertNoHandshakes_held none)
      (fun _ => throws_bind throws_set fun _ => throws_pure) e

theorem dropPendingCcs_held (inv : e.AssertInv) :
    Post dropPendingCcs e (fun _ _ => True) (fun fault _ => Held fault) := by
  unfold dropPendingCcs
  rw [post_bind, post_get, post_bind]
  have checked : ∀ records ⊆ e.rxRecords, Throws Held (assertCcs records) := by
    intro records
    induction records with
    | nil => exact fun _ => throws_pure
    | cons r rest inductionHypothesis =>
        intro subset
        obtain ⟨member, rest⟩ := List.cons_subset.mp subset
        refine throws_bind (fun e' => post_runIf.mpr ⟨fun isCcs => ?_, fun _ => trivial⟩)
          fun _ => inductionHypothesis rest
        have isCcs : r.record.contentType = .changeCipherSpec := by simpa using isCcs
        exact assertNoHandshakes_held (inv.plain r member (by rw [isCcs]; decide)) e'
  exact (checked _ (List.Subset.refl _) e).mono (fun _ _ _ => trivial) fun _ _ held => held

theorem pollOutput_held {bufLen : Nat} {now : Instant} (inv : e.AssertInv) :
    Post (Engine.pollOutput bufLen now) e (fun _ _ => True) (fun fault _ => Held fault) := by
  unfold Engine.pollOutput
  rw [post_bind, post_modify, post_bind]
  have data : Post (pollAppData bufLen) e.purgeHandledQueueRx (fun _ _ => True)
      (fun fault _ => Held fault) := by
    unfold pollAppData
    rw [post_bind, post_get, post_ite]
    refine ⟨fun _ => trivial, fun _ => ?_⟩
    split
    · trivial
    · rename_i r queueRx taken
      rw [post_ite]
      refine ⟨fun _ => held_assertion, fun _ => ?_⟩
      obtain ⟨inPurged, isData, _⟩ := markFirst_some taken
      have isData : r.record.contentType = .applicationData := by
        simp only [Bool.and_eq_true, decide_eq_true_eq] at isData
        exact isData.1
      have queued : r ∈ e.rxRecords := by
        obtain ⟨item, inSuffix, inItem⟩ := List.mem_flatMap.mp inPurged
        exact List.mem_flatMap.mpr ⟨item, (List.dropWhile_suffix _).subset inSuffix, inItem⟩
      have none := inv.plain r queued (by rw [isData]; decide)
      exact throws_bind (assertNoHandshakes_held none)
        (fun _ => throws_bind throws_set fun _ => throws_pure) _
  refine data.mono (fun result e₁ _ => ?_) fun _ _ held => held
  cases result with
  | some data => trivial
  | none =>
      have packet : Throws Held (pollPacketTx bufLen) := by
        refine throws_bind throws_get fun e => ?_
        split
        · exact throws_pure
        · exact throws_bind throws_set fun _ => throws_ite (throws_throw held_assertion) throws_pure
      refine throws_bind packet (fun sent => ?_) e₁
      cases sent with
      | some sent => exact throws_pure
      | none =>
          exact throws_bind throws_get fun e =>
            throws_ite (throws_bind throws_set fun _ => throws_pure) throws_pure

/-- The datagrams that are neither plaintext nor known start with late numbers. -/
theorem numbered_late (numbers : e.Numbered fun sequence => 2 ≤ sequence.epoch) :
    e.Numbered (· ∈ lateNumbers e.queueRx) := by
  intro item member
  refine (numbers item member).imp id (Or.imp id fun late => ?_)
  exact List.mem_filter.mpr ⟨List.mem_map.mpr ⟨item, member, rfl⟩, by simpa using late⟩

/-- A call that meets the condition ends in neither assertion. -/
theorem Call.held {call : Call} (inv : e.AssertInv) (condition : AssertCondition e call) :
    Post call.program e (fun _ _ => True) (fun fault _ => Held fault) := by
  cases call with
  | receivePacket datagram =>
      have parsed : Post (parsePacket datagram) (e.logEvent (.received datagram)) (fun _ _ => True)
          (fun fault _ => Held fault) := by
        cases enabled : e.peerEncryptionEnabled with
        | false => exact parsePacket_early (by simpa [AssertCondition, enabled] using condition)
        | true =>
            have fresh : ∀ slice ∈ recordSlices datagram,
                e.collides (lateNumbers e.queueRx) slice = false := by
              simpa [AssertCondition, enabled] using condition
            exact parsePacket_enabled (e := e.logEvent (.received datagram)) enabled
              (numbered_late (inv.numbers enabled)) fun slice inside =>
                collides_of_session (e := e) rfl (fun _ known => known) (fresh slice inside)
      exact parsed
  | enablePeerEncryption =>
      have kept : Engine.AssertInv { e with
          peerEncryptionEnabled := true
          queueRx := e.queueRx.takeWhile fun item => !hasEpoch1 item } :=
        Change.assertInv (.enabled trivial : Change assertRules _ _) inv
      refine reparse_held rfl (numbered_late (kept.numbers rfl)) fun buffer member slice inside => ?_
      obtain ⟨r, inQueue, rfl⟩ := List.mem_map.mp member
      exact collides_of_session (e := e) rfl (fun _ known => known) (condition r inQueue slice inside)
  | nextChangeCipherSpec =>
      exact (post_bind.mpr ((nextRecord_held (by decide) inv).mono (fun _ _ _ => trivial)
        fun _ _ held => held))
  | dropPendingCcs => exact dropPendingCcs_held inv
  | pollOutput bufLen now =>
      exact post_bind.mpr ((pollOutput_held inv).mono (fun _ _ _ => trivial) fun _ _ held => held)
  | setCipherSuite suite =>
      exact throws_bind throws_get (fun _ => throws_bind (throws_orThrow ⟨nofun, nofun⟩)
        fun _ => throws_set) e
  | nextHandshake wanted => exact throws_bind nextHandshake_held (fun _ => throws_pure) e
  | createHandshake type body => exact createHandshake_held e
  | createRecord contentType epoch saveFragment fragment => exact createRecordInner_held e
  | random count => exact throws_bind randomArr_held (fun _ => throws_pure) e
  | handleTimeout now => exact handleTimeout_held e
  | setClient | flightBegin | flightStopResendTimers | releaseApplicationData
  | discardPendingWrites | abort | resetServerForHelloVerifyRequest
  | resetClientForHelloVerifyRequest | setNextHandshakeSeqNo | advanceEpoch0Sequence
  | addToTranscript | context => exact trivial

/-- Every call keeps the invariant. -/
theorem exec_assertInv {call : Call} (inv : e.AssertInv) : (e.exec call).AssertInv := by
  have allow : assertRules.Allow e call := by
    cases call with
    | receivePacket datagram => exact fun _ _ => trivial
    | enablePeerEncryption => exact ⟨trivial, fun _ _ _ _ => trivial⟩
    | _ => exact trivial
  have changes : Changes assertRules e (e.exec call) := exec_changes (fun plain => plain) allow
  generalize e.exec call = e' at changes ⊢
  induction changes with
  | refl => exact inv
  | tail _ change inductionHypothesis => exact change.assertInv inductionHypothesis

theorem AssertInv_new {config : Config} {auth : AuthMode} {rng entropy : SeededRng} :
    (Engine.new config auth rng entropy).AssertInv := by
  constructor <;> simp [Engine.new, Engine.rxRecords]

end Invariant

end Dimpl.Dtls12
