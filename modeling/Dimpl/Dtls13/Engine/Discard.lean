import Dimpl.Dtls13.Engine.Faults
import Dimpl.Dtls13.Engine.Receipt
import Dimpl.Lib.Commit

/-!
# Datagrams a DTLS 1.3 engine discards

`Records::parse` opens the records of a datagram one by one and commits each to its
replay window. An error behind that throws the records away and leaves the windows
as they are then.
-/

namespace Dimpl.Dtls13

open Nom Program

namespace Engine

/-- `decrypt_sequence_number` as a function of the engine; none where the suite is
missing. -/
def unmask (e : Engine) (recordSlice : Bytes) : Option Bytes :=
  let flags := recordSlice.headD 0
  let headerLen := Dtls13Record.unifiedHeaderLen flags
  if Dtls13Record.isCiphertextHeader flags && e.peerEncryptionEnabled &&
      headerLen + 16 ≤ recordSlice.length then
    match e.recvKeys (e.resolveEpoch (Dtls13Record.epochBits flags)) with
    | none => some recordSlice
    | some keys => e.suiteProvider.map fun suite =>
      flags :: xorMask ((recordSlice.drop 1).take (Dtls13Record.seqLen flags))
          (suite.encryptSn keys.snKey ((recordSlice.drop headerLen).take 16)) ++
        recordSlice.drop (1 + Dtls13Record.seqLen flags)
  else some recordSlice

/-- The record is not protected, or taken as such: it is kept as it is. -/
def KeepsRaw (e : Engine) (recordSlice : Bytes) : Prop :=
  ∃ buffer r, e.unmask recordSlice = some buffer ∧ Record.ofBuffer buffer = .ok r ∧
    (!Dtls13Record.isCiphertextHeader (recordSlice.headD 0) || !e.peerEncryptionEnabled) = true

/-- The record passes the replay check and the cipher opens it. -/
def Opens (e : Engine) (recordSlice : Bytes) : Prop :=
  ∃ buffer r suite opened, e.unmask recordSlice = some buffer ∧ Record.ofBuffer buffer = .ok r ∧
    (!Dtls13Record.isCiphertextHeader (recordSlice.headD 0) || !e.peerEncryptionEnabled) = false ∧
    e.replayCheck (e.fullSequence (recordSlice.headD 0) r) = true ∧
    e.suiteProvider = some suite ∧
    ¬(r.buffer.drop r.record.fragmentRange.start).length < suite.minProtectedFragmentLen ∧
    e.decryptRecord (r.buffer.take r.record.fragmentRange.start)
      (e.fullSequence (recordSlice.headD 0) r) (r.buffer.drop r.record.fragmentRange.start) =
        .ok opened

/-- A number that was acceptable is not any more. -/
def Spent (e e' : Engine) : Prop :=
  ∃ sequence, e.replayCheck sequence = true ∧ e'.replayCheck sequence = false

/-- Numbers that were refused still are. -/
def Refuses (e e' : Engine) : Prop :=
  ∀ sequence, e.replayCheck sequence = false → e'.replayCheck sequence = false

/-- The datagram has left no trace: the windows, the expected numbers and the queues
are what they were, and a record of it that could be opened still can. -/
def Untouched (e : Engine) (datagram : Bytes) (e' : Engine) : Prop :=
  e'.hsReplay = e.hsReplay ∧ e'.hsExpectedRecvSeq = e.hsExpectedRecvSeq ∧
    e'.appRecvKeys = e.appRecvKeys ∧ e'.queueRx = e.queueRx ∧ e'.queueTx = e.queueTx ∧
    ∀ slice ∈ recordSlices datagram, e.Opens slice → e'.Opens slice

end Engine

section Windows

variable {e e' : Engine}

instance : Std.Refl Engine.Refuses := ⟨fun _ _ refused => refused⟩

instance : IsTrans Engine Engine.Refuses :=
  ⟨fun _ _ _ first second sequence refused => second sequence (first sequence refused)⟩

theorem Engine.Spent.later {e'' : Engine} (spent : Engine.Spent e e')
    (refuses : Engine.Refuses e' e'') : Engine.Spent e e'' := by
  obtain ⟨sequence, accepted, refused⟩ := spent
  exact ⟨sequence, accepted, refuses sequence refused⟩

/-- Looking an epoch up after an update of the first entry of some epoch. -/
theorem find_updateFirst {epoch other : Nat} {f : RecvEpochEntry → RecvEpochEntry}
    (same : ∀ entry, (f entry).epoch = entry.epoch) {entries : List RecvEpochEntry} :
    (Engine.updateFirst epoch f entries).find? (fun entry => entry.epoch = other) =
      if other = epoch then (entries.find? fun entry => entry.epoch = other).map f
      else entries.find? fun entry => entry.epoch = other := by
  induction entries with
  | nil => simp [Engine.updateFirst]
  | cons entry rest inductionHypothesis =>
      unfold Engine.updateFirst
      by_cases isEpoch : entry.epoch = epoch
      · by_cases isOther : other = epoch
        · simp [isEpoch, isOther, same]
        · have differs : ¬epoch = other := fun h => isOther h.symm
          simp [isEpoch, isOther, same, differs]
      · by_cases isOther : entry.epoch = other
        · have differs : ¬other = epoch := fun h => isEpoch (isOther.trans h)
          simp [isOther, differs]
        · simp [isEpoch, isOther, inductionHypothesis]

/-- What the replay check says after a number was recorded. -/
theorem Engine.replayCheck_update {sequence other : Sequence} :
    (e.replayUpdate sequence).replayCheck other = true →
      e.replayCheck other = true ∧ (e.replayCheck sequence = true → other ≠ sequence) := by
  unfold Engine.replayUpdate
  by_cases handshake : sequence.epoch = 2
  · rw [if_pos handshake]
    by_cases same : other.epoch = 2
    · simp only [Engine.replayCheck, if_pos same, if_pos handshake]
      intro accepted
      refine ⟨?_, fun _ => ?_⟩
      · by_contra refused
        simp [ReplayWindow.update_check_mono e.hsReplay sequence.sequenceNumber
          (Bool.eq_false_of_not_eq_true refused)] at accepted
      · rintro rfl
        simp [ReplayWindow.update_check_self] at accepted
    · simp only [Engine.replayCheck, if_neg same, Engine.recvEntry]
      refine fun accepted => ⟨accepted, fun _ => ?_⟩
      rintro rfl
      exact same handshake
  · rw [if_neg handshake]
    by_cases same : other.epoch = 2
    · simp only [Engine.replayCheck, if_pos same]
      refine fun accepted => ⟨accepted, fun _ => ?_⟩
      rintro rfl
      exact handshake same
    · have found := @find_updateFirst sequence.epoch other.epoch
        (fun entry => entry.receive sequence.sequenceNumber) (fun _ => rfl) e.appRecvKeys
      simp only [Engine.replayCheck, if_neg same, if_neg handshake, Engine.recvEntry, found]
      by_cases isEpoch : other.epoch = sequence.epoch
      · rw [if_pos isEpoch, isEpoch]
        cases e.appRecvKeys.find? fun entry => entry.epoch = sequence.epoch with
        | none => simp
        | some entry =>
            simp only [Option.map_some, RecvEpochEntry.receive]
            intro accepted
            refine ⟨?_, fun _ => ?_⟩
            · by_contra refused
              simp [ReplayWindow.update_check_mono entry.replay sequence.sequenceNumber
                (Bool.eq_false_of_not_eq_true refused)] at accepted
            · rintro rfl
              simp [ReplayWindow.update_check_self] at accepted
      · rw [if_neg isEpoch]
        refine fun accepted => ⟨accepted, fun _ => ?_⟩
        rintro rfl
        exact isEpoch rfl

theorem Engine.Refuses.of_opened {sequence : Sequence} {event : Event} :
    Engine.Refuses e ((e.replayUpdate sequence).logEvent event) := by
  intro other refused
  by_contra accepted
  have passes := (Engine.replayCheck_update (Bool.eq_true_of_not_eq_false accepted)).1
  rw [refused] at passes
  cases passes

theorem Engine.Spent.of_opened {sequence : Sequence} {event : Event}
    (fresh : e.replayCheck sequence = true) :
    Engine.Spent e ((e.replayUpdate sequence).logEvent event) := by
  refine ⟨sequence, fresh, ?_⟩
  by_contra accepted
  exact (Engine.replayCheck_update (Bool.eq_true_of_not_eq_false accepted)).2 fresh rfl

end Windows

section Parsing

variable {e : Engine}

theorem decryptSequenceNumber_post {recordSlice : Bytes} :
    Post (decryptSequenceNumber recordSlice) e
      (fun buffer e' => e' = e ∧ e.unmask recordSlice = some buffer)
      (fun fault _ => fault.isPanic = true) := by
  unfold decryptSequenceNumber Engine.unmask
  rw [post_bind, post_get]
  dsimp only
  rw [post_ite]
  refine ⟨fun masked => ?_, fun clear => ?_⟩
  · rw [if_pos masked]
    cases e.recvKeys (e.resolveEpoch (Dtls13Record.epochBits (recordSlice.headD 0))) with
    | none => exact ⟨rfl, rfl⟩
    | some keys =>
        dsimp only
        rw [post_bind]
        unfold suiteProvider
        rw [post_bind, post_get, post_orThrow]
        refine ⟨fun suite isSuite => ⟨rfl, ?_⟩, fun _ => rfl⟩
        rw [isSuite]
        rfl
  · rw [if_neg clear]
    exact ⟨rfl, rfl⟩

/-- What `Record::parse` does to the windows. -/
theorem openRecord_discard {recordSlice buffer : Bytes} {r : Record}
    (unmasked : e.unmask recordSlice = some buffer) (parsed : Record.ofBuffer buffer = .ok r)
    (closed : (!Dtls13Record.isCiphertextHeader (recordSlice.headD 0) ||
      !e.peerEncryptionEnabled) = false) :
    Post (openRecord recordSlice r) e
      (fun result e' => (¬e.Opens recordSlice ∧ e' = e ∧ result = none) ∨
        (e.Opens recordSlice ∧ Engine.Spent e e'))
      (fun fault _ => fault.isPanic = true) := by
  -- The record that is opened is the one that was parsed.
  have unique : ∀ buffer' r', e.unmask recordSlice = some buffer' → Record.ofBuffer buffer' = .ok r' →
      r' = r := by
    intro buffer' r' unmasked' parsed'
    cases unmasked.symm.trans unmasked'
    cases parsed.symm.trans parsed'
    rfl
  unfold openRecord
  rw [post_bind, post_get]
  dsimp only
  rw [post_ite]
  refine ⟨fun refused => .inl ⟨?_, rfl, rfl⟩, fun fresh => ?_⟩
  · rintro ⟨buffer', r', suite, opened, unmasked', parsed', _, accepted, _⟩
    cases unique _ _ unmasked' parsed'
    rw [accepted] at refused
    cases refused
  · simp only [Bool.not_eq_true, Bool.not_eq_false'] at fresh
    rw [post_bind]
    unfold suiteProvider
    rw [post_bind, post_get, post_orThrow]
    refine ⟨fun suite isSuite => ?_, fun _ => rfl⟩
    rw [post_ite]
    refine ⟨fun short => .inl ⟨?_, rfl, rfl⟩, fun long => ?_⟩
    · rintro ⟨buffer', r', suite', opened, unmasked', parsed', _, _, isSuite', long, _⟩
      cases unique _ _ unmasked' parsed'
      cases isSuite.symm.trans isSuite'
      exact long short
    · split
      · rename_i failed
        refine .inl ⟨?_, rfl, rfl⟩
        rintro ⟨buffer', r', suite', opened, unmasked', parsed', _, _, _, _, decrypted⟩
        cases unique _ _ unmasked' parsed'
        rw [failed] at decrypted
        cases decrypted
      · rename_i key plaintext decrypted
        rw [post_bind, post_modify]
        have opens : e.Opens recordSlice :=
          ⟨buffer, r, suite, (key, plaintext), unmasked, parsed, closed, fresh, isSuite, long, decrypted⟩
        split
        · exact .inr ⟨opens, .of_opened fresh⟩
        · exact .inr ⟨opens, .of_opened fresh⟩

theorem parseRecord_discard {recordSlice : Bytes} :
    Post (parseRecord recordSlice) e
      (fun result e' => (¬e.Opens recordSlice ∧ e' = e ∧ (result.isSome = true ↔ e.KeepsRaw recordSlice)) ∨
        (e.Opens recordSlice ∧ Engine.Spent e e'))
      (fun fault _ => fault.isPanic = true) := by
  unfold parseRecord
  rw [post_bind]
  refine decryptSequenceNumber_post.mono ?_ fun _ _ panics => panics
  rintro buffer _ ⟨rfl, unmasked⟩
  rw [post_bind, post_get]
  cases parsed : Record.ofBuffer buffer with
  | error err =>
      refine .inl ⟨?_, rfl, ?_⟩
      · rintro ⟨buffer', r', suite, opened, unmasked', parsed', _⟩
        cases unmasked.symm.trans unmasked'
        rw [parsed] at parsed'
        cases parsed'
      · refine ⟨fun isSome => by simp at isSome, ?_⟩
        rintro ⟨buffer', r', unmasked', parsed', _⟩
        cases unmasked.symm.trans unmasked'
        rw [parsed] at parsed'
        cases parsed'
  | ok r =>
      dsimp only
      rw [post_ite]
      refine ⟨fun clear => .inl ⟨?_, rfl, ?_⟩, fun closed => ?_⟩
      · rintro ⟨buffer', r', suite, opened, unmasked', parsed', isClosed, _⟩
        rw [clear] at isClosed
        cases isClosed
      · exact ⟨fun _ => ⟨buffer, r, unmasked, parsed, clear⟩, fun _ => rfl⟩
      · simp only [Bool.not_eq_true] at closed
        refine (openRecord_discard unmasked parsed closed).mono ?_ fun _ _ panics => panics
        rintro result e' (⟨closed', rfl, rfl⟩ | opened)
        · refine .inl ⟨closed', rfl, fun isSome => by simp at isSome, ?_⟩
          rintro ⟨_, _, _, _, clear⟩
          rw [closed] at clear
          cases clear
        · exact .inr opened

theorem parseRecord_refuses {recordSlice : Bytes} :
    Along Engine.Refuses (parseRecord recordSlice) := by
  refine along_bind decryptSequenceNumber_readOnly.along fun buffer => along_bind along_get fun e => ?_
  split
  · exact along_pure
  · refine along_ite (fun _ => along_pure) fun _ => ?_
    refine along_bind along_get fun e => along_ite (fun _ => along_pure) fun _ => ?_
    refine along_bind suiteProvider_readOnly.along fun suite => along_ite (fun _ => along_pure) fun _ => ?_
    split
    · exact along_pure
    · refine along_bind (along_modify fun e => .of_opened) fun _ => ?_
      split <;> exact along_pure

theorem parseRecordsLoop_refuses {fuel : Nat} {packet : Bytes} {parsed : List Record} :
    Along Engine.Refuses (parseRecordsLoop fuel packet parsed) := by
  induction fuel generalizing packet parsed with
  | zero => exact along_pure
  | succ fuel inductionHypothesis =>
      unfold parseRecordsLoop
      refine along_ite (fun _ => along_pure) fun _ => ?_
      split
      · exact along_throw
      · exact along_pure
      · refine along_ite (fun _ => along_throw) fun _ => along_bind parseRecord_refuses fun found => ?_
        split
        · exact inductionHypothesis
        · exact along_ite (fun _ => inductionHypothesis) fun _ => along_throw

/-- A datagram that is discarded half-way has left a trace exactly when a record in front
of the failure was opened. -/
theorem parseRecordsLoop_discard {fuel : Nat} {packet : Bytes} {parsed : List Record} :
    Post (parseRecordsLoop fuel packet parsed) e (fun _ _ => True)
      (fun fault e' => fault.isPanic = true ∨
        (¬Commit.Early e.Opens e.KeepsRaw 16 parsed.length (recordSlicesLoop fuel packet) ∧ e' = e) ∨
        (Commit.Early e.Opens e.KeepsRaw 16 parsed.length (recordSlicesLoop fuel packet) ∧
          Engine.Spent e e')) := by
  induction fuel generalizing packet parsed with
  | zero => trivial
  | succ fuel inductionHypothesis =>
      unfold parseRecordsLoop recordSlicesLoop
      rw [post_ite]
      refine ⟨fun _ => trivial, fun more => ?_⟩
      simp only [Bool.not_eq_true] at more
      rw [more, if_neg (by simp)]
      rcases recordEnd packet with reason | boundary
      · exact .inr (.inl ⟨Commit.early_nil, rfl⟩)
      cases boundary with
      | none => trivial
      | some stop =>
        dsimp only
        rw [post_ite]
        refine ⟨fun cut => ?_, fun whole => ?_⟩
        · rw [if_pos cut]
          exact .inr (.inl ⟨Commit.early_nil, rfl⟩)
        · rw [if_neg whole, post_bind]
          refine parseRecord_discard.mono ?_ fun _ _ panics => .inl panics
          rintro found e₁ (⟨closed, rfl, raw⟩ | ⟨opens, spent⟩)
          · cases found with
            | none =>
                have drops : ¬e₁.KeepsRaw (packet.take stop) := fun keeps => by simpa using raw.mpr keeps
                rw [Commit.early_dropped closed drops]
                exact inductionHypothesis
            | some r =>
                have keeps : e₁.KeepsRaw (packet.take stop) := raw.mp rfl
                dsimp only
                rw [post_ite]
                refine ⟨fun room => ?_, fun full => ?_⟩
                · rw [Commit.early_kept closed keeps room]
                  have next := @inductionHypothesis (packet.drop stop) (parsed ++ [r])
                  rw [List.length_append, List.length_singleton] at next
                  exact next
                · exact .inr (.inl ⟨Commit.early_full closed keeps full, rfl⟩)
          · -- The window has moved on and nothing takes it back.
            refine ((?_ : Along Engine.Refuses _) e₁).mono (fun _ _ _ => trivial) fun _ _ refuses =>
              .inr (.inr ⟨.here opens, spent.later refuses⟩)
            split
            · exact parseRecordsLoop_refuses
            · exact along_ite (fun _ => parseRecordsLoop_refuses) fun _ => along_throw

/-- What `parse_packet` leaves behind when it gives a datagram up. -/
theorem receivePacket_discard {datagram : Bytes} {reason : TransientError} {e' : Engine}
    (discarded : receivePacket datagram e = .error (.transient reason) e') :
    e.Untouched datagram e' ↔ ¬Commit.Early e.Opens e.KeepsRaw 16 0 (recordSlices datagram) := by
  -- Only the first pass reports what the caller does not see.
  have outcome : Post (receivePacket datagram) e (fun _ _ => True) (fun fault e' => fault.Public ∨
      (¬Commit.Early e.Opens e.KeepsRaw 16 0 (recordSlices datagram) ∧
        e' = e.logEvent (.received datagram)) ∨
      (Commit.Early e.Opens e.KeepsRaw 16 0 (recordSlices datagram) ∧
        Engine.Spent (e.logEvent (.received datagram)) e')) := by
    unfold receivePacket parsePacket parseRecords
    rw [post_bind, post_modify, post_bind, post_bind]
    refine parseRecordsLoop_discard.mono (fun parsed e₁ _ => ?_) fun fault e₁ failed => ?_
    · refine (classifyRecords_public e₁).mono (fun records e₂ _ => ?_) fun _ _ isPublic => .inl isPublic
      cases Incoming.ofRecords records with
      | none => trivial
      | some incoming =>
          exact (insertIncoming_public e₂).mono (fun _ _ _ => trivial) fun _ _ isPublic => .inl isPublic
    · rcases failed with panics | traced
      · cases fault with
        | panic site => exact .inl trivial
        | transient reason => cases panics
        | fatal reason => cases panics
      · exact .inr traced
  rw [Post, discarded] at outcome
  rcases outcome with hidden | ⟨intact, rfl⟩ | ⟨early, sequence, accepted, refused⟩
  · cases hidden
  · exact ⟨fun _ => intact, fun _ => ⟨rfl, rfl, rfl, rfl, rfl, fun _ _ opens => opens⟩⟩
  · refine ⟨?_, fun intact => absurd early intact⟩
    rintro ⟨handshake, _, application, _⟩
    -- The same windows would accept the number that was used up.
    have same : e'.replayCheck sequence = e.replayCheck sequence := by
      unfold Engine.replayCheck Engine.recvEntry
      rw [handshake, application]
    have free : e.replayCheck sequence = true := accepted
    rw [same, free] at refused
    cases refused

end Parsing

end Dimpl.Dtls13
