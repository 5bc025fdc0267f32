import Dimpl.Dtls12.Engine.Faults
import Dimpl.Dtls12.Engine.Receipt
import Dimpl.Lib.Commit

/-!
# Datagrams a DTLS 1.2 engine discards

`Records::parse` opens the records of a datagram one by one, commits each to the replay
window and notes application data. An error behind that throws the records away and
leaves the window as it is then.
-/

namespace Dimpl.Dtls12

open Nom Program

namespace Engine

/-- The record is not protected, or taken as such: it is kept as it is. -/
def KeepsRaw (e : Engine) (recordSlice : Bytes) : Prop :=
  ∃ r, Record.ofBuffer recordSlice 0 = .ok r ∧
    (r.sequence.epoch = 0 || !e.peerEncryptionEnabled) = true

/-- The nonce a received record is opened with; none where the keys are missing. -/
def receiveNonce (e : Engine) (dtls : DTLSRecord) (buffer : Bytes) : Option Bytes :=
  (e.cryptoContext.writeIv (!e.isClient)).bind fun iv =>
    if e.explicitNonceLen = 0 then
      if iv.length = 12 then some (Nonce.xor iv (seq64 dtls.sequence)) else none
    else if iv.length + (dtls.nonceWithLen buffer e.explicitNonceLen).length = 12 then
      some (Nonce.new iv (dtls.nonceWithLen buffer e.explicitNonceLen))
    else none

/-- The record passes the replay check and the cipher opens it. -/
def Opens (e : Engine) (recordSlice : Bytes) : Prop :=
  ∃ r nonce plaintext, Record.ofBuffer recordSlice 0 = .ok r ∧
    (r.sequence.epoch = 0 || !e.peerEncryptionEnabled) = false ∧
    e.replayCheck r.record.sequence = true ∧ ¬r.record.length < e.minProtectedFragmentLen ∧
    e.receiveNonce r.record recordSlice = some nonce ∧
    e.decryptData (recordSlice.drop (DTLSRecord.headerLen + e.explicitNonceLen))
      (e.openAad r.record) nonce = .ok plaintext

/-- A number that was acceptable is not any more. -/
def Spent (e e' : Engine) : Prop :=
  ∃ number, e.replay.check number = true ∧ e'.replay.check number = false

/-- Numbers that were refused still are. -/
def Refuses (e e' : Engine) : Prop :=
  ∀ number, e.replay.check number = false → e'.replay.check number = false

/-- The datagram has left no trace: the window, the confirmation of the handshake and
the queues are what they were, and a record of it that could be opened still can. -/
def Untouched (e : Engine) (datagram : Bytes) (e' : Engine) : Prop :=
  e'.replay = e.replay ∧ e'.peerHandshakeConfirmed = e.peerHandshakeConfirmed ∧
    e'.queueRx = e.queueRx ∧ e'.queueTx = e.queueTx ∧
    ∀ slice ∈ recordSlices datagram, e.Opens slice → e'.Opens slice

end Engine

section Windows

variable {e e' : Engine}

instance : Std.Refl Engine.Refuses := ⟨fun _ _ refused => refused⟩

instance : IsTrans Engine Engine.Refuses :=
  ⟨fun _ _ _ first second number refused => second number (first number refused)⟩

theorem Engine.Spent.later {e'' : Engine} (spent : Engine.Spent e e')
    (refuses : Engine.Refuses e' e'') : Engine.Spent e e'' := by
  obtain ⟨number, accepted, refused⟩ := spent
  exact ⟨number, accepted, refuses number refused⟩

theorem Engine.Refuses.of_opened {dtls : DTLSRecord} {event : Event} :
    Engine.Refuses e ((e.noteOpened dtls).logEvent event) :=
  fun _ refused => ReplayWindow.update_check_mono e.replay dtls.sequence.sequenceNumber refused

theorem Engine.Spent.of_opened {dtls : DTLSRecord} {event : Event}
    (fresh : e.replayCheck dtls.sequence = true) :
    Engine.Spent e ((e.noteOpened dtls).logEvent event) :=
  ⟨dtls.sequence.sequenceNumber, fresh, ReplayWindow.update_check_self e.replay _⟩

end Windows

section Parsing

variable {e : Engine}

theorem openNonce_post {dtls : DTLSRecord} {buffer : Bytes} :
    Post (openNonce dtls buffer) e (fun nonce e' => e' = e ∧ e.receiveNonce dtls buffer = some nonce)
      (fun fault _ => fault.isPanic = true) := by
  unfold openNonce peerIv Engine.receiveNonce
  rw [post_bind, post_bind, post_get, post_orThrow]
  refine ⟨fun iv isIv => ?_, fun _ => rfl⟩
  rw [post_bind, post_get, post_ite, isIv]
  simp only [Option.bind_some]
  refine ⟨fun implicit => ?_, fun explicit => ?_⟩
  · rw [if_pos implicit]
    unfold xorNonce
    rw [post_ite]
    refine ⟨fun twelve => ⟨rfl, if_pos twelve⟩, fun _ => rfl⟩
  · rw [if_neg explicit]
    unfold joinNonce
    rw [post_ite]
    refine ⟨fun twelve => ⟨rfl, if_pos twelve⟩, fun _ => rfl⟩

/-- What `Record::parse` does to the window. An error is one of the caller, or it comes
behind an opening. -/
theorem openRecord_discard {recordSlice : Bytes} {r : Record}
    (parsed : Record.ofBuffer recordSlice 0 = .ok r)
    (closed : (r.sequence.epoch = 0 || !e.peerEncryptionEnabled) = false) :
    Post (openRecord recordSlice r.record) e
      (fun result e' => (¬e.Opens recordSlice ∧ e' = e ∧ result = none) ∨
        (e.Opens recordSlice ∧ Engine.Spent e e'))
      (fun fault e' => fault.Public ∨ (e.Opens recordSlice ∧ Engine.Spent e e')) := by
  have unique : ∀ r', Record.ofBuffer recordSlice 0 = .ok r' → r' = r := by
    intro r' parsed'
    cases parsed.symm.trans parsed'
    rfl
  unfold openRecord
  rw [post_bind, post_get]
  dsimp only
  rw [post_ite]
  refine ⟨fun refused => .inl ⟨?_, rfl, rfl⟩, fun fresh => ?_⟩
  · rintro ⟨r', nonce, plaintext, parsed', _, accepted, _⟩
    cases unique _ parsed'
    rw [accepted] at refused
    cases refused
  · simp only [Bool.not_eq_true, Bool.not_eq_false'] at fresh
    rw [post_ite]
    refine ⟨fun short => .inl ⟨?_, rfl, rfl⟩, fun long => ?_⟩
    · rintro ⟨r', nonce, plaintext, parsed', _, _, long, _⟩
      cases unique _ parsed'
      exact long short
    · rw [post_bind]
      refine openNonce_post.mono ?_ fun fault _ panics => .inl ?_
      · rintro nonce _ ⟨rfl, isNonce⟩
        split
        · rename_i e₁ _ _ failed
          rw [post_ite]
          refine ⟨fun _ => .inl ⟨?_, rfl, rfl⟩, fun _ => .inl trivial⟩
          rintro ⟨r', nonce', plaintext, parsed', _, _, _, isNonce', decrypted⟩
          cases unique _ parsed'
          cases isNonce.symm.trans isNonce'
          rw [failed] at decrypted
          cases decrypted
        · rename_i plaintext decrypted
          rw [post_bind, post_modify]
          have opens : Engine.Opens _ recordSlice :=
            ⟨r, nonce, plaintext, parsed, closed, fresh, long, isNonce, decrypted⟩
          split
          · exact .inr ⟨opens, .of_opened fresh⟩
          · exact .inr ⟨opens, .of_opened fresh⟩
      · cases fault with
        | panic site => trivial
        | transient reason => cases panics
        | fatal reason => cases panics

theorem parseRecord_discard {recordSlice : Bytes} :
    Post (parseRecord recordSlice) e
      (fun result e' => (¬e.Opens recordSlice ∧ e' = e ∧ (result.isSome = true ↔ e.KeepsRaw recordSlice)) ∨
        (e.Opens recordSlice ∧ Engine.Spent e e'))
      (fun fault e' => fault.Public ∨ (e.Opens recordSlice ∧ Engine.Spent e e')) := by
  unfold parseRecord
  rw [post_bind, post_get]
  cases parsed : Record.ofBuffer recordSlice 0 with
  | error err =>
      refine .inl ⟨?_, rfl, fun isSome => by simp at isSome, ?_⟩
      · rintro ⟨r', nonce, plaintext, parsed', _⟩
        rw [parsed] at parsed'
        cases parsed'
      · rintro ⟨r', parsed', _⟩
        rw [parsed] at parsed'
        cases parsed'
  | ok r =>
      dsimp only
      rw [post_ite]
      refine ⟨fun clear => .inl ⟨?_, rfl, fun _ => ⟨r, parsed, clear⟩, fun _ => rfl⟩, fun closed => ?_⟩
      · rintro ⟨r', nonce, plaintext, parsed', isClosed, _⟩
        cases parsed.symm.trans parsed'
        rw [clear] at isClosed
        cases isClosed
      · simp only [Bool.not_eq_true] at closed
        refine (openRecord_discard parsed closed).mono ?_ fun _ _ failed => failed
        rintro result e' (⟨closed', rfl, rfl⟩ | opened)
        · refine .inl ⟨closed', rfl, fun isSome => by simp at isSome, ?_⟩
          rintro ⟨r', parsed', clear⟩
          cases parsed.symm.trans parsed'
          rw [closed] at clear
          cases clear
        · exact .inr opened

theorem parseRecord_refuses {recordSlice : Bytes} :
    Along Engine.Refuses (parseRecord recordSlice) := by
  refine along_bind along_get fun e => ?_
  split
  · exact along_pure
  · refine along_ite (fun _ => along_pure) fun _ => ?_
    refine along_bind along_get fun e => along_ite (fun _ => along_pure) fun _ => ?_
    refine along_ite (fun _ => along_pure) fun _ => along_bind ?_ fun nonce => ?_
    · refine along_bind (along_bind along_get fun _ => along_orThrow) fun iv => ?_
      refine along_bind along_get fun e => along_ite (fun _ => ?_) fun _ => ?_
      · exact along_ite (fun _ => along_pure) fun _ => along_throw
      · exact along_ite (fun _ => along_pure) fun _ => along_throw
    · split
      · exact along_ite (fun _ => along_pure) fun _ => along_throw
      · refine along_bind (along_modify fun e => .of_opened) fun _ => ?_
        split
        · exact along_throw
        · exact along_pure

theorem parseRecordsLoop_refuses {fuel : Nat} {packet : Bytes} {parsed : List Record} :
    Along Engine.Refuses (parseRecordsLoop fuel packet parsed) := by
  induction fuel generalizing packet parsed with
  | zero => exact along_pure
  | succ fuel inductionHypothesis =>
      unfold parseRecordsLoop
      refine along_ite (fun _ => along_pure) fun _ => ?_
      split
      · exact along_throw
      · refine along_bind parseRecord_refuses fun found => ?_
        split
        · exact inductionHypothesis
        · exact along_ite (fun _ => inductionHypothesis) fun _ => along_throw

/-- A datagram that is discarded half-way has left a trace exactly when a record in front
of the failure was opened. -/
theorem parseRecordsLoop_discard {fuel : Nat} {packet : Bytes} {parsed : List Record} :
    Post (parseRecordsLoop fuel packet parsed) e (fun _ _ => True)
      (fun fault e' => fault.Public ∨
        (¬Commit.Early e.Opens e.KeepsRaw 8 parsed.length (recordSlicesLoop fuel packet) ∧ e' = e) ∨
        (Commit.Early e.Opens e.KeepsRaw 8 parsed.length (recordSlicesLoop fuel packet) ∧
          Engine.Spent e e')) := by
  induction fuel generalizing packet parsed with
  | zero => trivial
  | succ fuel inductionHypothesis =>
      unfold parseRecordsLoop recordSlicesLoop
      rw [post_ite]
      refine ⟨fun _ => trivial, fun more => ?_⟩
      cases recordEnd packet with
      | none => exact .inr (.inl ⟨Commit.early_nil, rfl⟩)
      | some stop =>
          dsimp only
          rw [post_bind]
          refine parseRecord_discard.mono ?_ fun _ _ failed => ?_
          · rintro found e₁ (⟨closed, rfl, raw⟩ | ⟨opens, spent⟩)
            · cases found with
              | none =>
                  have drops : ¬e₁.KeepsRaw (packet.take stop) := fun keeps => by
                    simpa using raw.mpr keeps
                  rw [Commit.early_dropped closed drops]
                  exact inductionHypothesis
              | some r =>
                  have keeps : e₁.KeepsRaw (packet.take stop) := raw.mp rfl
                  dsimp only
                  rw [post_ite]
                  refine ⟨fun room => ?_, fun full => ?_⟩
                  · rw [Commit.early_kept closed keeps room]
                    have next := @inductionHypothesis (packet.drop stop) (parsed ++ [r])
                    rw [List.length_append, List.length_singleton] at next
                    exact next
                  · exact .inr (.inl ⟨Commit.early_full closed keeps full, rfl⟩)
            · -- The window has moved on and nothing takes it back.
              refine ((?_ : Along Engine.Refuses _) e₁).mono (fun _ _ _ => trivial) fun _ _ refuses =>
                .inr (.inr ⟨.here opens, spent.later refuses⟩)
              split
              · exact parseRecordsLoop_refuses
              · exact along_ite (fun _ => parseRecordsLoop_refuses) fun _ => along_throw
          · rcases failed with isPublic | ⟨opens, spent⟩
            · exact .inl isPublic
            · exact .inr (.inr ⟨.here opens, spent⟩)

/-- What `parse_packet` leaves behind when it gives a datagram up. -/
theorem receivePacket_discard {datagram : Bytes} {reason : TransientError} {e' : Engine}
    (discarded : receivePacket datagram e = .error (.transient reason) e') :
    e.Untouched datagram e' ↔ ¬Commit.Early e.Opens e.KeepsRaw 8 0 (recordSlices datagram) := by
  -- Only the first pass reports what the caller does not see.
  have outcome : Post (receivePacket datagram) e (fun _ _ => True) (fun fault e' => fault.Public ∨
      (¬Commit.Early e.Opens e.KeepsRaw 8 0 (recordSlices datagram) ∧
        e' = e.logEvent (.received datagram)) ∨
      (Commit.Early e.Opens e.KeepsRaw 8 0 (recordSlices datagram) ∧
        Engine.Spent (e.logEvent (.received datagram)) e')) := by
    unfold receivePacket parsePacket parseRecords
    rw [post_bind, post_modify, post_bind, post_bind]
    refine parseRecordsLoop_discard.mono (fun parsed e₁ _ => ?_) fun _ _ failed => failed
    refine (classifyRecords_public e₁).mono (fun records e₂ _ => ?_) fun _ _ isPublic => .inl isPublic
    cases Incoming.ofRecords records with
    | none => trivial
    | some incoming =>
        exact (insertIncoming_public e₂).mono (fun _ _ _ => trivial) fun _ _ isPublic => .inl isPublic
  rw [Post, discarded] at outcome
  rcases outcome with hidden | ⟨intact, rfl⟩ | ⟨early, number, accepted, refused⟩
  · cases hidden
  · exact ⟨fun _ => intact, fun _ => ⟨rfl, rfl, rfl, rfl, fun _ _ opens => opens⟩⟩
  · refine ⟨?_, fun intact => absurd early intact⟩
    rintro ⟨window, _⟩
    have free : e.replay.check number = true := accepted
    rw [window, free] at refused
    cases refused

end Parsing

end Dimpl.Dtls12
