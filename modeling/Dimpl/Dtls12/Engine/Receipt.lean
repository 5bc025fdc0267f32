import Dimpl.Dtls12.Engine.Step

/-!
# Receiving is a sequence of steps

From a datagram to the receive queue: every record slice that is parsed is part
of the datagram, and what enters the queue was admitted.
-/

namespace Dimpl.Dtls12

open Nom Program

section Buffers

variable {recordSlice plaintext : Bytes} {ciph : Nat}

/-- An opened buffer starts with the header of its record and the new length. -/
theorem openedBuffer_prefix (long : DTLSRecord.headerLen ≤ recordSlice.length) :
    (openedBuffer recordSlice plaintext ciph).take 11 = recordSlice.take 11 ∧
      ((openedBuffer recordSlice plaintext ciph).drop 11).take 2 = be16 plaintext.length := by
  have front : (recordSlice.take 11).length = 11 := by
    rw [List.length_take, Nat.min_eq_left]
    exact Nat.le_trans (by decide) long
  unfold openedBuffer
  simp only [List.append_assoc]
  refine ⟨List.take_left' front, ?_⟩
  rw [List.drop_left' front]
  exact List.take_left' rfl

/-- The header of an opened buffer has the type and the number it had. -/
theorem openedBuffer_header (plaintext : Bytes) (ciph : Nat)
    (long : DTLSRecord.headerLen ≤ recordSlice.length) (start : Nat) :
    (DTLSRecord.ofBytes (openedBuffer recordSlice plaintext ciph) start).contentType =
        (DTLSRecord.ofBytes recordSlice start).contentType ∧
      (DTLSRecord.ofBytes (openedBuffer recordSlice plaintext ciph) start).sequence =
        (DTLSRecord.ofBytes recordSlice start).sequence ∧
      (DTLSRecord.ofBytes (openedBuffer recordSlice plaintext ciph) start).length =
        plaintext.length % 65536 := by
  have ⟨front, length⟩ : (openedBuffer recordSlice plaintext ciph).take 11 = recordSlice.take 11 ∧
      ((openedBuffer recordSlice plaintext ciph).drop 11).take 2 = be16 plaintext.length :=
    openedBuffer_prefix long
  -- All header fields but the length lie in the first eleven bytes.
  have inFront : ∀ bytes : Bytes, ∀ n m, n + m ≤ 11 →
      (bytes.drop n).take m = ((bytes.take 11).drop n).take m := by
    intro bytes n m bound
    rw [List.drop_take, List.take_take, Nat.min_eq_left (by omega)]
  have head : ∀ bytes : Bytes, bytes.headD 0 = (bytes.take 11).headD 0 := by
    intro bytes
    cases bytes <;> rfl
  refine ⟨?_, ?_, ?_⟩
  · simp only [DTLSRecord.ofBytes]
    rw [head, front, ← head]
  · simp only [DTLSRecord.ofBytes]
    rw [inFront _ 3 2 (by decide), inFront _ 5 6 (by decide), front,
      ← inFront _ 3 2 (by decide), ← inFront _ 5 6 (by decide)]
  · simp only [DTLSRecord.ofBytes]
    rw [length, beValue_be16]

/-- The plaintext stands where the ciphertext stood. -/
theorem slice_openedBuffer (header : DTLSRecord.headerLen ≤ ciph)
    (long : ciph ≤ recordSlice.length) :
    slice (openedBuffer recordSlice plaintext ciph) ⟨ciph, ciph + plaintext.length⟩ = plaintext := by
  have front : (recordSlice.take 11 ++ be16 plaintext.length ++
      (recordSlice.take ciph).drop DTLSRecord.headerLen).length = ciph := by
    simp only [List.length_append, List.length_take, List.length_drop, length_be16,
      DTLSRecord.headerLen] at *
    omega
  simp only [slice, openedBuffer, Nat.add_sub_cancel_left]
  rw [List.append_assoc, List.drop_left' front]
  exact List.take_left' rfl

end Buffers

section Receiving

variable {S : Bytes → Prop} {K : Prop} {e e' : Engine}

/-- What protecting and opening records depends on. -/
def Engine.session (e : Engine) :
    CryptoContext × Bool × Nat × Nat × Option Dtls12CipherSuite × Config :=
  (e.cryptoContext, e.isClient, e.explicitNonceLen, e.minProtectedFragmentLen, e.cipherSuite,
    e.config)

/-- Steps leave the session and the encryption flag alone, only add to the history
and forget no number. -/
structure Grows (e e' : Engine) : Prop where
  session : e'.session = e.session
  enabled : e'.peerEncryptionEnabled = e.peerEncryptionEnabled
  log : ∀ event ∈ e.log, event ∈ e'.log
  numbers : ∀ sequence, e.replayCheck sequence = false → e'.replayCheck sequence = false

theorem Step.grows (step : Step S K e e') : Grows e e' := by
  cases step with
  | other same =>
      have session : e'.session = e.session :=
        congrArg (fun core => (core.cryptoContext, core.isClient, core.explicitNonceLen,
          core.minProtectedFragmentLen, core.cipherSuite, core.config)) same
      have enabled : e'.peerEncryptionEnabled = e.peerEncryptionEnabled :=
        congrArg Core.peerEncryptionEnabled same
      have log : e'.log = e.log := congrArg Core.log same
      have replay : e'.replay = e.replay := congrArg Core.replay same
      refine ⟨session, enabled, fun _ member => log ▸ member, fun sequence rejected => ?_⟩
      simpa [Engine.replayCheck, replay] using rejected
  | opened slice parsed fresh decrypted enabled =>
      refine ⟨rfl, rfl, fun _ member => List.mem_append_left _ member, fun sequence rejected => ?_⟩
      exact ReplayWindow.update_check_mono _ _ rejected
  | queue | told => exact ⟨rfl, rfl, fun _ member => member, fun _ rejected => rejected⟩
  | delivered released queued data =>
      exact ⟨rfl, rfl, fun _ member => List.mem_append_left _ member, fun _ rejected => rejected⟩
  | assembled carried =>
      exact ⟨rfl, rfl, fun _ member => List.mem_append_left _ member, fun _ rejected => rejected⟩
  | sealed allowed isNonce =>
      exact ⟨rfl, rfl, fun _ member => List.mem_append_left _ member, fun _ rejected => rejected⟩

theorem Steps.grows (steps : Steps S K e e') : Grows e e' := by
  induction steps with
  | refl => exact ⟨rfl, rfl, fun _ member => member, fun _ rejected => rejected⟩
  | tail _ step inductionHypothesis =>
      have last := step.grows
      exact ⟨last.session.trans inductionHypothesis.session,
        last.enabled.trans inductionHypothesis.enabled,
        fun event member => last.log event (inductionHypothesis.log event member),
        fun sequence rejected => last.numbers sequence (inductionHypothesis.numbers sequence rejected)⟩

theorem Opened.mono {log log' : List Event} {r : Record} (opened : Opened log r)
    (more : ∀ event ∈ log, event ∈ log') : Opened log' r := by
  obtain ⟨record, ciph, member, buffer⟩ := opened
  exact ⟨record, ciph, more _ member, buffer⟩

/-- An admitted record stays so along steps. -/
theorem Admitted.of_grows {r : Record} (admitted : Admitted S e r) (grows : Grows e e') :
    Admitted S e' r := by
  cases admitted with
  | raw slice parsed clear => exact .raw slice parsed (clear.imp id (grows.enabled.trans ·))
  | opened opened number header =>
      exact .opened (opened.mono grows.log) (grows.numbers _ number) header

/-- Parsing records changes the replay window, two flags and the history. -/
def Parses (e e' : Engine) : Prop :=
  ∃ replay peerHandshakeConfirmed closeNotifyReceived log,
    e' = { e with replay, peerHandshakeConfirmed, closeNotifyReceived, log }

instance : Std.Refl Parses := ⟨fun e => ⟨e.replay, _, _, e.log, rfl⟩⟩

instance : IsTrans Engine Parses :=
  ⟨by rintro _ _ _ ⟨_, _, _, _, rfl⟩ ⟨_, _, _, _, rfl⟩; exact ⟨_, _, _, _, rfl⟩⟩

/-- Quiet steps of the parser. -/
def Reads (S : Bytes → Prop) (K : Prop) (e e' : Engine) : Prop := Steps S K e e' ∧ Parses e e'

instance : Std.Refl (Reads S K) := ⟨fun e => ⟨.refl, Std.Refl.refl e⟩⟩

instance : IsTrans Engine (Reads S K) :=
  ⟨fun _ _ _ first second =>
    ⟨first.1.trans second.1, IsTrans.trans _ _ _ first.2 second.2⟩⟩

theorem Reads.refl : Reads S K e e := Std.Refl.refl e

theorem Reads.quiet (reads : Reads S K e e') : Quiet S K e e' := by
  obtain ⟨steps, _, _, _, _, rfl⟩ := reads
  exact Quiet.of_steps steps (List.Subset.refl _)

theorem peerIv_readOnly : ReadOnly peerIv := along_bind along_get fun _ => along_orThrow

theorem openNonce_readOnly {dtls : DTLSRecord} {buffer : Bytes} : ReadOnly (openNonce dtls buffer) := by
  refine along_bind peerIv_readOnly fun iv => along_bind along_get fun e => along_ite ?_ ?_
  · exact fun _ e' => xorNonce_post.mono (fun _ _ same => same.1.symm) fun _ _ same => same.symm
  · exact fun _ e' => joinNonce_post.mono (fun _ _ same => same.1.symm) fun _ _ same => same.symm

/-- What is decrypted in place is not longer than the ciphertext. -/
theorem Engine.decryptData_length {ciphertext aad nonce plaintext : Bytes}
    (decrypted : e.decryptData ciphertext aad nonce = .ok plaintext) :
    plaintext.length ≤ ciphertext.length := by
  unfold Engine.decryptData at decrypted
  cases cipher : e.cryptoContext.writeCipher (!e.isClient) with
  | error err => simp [cipher, bind, Except.bind] at decrypted
  | ok keyed =>
      cases result : keyed.decrypt ciphertext aad nonce with
      | error err => simp [cipher, result, bind, Except.bind] at decrypted
      | ok plain =>
          simp only [cipher, result, bind, Except.bind, pure, Except.pure, Except.ok.injEq] at decrypted
          rw [← decrypted]
          exact List.length_take_le _ _

/-- Whether `decrypt_data` returns Ok for a record slice. -/
def Engine.opens (e : Engine) (recordSlice : Bytes) (dtls : DTLSRecord) : Bool :=
  match value? (openNonce dtls recordSlice) e with
  | some nonce =>
    (e.decryptData (recordSlice.drop (DTLSRecord.headerLen + e.explicitNonceLen)) (e.openAad dtls)
      nonce).toBool
  | none => false

/-- What opens depends on the session only. -/
theorem Engine.opens_of_session (same : e'.session = e.session) : e'.opens = e.opens := by
  simp only [Engine.session, Prod.mk.injEq] at same
  obtain ⟨context, role, explicitLen, minLen, _⟩ := same
  funext recordSlice dtls
  have nonce : value? (openNonce dtls recordSlice) e' = value? (openNonce dtls recordSlice) e := by
    unfold openNonce peerIv
    cases iv : e.cryptoContext.writeIv (!e.isClient) with
    | none =>
        simp [value?, bind, EStateM.bind, run_get, orThrow,
          context, role, iv, run_throw]
    | some iv' =>
        simp only [value?, bind, EStateM.bind, run_get, orThrow,
          context, role, explicitLen, iv, pure, EStateM.pure]
        by_cases noExplicit : e.explicitNonceLen = 0
        · simp only [noExplicit, if_true, xorNonce]
          by_cases twelve : iv'.length = 12
          · simp only [twelve, if_true]
            rfl
          · simp only [twelve, if_false]
            rfl
        · simp only [noExplicit, if_false, joinNonce]
          by_cases twelve : iv'.length +
              (dtls.nonceWithLen recordSlice e.explicitNonceLen).length = 12
          · simp only [twelve, if_true]
            rfl
          · simp only [twelve, if_false]
            rfl
  simp only [Engine.opens, nonce, Engine.decryptData, Engine.openAad, context, role, explicitLen,
    minLen]

/-- `openRecord` leaves the state alone or commits one opening, and the record it
returns is what was opened. -/
theorem openRecord_post {recordSlice : Bytes} {r : Record} (slice : S recordSlice)
    (parsed : Record.ofBuffer recordSlice 0 = .ok r) (short : recordSlice.length ≤ 65548)
    (enabled : e.peerEncryptionEnabled = true) :
    Post (openRecord recordSlice r.record) e
      (fun result e' => Reads S K e e' ∧ ∀ r', result = some r' → Admitted S e' r' ∧
        r'.sequence = r.sequence ∧ e.replayCheck r.sequence = true ∧
          e.opens recordSlice r.record = true)
      (fun _ e' => Reads S K e e') := by
  unfold openRecord
  rw [post_bind, post_get]
  dsimp only
  rw [post_ite]
  refine ⟨fun _ => ⟨Reads.refl, by simp⟩, fun fresh => ?_⟩
  rw [post_ite]
  refine ⟨fun _ => ⟨Reads.refl, by simp⟩, fun _ => ?_⟩
  rw [post_bind]
  refine ((openNonce_readOnly e).and post_self).mono ?_ fun _ _ failed => failed.1 ▸ Reads.refl
  rintro nonce _ ⟨rfl, isNonce⟩
  split
  · rw [post_ite]
    exact ⟨fun _ => ⟨Reads.refl, by simp⟩, fun _ => Reads.refl⟩
  · rename_i plaintext decrypted
    have opens : e.opens recordSlice r.record = true := by
      simp [Engine.opens, value_of_ok isNonce, decrypted, Except.toBool]
    rw [post_bind, post_modify]
    have isFresh : e.replayCheck r.sequence = true := by simpa [Record.sequence] using fresh
    have opened : Reads S K e ((e.noteOpened r.record).logEvent
        (.opened r.record.contentType r.sequence recordSlice plaintext)) :=
      ⟨.single (.opened slice parsed isFresh decrypted enabled), _, _, _, _, rfl⟩
    split
    · exact opened
    · rename_i r' reparsed
      refine ⟨opened, ?_⟩
      rintro _ ⟨⟩
      -- The second parse reads the header of the first and the plaintext behind it.
      obtain ⟨_, fields, long, _⟩ := Record.ofBuffer_ok parsed
      obtain ⟨isRecord, fields', _, _⟩ := Record.ofBuffer_ok reparsed
      have whole : DTLSRecord.headerLen ≤ recordSlice.length := by omega
      have notLonger := Engine.decryptData_length decrypted
      have bounded : plaintext.length < 65536 := by
        simp only [List.length_drop, DTLSRecord.headerLen] at notLonger
        omega
      obtain ⟨type, number, length⟩ := openedBuffer_header plaintext
        (DTLSRecord.headerLen + e.explicitNonceLen) whole (DTLSRecord.headerLen + e.explicitNonceLen)
      rw [← fields'] at type number length
      have sameType : r'.record.contentType = r.record.contentType := by rw [type, fields]; rfl
      have sameNumber : r'.sequence = r.sequence := by
        unfold Record.sequence
        rw [number, fields]
        rfl
      have isLength : r'.record.length = plaintext.length := by
        rw [length, Nat.mod_eq_of_lt bounded]
      have buffer : r'.buffer = openedBuffer recordSlice plaintext
          (DTLSRecord.headerLen + e.explicitNonceLen) := by rw [isRecord]; rfl
      have isFragment : r'.fragment = plaintext := by
        have range : r'.record.fragmentRange = ⟨DTLSRecord.headerLen + e.explicitNonceLen,
            DTLSRecord.headerLen + e.explicitNonceLen + plaintext.length⟩ := by
          rw [← isLength, fields']
          rfl
        unfold Record.fragment DTLSRecord.fragment
        rw [buffer, range]
        by_cases inside : DTLSRecord.headerLen + e.explicitNonceLen ≤ recordSlice.length
        · exact slice_openedBuffer (Nat.le_add_right _ _) inside
        · -- A nonce that does not fit leaves no ciphertext and no plaintext.
          have empty : plaintext = [] := by
            apply List.length_eq_zero_iff.mp
            simp only [List.length_drop] at notLonger
            omega
          simp [empty, Nom.slice]
      refine ⟨.opened ?_ ?_ ?_, sameNumber, isFresh, opens⟩
      · refine ⟨recordSlice, DTLSRecord.headerLen + e.explicitNonceLen, ?_, ?_⟩
        · rw [sameType, sameNumber, isFragment]
          exact List.mem_append_right _ List.mem_cons_self
        · rw [isFragment, buffer]
      · rw [sameNumber]
        exact ReplayWindow.update_check_self _ _
      · rw [buffer]
        exact isRecord

/-- The record comes from a slice: as the slice is parsed when nothing is
protected, else with the number of the slice, which the replay window did not
know, and the slice opens. -/
def FromSlice (e : Engine) (recordSlice : Bytes) (r : Record) : Prop :=
  ∃ r₀, Record.ofBuffer recordSlice 0 = .ok r₀ ∧ r.sequence = r₀.sequence ∧
    (e.peerEncryptionEnabled = true → r.sequence.epoch ≠ 0 →
      e.replayCheck r.sequence = true ∧ e.opens recordSlice r₀.record = true)

/-- `Record::parse` leaves the state alone or commits one opening, and what it
returns is admitted. -/
theorem parseRecord_post {recordSlice : Bytes} (slice : S recordSlice)
    (short : recordSlice.length ≤ 65548) :
    Post (parseRecord recordSlice) e
      (fun result e' => Reads S K e e' ∧
        ∀ r, result = some r → Admitted S e' r ∧ FromSlice e recordSlice r)
      (fun _ e' => Reads S K e e') := by
  unfold parseRecord
  rw [post_bind, post_get]
  split
  · exact ⟨Reads.refl, by simp⟩
  · rename_i r parsed
    have buffer : r.buffer = recordSlice := by rw [(Record.ofBuffer_ok parsed).1]; rfl
    rw [post_ite]
    constructor
    · intro clear
      refine ⟨Reads.refl, ?_⟩
      rintro _ ⟨⟩
      refine ⟨.raw (buffer ▸ slice) (buffer ▸ parsed) (by simpa using clear),
        r, parsed, rfl, fun enabled isProtected => ?_⟩
      simp [enabled, isProtected] at clear
    · intro isProtected
      have ⟨_, enabled⟩ : ¬r.sequence.epoch = 0 ∧ e.peerEncryptionEnabled = true := by
        simpa using isProtected
      refine (openRecord_post slice parsed short enabled).mono ?_ fun _ _ reads => reads
      rintro result e' ⟨reads, opened⟩
      refine ⟨reads, fun r' isResult => ?_⟩
      obtain ⟨admitted, number, fresh, opens⟩ := opened r' isResult
      exact ⟨admitted, r, parsed, number, fun _ _ => ⟨number ▸ fresh, opens⟩⟩

/-- A record that is all there ends inside the datagram and is not too long. -/
theorem recordEnd_some {packet : Bytes} {stop : Nat} (isEnd : recordEnd packet = some stop) :
    stop ≤ packet.length ∧ DTLSRecord.headerLen ≤ stop ∧ stop ≤ 65548 := by
  unfold recordEnd at isEnd
  split at isEnd
  · cases isEnd
  · dsimp only at isEnd
    split at isEnd
    · cases isEnd
    · rename_i inside
      have bound := beValue_lt ((packet.drop 11).take 2)
      have width : 256 ^ ((packet.drop 11).take 2).length ≤ 256 ^ 2 :=
        Nat.pow_le_pow_right (by decide) (by simp)
      cases isEnd
      simp only [DTLSRecord.headerLen] at *
      omega

/-- What `Records::parse` finds in a datagram is admitted and comes from its
slices. -/
theorem parseRecordsLoop_post {fuel : Nat} {packet : Bytes} {parsed : List Record} {e₀ : Engine}
    {slices : List Bytes} (inside : recordSlicesLoop fuel packet ⊆ slices)
    (isSlice : ∀ slice ∈ slices, S slice) (before : Reads S K e₀ e)
    (admitted : ∀ r ∈ parsed, Admitted S e r ∧ ∃ slice ∈ slices, FromSlice e₀ slice r) :
    Post (parseRecordsLoop fuel packet parsed) e
      (fun result e' => Reads S K e₀ e' ∧
        ∀ r ∈ result, Admitted S e' r ∧ ∃ slice ∈ slices, FromSlice e₀ slice r)
      (fun _ e' => Reads S K e₀ e') := by
  induction fuel generalizing e packet parsed with
  | zero => exact ⟨before, admitted⟩
  | succ fuel inductionHypothesis =>
      unfold parseRecordsLoop
      rw [post_ite]
      refine ⟨fun _ => ⟨before, admitted⟩, fun _ => ?_⟩
      split
      · exact before
      · rename_i stop isEnd
        have isCut : recordSlicesLoop (fuel + 1) packet =
            packet.take stop :: recordSlicesLoop fuel (packet.drop stop) := by
          simp [recordSlicesLoop, isEnd]
        rw [isCut] at inside
        have member : packet.take stop ∈ slices := inside List.mem_cons_self
        have insideRest : recordSlicesLoop fuel (packet.drop stop) ⊆ slices :=
          List.Subset.trans (List.subset_cons_self _ _) inside
        have short : (packet.take stop).length ≤ 65548 :=
          Nat.le_trans (List.length_take_le _ _) (recordEnd_some isEnd).2.2
        rw [post_bind]
        refine (parseRecord_post (K := K) (isSlice _ member) short).mono ?_
          fun _ _ reads => IsTrans.trans _ _ _ before reads
        rintro result e₁ ⟨reads, fresh⟩
        have after : Reads S K e₀ e₁ := IsTrans.trans _ _ _ before reads
        have kept : ∀ r ∈ parsed, Admitted S e₁ r ∧ ∃ slice ∈ slices, FromSlice e₀ slice r :=
          fun r old => ⟨(admitted r old).1.of_grows reads.1.grows, (admitted r old).2⟩
        cases result with
        | none => exact inductionHypothesis insideRest after kept
        | some r =>
            rw [post_ite]
            refine ⟨fun _ => ?_, fun _ => after⟩
            refine inductionHypothesis insideRest after fun r' isMember => ?_
            rcases List.mem_append.mp isMember with old | new
            · exact kept r' old
            · cases List.mem_singleton.mp new
              obtain ⟨isAdmitted, origin⟩ := fresh r rfl
              -- A number unknown now was unknown at the start of the datagram.
              have flag : e.peerEncryptionEnabled = e₀.peerEncryptionEnabled :=
                before.1.grows.enabled
              obtain ⟨r₀, isParsed, number, checked⟩ := origin
              refine ⟨isAdmitted, packet.take stop, member, r₀, isParsed, number,
                fun enabled isProtected => ?_⟩
              obtain ⟨unknown, opens⟩ := checked (flag.trans enabled) isProtected
              rw [Engine.opens_of_session before.1.grows.session] at opens
              refine ⟨?_, opens⟩
              by_contra known
              have rejected := before.1.grows.numbers r.sequence (by simpa using known)
              rw [rejected] at unknown
              cases unknown

theorem classifyAlert_post {r : Record} :
    Post (classifyAlert r) e (fun kept e' => Reads S K e e' ∧ (kept = none ∨ kept = some r))
      (fun _ e' => Reads S K e e') := by
  unfold classifyAlert
  rw [post_bind, post_get]
  simp only [post_ite]
  refine ⟨fun _ => ⟨fun _ => ⟨Reads.refl, .inl rfl⟩, fun _ => ?_⟩,
    fun _ => ⟨fun _ => ⟨Reads.refl, .inr rfl⟩, fun _ => ?_⟩⟩
  · split
    · exact Reads.refl
    · exact ⟨Reads.refl, .inl rfl⟩
  · split
    · simp only [post_ite]
      refine ⟨fun _ => ?_, fun _ => ⟨fun _ => Reads.refl, fun _ => ⟨Reads.refl, .inl rfl⟩⟩⟩
      rw [post_bind, post_set]
      exact ⟨⟨.single (.other rfl), _, _, _, _, rfl⟩, .inl rfl⟩
    · exact ⟨Reads.refl, .inl rfl⟩

theorem classifyRecord_post {r : Record} :
    Post (classifyRecord r) e (fun kept e' => Reads S K e e' ∧ (kept = none ∨ kept = some r))
      (fun _ e' => Reads S K e e') := by
  unfold classifyRecord
  rw [post_bind, post_get]
  dsimp only
  simp only [post_ite]
  exact ⟨fun _ => ⟨Reads.refl, .inl rfl⟩, fun _ => ⟨fun _ => ⟨Reads.refl, .inl rfl⟩,
    fun _ => ⟨fun _ => classifyAlert_post, fun _ => ⟨fun _ => ⟨Reads.refl, .inl rfl⟩,
      fun _ => ⟨Reads.refl, .inr rfl⟩⟩⟩⟩⟩

theorem classifyRecords_post {records : List Record} :
    Post (classifyRecords records) e (fun kept e' => Reads S K e e' ∧ kept ⊆ records)
      (fun _ e' => Reads S K e e') := by
  induction records generalizing e with
  | nil => exact ⟨Reads.refl, List.Subset.refl _⟩
  | cons r rest inductionHypothesis =>
      unfold classifyRecords
      rw [post_bind]
      refine (classifyRecord_post (S := S) (K := K)).mono ?_ fun _ _ reads => reads
      rintro kept e₁ ⟨reads, isKept⟩
      rw [post_bind]
      refine inductionHypothesis.mono ?_ fun _ _ more => IsTrans.trans _ _ _ reads more
      rintro others e₂ ⟨more, subset⟩
      refine ⟨IsTrans.trans _ _ _ reads more, ?_⟩
      rcases isKept with rfl | rfl
      · exact List.Subset.trans subset (List.subset_cons_self r rest)
      · exact List.cons_subset_cons r subset

/-- `Records::parse`: what is left of a datagram is admitted and comes from its
slices. -/
theorem parseRecords_post {packet : Bytes} (isSlice : ∀ slice ∈ recordSlices packet, S slice) :
    Post (parseRecords packet) e
      (fun result e' => Reads S K e e' ∧
        ∀ r ∈ result, Admitted S e' r ∧ ∃ slice ∈ recordSlices packet, FromSlice e slice r)
      (fun _ e' => Reads S K e e') := by
  unfold parseRecords
  rw [post_bind]
  refine (parseRecordsLoop_post (List.Subset.refl _) isSlice Reads.refl (by simp)).mono ?_
    fun _ _ reads => reads
  rintro parsed e₁ ⟨reads, admitted⟩
  refine classifyRecords_post.mono ?_ fun _ _ more => IsTrans.trans _ _ _ reads more
  rintro kept e₂ ⟨more, subset⟩
  refine ⟨IsTrans.trans _ _ _ reads more, fun r member => ?_⟩
  obtain ⟨isAdmitted, origin⟩ := admitted r (subset member)
  exact ⟨isAdmitted.of_grows more.1.grows, origin⟩

/-- A datagram that was there or whose records are admitted, up to marks. -/
def Sourced (S : Bytes → Prop) (e : Engine) (item : Incoming) : Prop :=
  (∃ item₀ ∈ e.queueRx, item₀.records.map Record.content = item.records.map Record.content) ∨
    ∃ admitted : Incoming, (∀ r ∈ admitted.records, Admitted S e r) ∧
      admitted.records.map Record.content = item.records.map Record.content

theorem Quiet.of_queue {queueRx : List Incoming} (sources : ∀ item ∈ queueRx, Sourced S e item) :
    Quiet S K e { e with queueRx } :=
  Quiet.of_steps (.single (.queue sources)) (List.Subset.refl _)

/-- Inserting a datagram of admitted records, up to marks. -/
theorem Quiet.of_inserted {index : Nat} {item incoming : Incoming}
    (admitted : ∀ r ∈ incoming.records, Admitted S e r)
    (same : incoming.records.map Record.content = item.records.map Record.content) :
    Quiet S K e { e with queueRx := e.queueRx.insertIdx index item } := by
  refine Quiet.of_queue fun other member => ?_
  rcases List.eq_or_mem_of_mem_insertIdx member with rfl | old
  · exact .inr ⟨incoming, admitted, same⟩
  · exact .inl ⟨other, old, rfl⟩

theorem insertIncomingHandshake_quiet {incoming : Incoming} {handshake : Fragment}
    (plain : K → e.FlightPlain) (admitted : ∀ r ∈ incoming.records, Admitted S e r) :
    Post (insertIncomingHandshake incoming handshake) e (fun _ e' => Quiet S K e e')
      (fun _ e' => Quiet S K e e') := by
  unfold insertIncomingHandshake
  rw [post_bind, post_get, post_bind]
  refine (along_runIf (fun _ => flightResend_quiet) e).mono ?_ fun _ _ quiet => quiet
  intro _ e₁ quiet
  have stillAdmitted : ∀ r ∈ incoming.records, Admitted S e₁ r :=
    fun r member => (admitted r member).of_grows (quiet plain).1.grows
  rw [post_bind, post_get]
  simp only [post_ite]
  refine ⟨fun _ => quiet, fun _ => ⟨fun _ => quiet, fun _ => ⟨fun _ => quiet, fun _ => ?_⟩⟩⟩
  split
  · exact quiet.trans (Quiet.of_inserted stillAdmitted rfl)
  · exact quiet

@[simp] theorem markStale_content {r : Record} : (markStale r).content = r.content := by
  unfold markStale
  split
  · split
    · rfl
    · simp [Record.content, Fragment.setHandled]
  · rfl

@[simp] theorem markStale_sequence {r : Record} : (markStale r).sequence = r.sequence := by
  have same : (markStale r).record = r.record := congrArg (fun c => c.2.1) markStale_content
  simp [Record.sequence, same]

theorem insertIncomingNonHandshake_quiet {incoming : Incoming}
    (admitted : ∀ r ∈ incoming.records, Admitted S e r) :
    Post (insertIncomingNonHandshake incoming) e (fun _ e' => Quiet S K e e')
      (fun _ e' => Quiet S K e e') := by
  unfold insertIncomingNonHandshake
  rw [post_bind, post_get]
  dsimp only
  rw [post_ite]
  refine ⟨fun _ => Quiet.refl, fun _ => ?_⟩
  split
  · refine Quiet.of_inserted admitted ?_
    split
    · simp [Incoming.records]
    · rfl
  · rw [post_ite]
    exact ⟨fun _ => Quiet.refl, fun _ => Quiet.refl⟩

theorem insertIncoming_quiet {incoming : Incoming} (plain : K → e.FlightPlain)
    (admitted : ∀ r ∈ incoming.records, Admitted S e r) :
    Post (insertIncoming incoming) e (fun _ e' => Quiet S K e e') (fun _ e' => Quiet S K e e') := by
  unfold insertIncoming
  rw [post_bind, post_get, post_ite]
  refine ⟨fun _ => Quiet.refl, fun _ => ?_⟩
  split
  · exact insertIncomingHandshake_quiet plain admitted
  · exact insertIncomingNonHandshake_quiet admitted

/-- `parse_packet` takes steps on slices of the datagram. -/
theorem parsePacket_quiet {packet : Bytes} (isSlice : ∀ slice ∈ recordSlices packet, S slice) :
    Along (Quiet S K) (parsePacket packet) := by
  intro e
  by_cases plain : K → e.FlightPlain
  · unfold parsePacket
    rw [post_bind]
    refine (parseRecords_post isSlice).mono ?_ fun _ _ reads => reads.quiet
    rintro records e₁ ⟨reads, admitted⟩
    cases records with
    | nil => exact reads.quiet
    | cons first rest =>
        have insert : Post (insertIncoming ⟨first, rest⟩) e₁ (fun _ e' => Quiet S K e₁ e')
            (fun _ e' => Quiet S K e₁ e') :=
          insertIncoming_quiet (reads.quiet plain).2 fun r member => (admitted r member).1
        exact insert.mono (fun _ _ more => reads.quiet.trans more)
          fun _ _ more => reads.quiet.trans more
  · exact post_state.mpr fun isPlain => absurd isPlain plain

theorem reparse_quiet {buffers : List Bytes}
    (isSlice : ∀ buffer ∈ buffers, ∀ slice ∈ recordSlices buffer, S slice) :
    Along (Quiet S K) (reparse buffers) := by
  induction buffers with
  | nil => exact along_pure
  | cons buffer rest inductionHypothesis =>
      refine along_bind (parsePacket_quiet (isSlice buffer List.mem_cons_self)) fun _ => ?_
      exact inductionHypothesis fun other member => isSlice other (List.mem_cons_of_mem _ member)

end Receiving

end Dimpl.Dtls12
