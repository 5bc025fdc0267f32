import Dimpl.Dtls12.Engine.Receipt

/-!
# A record from one side to the other

What sealing puts on the wire, and what the receiver makes of it: nonce and additional data are
computed again from the record, and the header that was rewritten is parsed again.
-/

namespace Dimpl.Dtls12

open Nom Program

/-- The bytes by which the transmit queue grew. -/
def Engine.emitted (e e' : Engine) : Bytes := e'.queueTx.flatten.drop e.queueTx.flatten.length

/-- The header of a record. -/
def recordHead (contentType : ContentType) (sequence : Sequence) (length : Nat) : Bytes :=
  contentType.asU8 :: ProtocolVersion.dtls12.serialize ++ be16 sequence.epoch ++
    be48 sequence.sequenceNumber ++ be16 length

/-- The nonce of a record: with an explicit part the two joined, else the number in the IV. -/
def recordNonce (iv explicitNonce : Bytes) (sequence : Sequence) : Bytes :=
  if explicitNonce = [] then Nonce.xor iv (seq64 sequence) else Nonce.new iv explicitNonce

/-- The parts of a nonce are as long as a suite wants them. -/
def NonceParts (iv explicitNonce : Bytes) : Prop :=
  iv.length = 12 ∧ explicitNonce.length = 0 ∨ iv.length = 4 ∧ explicitNonce.length = 8

/-- What both sides of a protected connection have in common. -/
structure Shares (sender receiver : Engine) (iv : Bytes) (cipher : Cipher) (tagLen : Nat) : Prop where
  sendIv : sender.cryptoContext.writeIv sender.isClient = some iv
  recvIv : receiver.cryptoContext.writeIv (!receiver.isClient) = some iv
  sendCipher : sender.cryptoContext.writeCipher sender.isClient = .ok cipher
  recvCipher : receiver.cryptoContext.writeCipher (!receiver.isClient) = .ok cipher
  nonceLen : sender.explicitNonceLen = receiver.explicitNonceLen
  overhead : receiver.minProtectedFragmentLen = receiver.explicitNonceLen + tagLen
  opens : cipher.Opens tagLen
  enabled : receiver.peerEncryptionEnabled = true

/-- What the receiver makes of a record is what was sent, and it opens it with the nonce and the
additional data it was sealed with. -/
def Returned (receiver : Engine) (cipher : Cipher) (contentType : ContentType) (sequence : Sequence)
    (fragment wire : Bytes) : Prop :=
  ∃ r r₀ explicitNonce nonce ciphertext, value? (parseRecord wire) receiver = some (some r) ∧
    r.record.contentType = contentType ∧ r.sequence = sequence ∧ r.fragment = fragment ∧
    Record.ofBuffer wire 0 = .ok r₀ ∧ r₀.fragment = explicitNonce ++ ciphertext ∧
    value? (openNonce r₀.record wire) receiver = some nonce ∧
    receiver.openAad r₀.record = Aad.newDtls12 contentType sequence fragment.length ∧
    cipher.encrypt fragment (Aad.newDtls12 contentType sequence fragment.length) nonce = .ok ciphertext

section Receiving

variable {sender receiver : Engine} {iv explicitNonce : Bytes} {cipher : Cipher} {tagLen number : Nat}
  {contentType : ContentType} {fragment ciphertext data rest : Bytes}

/-- Whether two sides share their keys depends on the session. -/
theorem Shares.of_session {receiver' : Engine} (shares : Shares sender receiver iv cipher tagLen)
    (same : receiver'.session = receiver.session) (enabled : receiver'.peerEncryptionEnabled = true) :
    Shares sender receiver' iv cipher tagLen := by
  simp only [Engine.session, Prod.mk.injEq] at same
  obtain ⟨context, isClient, nonceLen, minLen, -, -⟩ := same
  constructor
  · exact shares.sendIv
  · rw [context, isClient, shares.recvIv]
  · exact shares.sendCipher
  · rw [context, isClient, shares.recvCipher]
  · rw [nonceLen, shares.nonceLen]
  · rw [minLen, nonceLen, shares.overhead]
  · exact shares.opens
  · exact enabled

@[simp] theorem length_recordHead {sequence : Sequence} {length : Nat} :
    (recordHead contentType sequence length).length = 13 := rfl

/-- The fields of a header, one behind the other. -/
theorem recordHead_append {length : Nat} :
    recordHead contentType ⟨1, number⟩ length ++ rest =
      contentType.asU8 :: (be16 0xFEFD ++ (be16 1 ++ (be48 number ++ (be16 length ++ rest)))) := by
  simp only [recordHead, ProtocolVersion.serialize, ProtocolVersion.dtls12, List.cons_append,
    List.append_assoc]

theorem serialize_eq {sequence : Sequence} :
    DTLSRecord.serialize contentType sequence fragment =
      recordHead contentType sequence fragment.length ++ fragment := rfl

/-- A record of epoch one is read back, with the bytes between header and fragment skipped. -/
theorem ofBuffer_recordHead (fits : data.length < 65536) (small : number < 2 ^ 48) :
    Record.ofBuffer (recordHead contentType ⟨1, number⟩ data.length ++ (explicitNonce ++ (data ++ rest)))
        explicitNonce.length =
      .ok (Record.ofHeader
        (recordHead contentType ⟨1, number⟩ data.length ++ (explicitNonce ++ (data ++ rest)))
        { contentType
          version := .dtls12
          sequence := ⟨1, number⟩
          length := data.length
          fragmentRange := ⟨13 + explicitNonce.length, 13 + explicitNonce.length + data.length⟩ }) := by
  have range := @takeRange_append data rest 0 data.length
    (recordHead contentType ⟨1, number⟩ data.length ++ explicitNonce) rfl
  rw [List.append_assoc, List.length_append, length_recordHead, Nat.zero_add] at range
  have isNumber : beValue (be48 number) = number := by
    rw [beValue_be48]
    exact Nat.mod_eq_of_lt small
  have isLength : beValue (be16 data.length) = data.length := by
    rw [beValue_be16]
    exact Nat.mod_eq_of_lt fits
  have isEpoch : beValue (be16 1) = 1 := by decide
  have parsed : DTLSRecord.parse 0 explicitNonce.length
      (recordHead contentType ⟨1, number⟩ data.length ++ (explicitNonce ++ (data ++ rest))) =
      .ok ({ contentType
             version := .dtls12
             sequence := ⟨1, number⟩
             length := data.length
             fragmentRange := ⟨13 + explicitNonce.length, 13 + explicitNonce.length + data.length⟩ },
        rest) := by
    have type : ∀ bytes, ContentType.parse (contentType.asU8 :: bytes) = .ok (contentType, bytes) :=
      fun _ => rfl
    have version : ∀ bytes, ProtocolVersion.parse (be16 0xFEFD ++ bytes) =
        .ok (ProtocolVersion.dtls12, bytes) := fun _ => bind_of_ok (beUint_append (length_be16 _))
    unfold DTLSRecord.parse
    refine (bind_of_ok rfl).trans ?_
    rw [recordHead_append]
    refine (bind_of_ok (type _)).trans ((bind_of_ok (version _)).trans ?_)
    refine (bind_of_ok (require_of (by decide))).trans ?_
    refine (bind_of_ok (beUint_append (length_be16 1))).trans ?_
    rw [isEpoch]
    refine (bind_of_ok (require_of rfl)).trans ?_
    refine (bind_of_ok (beUint_append (length_be48 number))).trans ?_
    refine (bind_of_ok (beUint_append (length_be16 data.length))).trans ?_
    refine (bind_of_ok (take_append rfl)).trans ?_
    rw [isNumber, isLength]
    exact (bind_of_ok range).trans rfl
  unfold Record.ofBuffer Nom.parse StateT.run
  rw [parsed]
  rfl

/-- The buffer of an opened record: a new length, and the text where the ciphertext was. -/
theorem openedBuffer_serialize {sequence : Sequence} :
    openedBuffer (recordHead contentType sequence (explicitNonce ++ ciphertext).length ++
        (explicitNonce ++ ciphertext)) fragment (13 + explicitNonce.length) =
      recordHead contentType sequence fragment.length ++
        (explicitNonce ++ (fragment ++ ciphertext.drop fragment.length)) := by
  have front : (recordHead contentType sequence (explicitNonce ++ ciphertext).length ++
      (explicitNonce ++ ciphertext)).take (13 + explicitNonce.length) =
      recordHead contentType sequence (explicitNonce ++ ciphertext).length ++ explicitNonce := by
    rw [← List.append_assoc]
    exact List.take_left' (by simp)
  have back : (recordHead contentType sequence (explicitNonce ++ ciphertext).length ++
      (explicitNonce ++ ciphertext)).drop (13 + explicitNonce.length + fragment.length) =
      ciphertext.drop fragment.length := by
    rw [← List.drop_drop, ← List.append_assoc]
    congr 1
    exact List.drop_left' (by simp)
  unfold openedBuffer
  rw [front, back, DTLSRecord.headerLen, List.drop_left' length_recordHead]
  simp only [recordHead, ProtocolVersion.serialize, be48, be24, be16, List.cons_append, List.nil_append,
    List.append_assoc, List.take_succ_cons, List.take_zero]

/-- The nonce of a received record is the one of its parts. -/
theorem openNonce_eq {record : DTLSRecord} {wire : Bytes}
    (isIv : receiver.cryptoContext.writeIv (!receiver.isClient) = some iv)
    (length : explicitNonce.length = receiver.explicitNonceLen) (parts : NonceParts iv explicitNonce)
    (isFragment : record.fragment wire = explicitNonce ++ ciphertext) :
    Post (openNonce record wire) receiver
      (fun nonce e' => receiver = e' ∧ recordNonce iv explicitNonce record.sequence = nonce)
      fun _ _ => False := by
  unfold openNonce peerIv
  rw [post_bind, post_bind, post_get, post_orThrow, isIv]
  refine ⟨?_, nofun⟩
  rintro _ ⟨⟩
  rw [post_bind, post_get, post_ite, ← length]
  refine ⟨fun none => ?_, fun some => ?_⟩
  · have isEmpty := List.length_eq_zero_iff.mp none
    have long : iv.length = 12 := by
      rcases parts with ⟨long, -⟩ | ⟨-, eight⟩
      · exact long
      · omega
    rw [xorNonce, if_pos long, recordNonce, if_pos isEmpty, post_pure]
    exact ⟨rfl, rfl⟩
  · have nonempty : explicitNonce ≠ [] := fun isEmpty => some (by rw [isEmpty]; rfl)
    have taken : record.nonceWithLen wire explicitNonce.length = explicitNonce := by
      rw [DTLSRecord.nonceWithLen, isFragment]
      exact List.take_left
    have joined : iv.length + explicitNonce.length = 12 := by
      rcases parts with ⟨-, none⟩ | ⟨four, eight⟩
      · exact absurd none some
      · omega
    rw [taken, joinNonce, if_pos joined, recordNonce, if_neg nonempty, post_pure]
    exact ⟨rfl, rfl⟩

/-- `Record::parse` gives back what was sealed. -/
theorem parseRecord_wire (shares : Shares sender receiver iv cipher tagLen)
    (length : explicitNonce.length = receiver.explicitNonceLen) (parts : NonceParts iv explicitNonce)
    (fits : explicitNonce.length + ciphertext.length < 65536) (small : number < 2 ^ 48)
    (isSealed : cipher.encrypt fragment (Aad.newDtls12 contentType ⟨1, number⟩ fragment.length)
      (recordNonce iv explicitNonce ⟨1, number⟩) = .ok ciphertext)
    (admitted : receiver.replayCheck ⟨1, number⟩ = true) :
    Returned receiver cipher contentType ⟨1, number⟩ fragment
      (DTLSRecord.serialize contentType ⟨1, number⟩ (explicitNonce ++ ciphertext)) := by
  obtain ⟨opened, textLength⟩ := shares.opens _ _ _ _ isSealed
  have first := @ofBuffer_recordHead [] number contentType (explicitNonce ++ ciphertext) []
    (by rw [List.length_append]; exact fits) small
  have second := @ofBuffer_recordHead explicitNonce number contentType fragment
    (ciphertext.drop fragment.length) (by omega) small
  simp only [List.nil_append, List.append_nil, List.length_nil, Nat.add_zero] at first
  have rewritten := @openedBuffer_serialize explicitNonce contentType fragment ciphertext ⟨1, number⟩
  rw [serialize_eq]
  obtain ⟨wire, isWire⟩ : ∃ wire, recordHead contentType ⟨1, number⟩ (explicitNonce ++ ciphertext).length ++
      (explicitNonce ++ ciphertext) = wire := ⟨_, rfl⟩
  have back : wire.drop (13 + explicitNonce.length) = ciphertext := by
    rw [← isWire, ← List.append_assoc]
    exact List.drop_left' (by simp)
  have inner : (DTLSRecord.mk contentType .dtls12 ⟨1, number⟩ (explicitNonce ++ ciphertext).length
      ⟨13, 13 + (explicitNonce ++ ciphertext).length⟩).fragment wire = explicitNonce ++ ciphertext := by
    rw [DTLSRecord.fragment, Nom.slice, ← isWire, List.drop_left' length_recordHead, Nat.add_sub_cancel_left]
    exact List.take_length
  rw [isWire] at first rewritten ⊢
  have noncePost := @openNonce_eq receiver iv explicitNonce ciphertext
    (DTLSRecord.mk contentType .dtls12 ⟨1, number⟩ (explicitNonce ++ ciphertext).length
      ⟨13, 13 + (explicitNonce ++ ciphertext).length⟩) wire shares.recvIv length parts inner
  have isAad : receiver.openAad (DTLSRecord.mk contentType .dtls12 ⟨1, number⟩
      (explicitNonce ++ ciphertext).length ⟨13, 13 + (explicitNonce ++ ciphertext).length⟩) =
      Aad.newDtls12 contentType ⟨1, number⟩ fragment.length := by
    have small : receiver.minProtectedFragmentLen < 65536 := by
      rw [shares.overhead]
      omega
    have isLength : (explicitNonce ++ ciphertext).length - (receiver.explicitNonceLen + tagLen) =
        fragment.length := by
      rw [List.length_append]
      omega
    rw [Engine.openAad, Nat.mod_eq_of_lt small, shares.overhead]
    exact congrArg (Aad.newDtls12 contentType ⟨1, number⟩) isLength
  have decrypted : receiver.decryptData ciphertext (Aad.newDtls12 contentType ⟨1, number⟩ fragment.length)
      (recordNonce iv explicitNonce ⟨1, number⟩) = .ok fragment := by
    unfold Engine.decryptData
    rw [shares.recvCipher]
    simp only [bind, Except.bind, opened, pure, Except.pure]
    rw [List.take_of_length_le (by omega)]
  have parsed : Post (parseRecord wire) receiver
      (fun result _ => ∃ r, result = some r ∧ r.record.contentType = contentType ∧
        r.sequence = ⟨1, number⟩ ∧ r.fragment = fragment)
      fun _ _ => False := by
    unfold parseRecord
    rw [post_bind, post_get, first]
    simp only [Record.sequence, Record.ofHeader, shares.enabled, Bool.not_true, Bool.or_false,
      decide_eq_true_eq, one_ne_zero, if_false]
    unfold openRecord
    rw [post_bind, post_get]
    simp only [admitted, Bool.not_true, Bool.false_eq_true, if_false]
    rw [post_ite]
    refine ⟨fun short => ?_, fun _ => ?_⟩
    · rw [shares.overhead, List.length_append] at short
      omega
    · rw [post_bind]
      refine noncePost.mono ?_ fun _ _ => id
      rintro _ _ ⟨rfl, rfl⟩
      rw [isAad, ← length, DTLSRecord.headerLen, back, decrypted]
      simp only [post_bind, post_modify]
      rw [rewritten]
      simp only [Engine.noteOpened, Engine.logEvent]
      rw [← length, second]
      refine ⟨_, rfl, rfl, rfl, ?_⟩
      unfold Record.fragment Record.ofHeader DTLSRecord.fragment Nom.slice
      rw [← List.append_assoc, List.drop_left' (by simp), Nat.add_sub_cancel_left]
      exact List.take_left
  rcases parsed.outcome with ⟨_, returned, r, rfl, isType, isSequence, isFragment⟩ | ⟨-, _, impossible⟩
  · rcases noncePost.outcome with ⟨nonce, isNonce, -, rfl⟩ | ⟨-, _, impossible⟩
    · exact ⟨r, _, explicitNonce, _, ciphertext, returned, isType, isSequence, isFragment, first, inner,
        isNonce, isAad, isSealed⟩
    · exact impossible.elim
  · exact impossible.elim

end Receiving

section Sending

variable {e : Engine} {contentType : ContentType} {epoch : Nat} {saveFragment forceNewDatagram : Bool}
  {iv fragment : Bytes} {suite : Dtls12CipherSuite} {sequence : Sequence}

theorem sendNonce_parts :
    Post (sendNonce suite iv sequence) e
      (fun parts e' => (∃ rng, { e with rng } = e') ∧ parts.1.length = e.explicitNonceLen ∧
        NonceParts iv parts.1 ∧ recordNonce iv parts.1 sequence = parts.2)
      fun _ _ => True := by
  unfold sendNonce
  rw [post_bind, post_get, post_ite]
  refine ⟨fun none => ?_, fun _ => ?_⟩
  · unfold xorNonce
    rw [post_bind, post_ite]
    exact ⟨fun long => ⟨⟨e.rng, rfl⟩, none.symm, .inl ⟨long, rfl⟩, rfl⟩, fun _ => trivial⟩
  · rw [post_ite]
    refine ⟨fun eight => ?_, fun _ => trivial⟩
    unfold randomArr joinNonce
    rw [post_bind, post_bind, post_get, post_bind, post_set, post_pure, post_bind, post_ite]
    refine ⟨fun joined => ?_, fun _ => trivial⟩
    have length : (e.rng.randomBytes DTLSRecord.explicitNonceLength).1.length = 8 := by
      simp [SeededRng.randomBytes, DTLSRecord.explicitNonceLength]
    have nonempty : (e.rng.randomBytes DTLSRecord.explicitNonceLength).1 ≠ [] := by
      intro isEmpty
      rw [isEmpty] at length
      cases length
    refine ⟨⟨_, rfl⟩, length.trans eight.symm, .inr ⟨by omega, length⟩, ?_⟩
    rw [recordNonce, if_neg nonempty]

theorem Engine.emitted_enqueueRecord {e' : Engine} {append : Bool} {bytes : Bytes}
    (same : e'.queueTx = e.queueTx) : e.emitted (e'.enqueueRecord append bytes) = bytes := by
  have grown : (e'.enqueueRecord append bytes).queueTx.flatten = e.queueTx.flatten ++ bytes := by
    unfold Engine.enqueueRecord
    rw [← same]
    cases append with
    | false => simp
    | true =>
        rcases List.eq_nil_or_concat e'.queueTx with none | ⟨front, last, isLast⟩
        · simp [none]
        · simp [isLast]
  unfold Engine.emitted
  rw [grown, List.drop_left]

/-- What sealing a record leaves in the transmit queue. -/
theorem createRecordInner_emits (isProtected : epoch ≠ 0) :
    Post (createRecordInner contentType epoch saveFragment forceNewDatagram fragment) e
      (fun _ e' => ∃ iv cipher explicitNonce ciphertext,
        e.cryptoContext.writeIv e.isClient = some iv ∧ e.cryptoContext.writeCipher e.isClient = .ok cipher ∧
        explicitNonce.length = e.explicitNonceLen ∧ NonceParts iv explicitNonce ∧
        cipher.encrypt fragment (Aad.newDtls12 contentType (e.nextSequence epoch) fragment.length)
          (recordNonce iv explicitNonce (e.nextSequence epoch)) = .ok ciphertext ∧
        e.emitted e' =
          DTLSRecord.serialize contentType (e.nextSequence epoch) (explicitNonce ++ ciphertext))
      fun _ _ => True := by
  have saved : Post (runIf saveFragment (saveEntry { contentType, epoch, fragment })) e
      (fun _ e₁ => ∃ flightSavedRecords, { e with flightSavedRecords } = e₁) fun _ _ => True := by
    rw [post_runIf]
    exact ⟨fun _ => ⟨_, rfl⟩, fun _ => ⟨e.flightSavedRecords, rfl⟩⟩
  unfold createRecordInner
  rw [post_bind, post_get, post_ite]
  refine ⟨fun _ => trivial, fun _ => ?_⟩
  rw [post_bind]
  refine saved.mono ?_ fun _ _ _ => trivial
  rintro _ _ ⟨saved, rfl⟩
  unfold checkQueueTx
  rw [post_bind, post_bind, post_get, post_ite]
  refine ⟨fun _ => trivial, fun _ => ?_⟩
  rw [post_pure, post_ite]
  refine ⟨fun isPlain => absurd isPlain isProtected, fun _ => ?_⟩
  unfold protectFragment selectedCipherSuite
  rw [post_bind, post_bind, post_bind, post_get, post_orThrow]
  refine ⟨fun suite _ => ?_, fun _ => trivial⟩
  rw [post_bind, post_get, post_bind, post_orThrow]
  refine ⟨fun iv isIv => ?_, fun _ => trivial⟩
  rw [post_bind]
  refine sendNonce_parts.mono ?_ fun _ _ _ => trivial
  rintro ⟨explicitNonce, nonce⟩ _ ⟨⟨rng, rfl⟩, length, parts, isNonce⟩
  obtain rfl : recordNonce iv explicitNonce (e.nextSequence epoch) = nonce := isNonce
  rw [post_bind, post_liftCrypto]
  refine ⟨fun cipher isCipher => ?_, fun _ _ => trivial⟩
  rw [post_bind, post_liftCrypto]
  refine ⟨fun ciphertext isSealed => ?_, fun _ _ => trivial⟩
  rw [post_pure, post_modify]
  refine ⟨iv, cipher, explicitNonce, ciphertext, isIv, isCipher, length, parts, isSealed, ?_⟩
  refine Engine.emitted_enqueueRecord ?_
  rw [Engine.countRecord, if_neg isProtected]

/-- Nothing changed but the generator. -/
def Engine.Reseeded (e e' : Engine) : Prop := ∃ rng, { e with rng } = e'

theorem Engine.Reseeded.refl : e.Reseeded e := ⟨e.rng, rfl⟩

/-- The explicit part of the next nonce. -/
def Engine.explicitNonce (e : Engine) : Bytes :=
  if e.explicitNonceLen = 0 then [] else (e.rng.randomBytes DTLSRecord.explicitNonceLength).1

/-- There are keys, a nonce of the right length and room for a record, and its cipher takes it. -/
def Engine.Grants (e : Engine) (contentType : ContentType) (epoch : Nat) (fragment : Bytes) : Prop :=
  (e.canAppend false (DTLSRecord.headerLen + fragment.length + e.minProtectedFragmentLen) = true ∨
      e.queueTx.length < e.config.maxQueueTx) ∧
    ∃ suite iv cipher ciphertext, e.cipherSuite = some suite ∧
      e.cryptoContext.writeIv e.isClient = some iv ∧
      (e.explicitNonce.length = e.explicitNonceLen ∧ NonceParts iv e.explicitNonce) ∧
      e.cryptoContext.writeCipher e.isClient = .ok cipher ∧
      cipher.encrypt fragment (Aad.newDtls12 contentType (e.nextSequence epoch) fragment.length)
        (recordNonce iv e.explicitNonce (e.nextSequence epoch)) = .ok ciphertext

/-- A nonce is made exactly if its parts have the right lengths. -/
theorem sendNonce_grants :
    Post (sendNonce suite iv sequence) e
      (fun parts e' => e.Reseeded e' ∧
        parts = (e.explicitNonce, recordNonce iv e.explicitNonce sequence) ∧
        e.explicitNonce.length = e.explicitNonceLen ∧ NonceParts iv e.explicitNonce)
      fun _ e' => e.Reseeded e' ∧
        ¬(e.explicitNonce.length = e.explicitNonceLen ∧ NonceParts iv e.explicitNonce) := by
  have length : (e.rng.randomBytes DTLSRecord.explicitNonceLength).1.length = 8 := by
    simp [SeededRng.randomBytes, DTLSRecord.explicitNonceLength]
  unfold sendNonce Engine.explicitNonce
  rw [post_bind, post_get, post_ite]
  refine ⟨fun none => ?_, fun some => ?_⟩
  · unfold xorNonce
    simp only [none, if_true]
    rw [post_bind, post_ite]
    refine ⟨fun long => ⟨.refl, rfl, rfl, .inl ⟨long, rfl⟩⟩, fun short => ⟨.refl, ?_⟩⟩
    rintro ⟨-, ⟨long, -⟩ | ⟨-, eight⟩⟩
    · exact short long
    · cases eight
  · rw [post_ite, if_neg some]
    have isExplicit : DTLSRecord.explicitNonceLength = 8 := rfl
    refine ⟨fun eight => ?_, fun other => ⟨.refl, fun wanted => ?_⟩⟩
    · unfold randomArr joinNonce
      rw [post_bind, post_bind, post_get, post_bind, post_set, post_pure, post_bind, post_ite]
      refine ⟨fun joined => ?_, fun apart => ⟨⟨_, rfl⟩, ?_⟩⟩
      · have nonempty : (e.rng.randomBytes DTLSRecord.explicitNonceLength).1 ≠ [] := by
          intro isEmpty
          rw [isEmpty] at length
          cases length
        refine ⟨⟨_, rfl⟩, ?_, length.trans eight.symm, .inr ⟨by omega, length⟩⟩
        rw [recordNonce, if_neg nonempty]
      · rintro ⟨-, ⟨-, none⟩ | ⟨four, eight⟩⟩
        · omega
        · exact apart (by rw [four, eight])
    · omega

/-- A record is refused exactly for want of these, and then nothing changes but the generator. -/
theorem createRecordInner_grants (isProtected : epoch ≠ 0) :
    Post (createRecordInner contentType epoch false false fragment) e
      (fun _ _ => e.Grants contentType epoch fragment)
      fun _ e' => e.Reseeded e' ∧ ¬e.Grants contentType epoch fragment := by
  have positive : epoch ≥ 1 := Nat.one_le_iff_ne_zero.mpr isProtected
  unfold createRecordInner Engine.Grants runIf
  rw [post_bind, post_get]
  cases isSuite : e.cipherSuite with
  | none =>
      rw [if_pos (by simp [positive])]
      refine ⟨.refl, ?_⟩
      rintro ⟨-, _, _, _, _, isSome, -⟩
      cases isSome
  | some suite =>
      rw [if_neg (by simp), if_neg Bool.false_ne_true, post_bind, post_pure]
      simp only [positive, if_true, Option.some.injEq, exists_and_left, exists_eq_left']
      unfold checkQueueTx
      rw [post_bind, post_bind, post_get, post_ite]
      refine ⟨fun full => ⟨.refl, ?_⟩, fun room => ?_⟩
      · simp only [Bool.and_eq_true, Bool.not_eq_true', decide_eq_true_eq] at full
        rintro ⟨append | short, -⟩
        · cases full.1.symm.trans append
        · exact absurd full.2 (Nat.not_le.mpr short)
      rw [post_pure, if_neg isProtected]
      have room : e.canAppend false (DTLSRecord.headerLen + fragment.length + e.minProtectedFragmentLen) =
          true ∨ e.queueTx.length < e.config.maxQueueTx := by
        simpa [Bool.and_eq_true, imp_iff_not_or] using room
      simp only [room, true_and]
      unfold protectFragment selectedCipherSuite
      rw [post_bind, post_bind, post_bind, post_get, isSuite, post_orThrow]
      refine ⟨?_, nofun⟩
      rintro _ ⟨⟩
      rw [post_bind, post_get, post_bind, post_orThrow]
      refine ⟨fun iv isIv => ?_, fun noIv => ⟨.refl, ?_⟩⟩
      swap
      · rintro ⟨iv, isIv, -⟩
        cases noIv.symm.trans isIv
      simp only [isIv, Option.some.injEq, exists_eq_left']
      rw [post_bind]
      refine sendNonce_grants.mono ?_ ?_
      swap
      · rintro _ _ ⟨⟨rng, rfl⟩, noNonce⟩
        exact ⟨⟨rng, rfl⟩, fun parts => noNonce parts.1⟩
      rintro _ _ ⟨⟨rng, rfl⟩, rfl, parts⟩
      simp only [parts, and_self, true_and]
      rw [post_bind, post_liftCrypto]
      refine ⟨fun cipher isCipher => ?_, fun err noCipher => ⟨⟨rng, rfl⟩, ?_⟩⟩
      swap
      · rintro ⟨cipher, isCipher, -⟩
        cases noCipher.symm.trans isCipher
      simp only [isCipher, Except.ok.injEq, exists_eq_left']
      rw [post_bind, post_liftCrypto]
      refine ⟨fun ciphertext isSealed => ?_, fun err refused => ⟨⟨rng, rfl⟩, ?_⟩⟩
      · rw [post_pure, post_modify]
        exact ⟨ciphertext, isSealed⟩
      · rintro ⟨ciphertext, isSealed⟩
        cases refused.symm.trans isSealed

end Sending

end Dimpl.Dtls12
