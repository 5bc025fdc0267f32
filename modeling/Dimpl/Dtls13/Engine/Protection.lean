import Dimpl.Dtls13.Engine.Receipt

/-!
# A record from one side to the other

What sealing puts on the wire, and what the receiver makes of it: the mask comes off, the header
that was authenticated is back, and the low bits of epoch and number are completed.
-/

namespace Dimpl.Dtls13

open Nom Program

/-- The bytes by which the transmit queue grew. -/
def Engine.emitted (e e' : Engine) : Bytes := e'.queueTx.flatten.drop e.queueTx.flatten.length

/-- The mask for the number of a record. -/
def snMask (suite : SupportedDtls13CipherSuite) (keys : EpochKeys) (ciphertext : Bytes) : Bytes :=
  if 16 ≤ ciphertext.length then suite.encryptSn keys.snKey (ciphertext.take 16)
  else List.replicate 16 0

section Numbers

theorem xorMask_mask {mask : Bytes} {first second : UInt8} :
    xorMask [first ^^^ mask.getD 0 0, second ^^^ mask.getD 1 0] mask = [first, second] := by
  match mask with
  | [] => simp [xorMask]
  | [one] => simp [xorMask, UInt8.xor_assoc]
  | one :: two :: others => simp [xorMask, UInt8.xor_assoc]

end Numbers

section Flags

/-- What the first byte of the header written here says. -/
theorem flags_unified {epoch : Nat} :
    Dtls13Record.isCiphertextHeader (0b00101100 ||| UInt8.ofNat (epoch % 4)) = true ∧
      Dtls13Record.cFlag (0b00101100 ||| UInt8.ofNat (epoch % 4)) = false ∧
      Dtls13Record.sFlag (0b00101100 ||| UInt8.ofNat (epoch % 4)) = true ∧
      Dtls13Record.lFlag (0b00101100 ||| UInt8.ofNat (epoch % 4)) = true ∧
      Dtls13Record.epochBits (0b00101100 ||| UInt8.ofNat (epoch % 4)) = epoch % 4 := by
  have bits : epoch % 4 = 0 ∨ epoch % 4 = 1 ∨ epoch % 4 = 2 ∨ epoch % 4 = 3 := by omega
  rcases bits with bits | bits | bits | bits
  all_goals
    rw [bits]
    decide

/-- The header written here is read back. -/
theorem parse_unifiedHeader {epoch number : Nat} {ciphertext : Bytes} (fits : ciphertext.length < 65536) :
    Record.ofBuffer (Dtls13Record.unifiedHeader ⟨epoch, number⟩ ciphertext.length ++ ciphertext) =
      .ok (Record.ofHeader (Dtls13Record.unifiedHeader ⟨epoch, number⟩ ciphertext.length ++ ciphertext)
        { contentType := .applicationData
          sequence := ⟨epoch % 4, number % 65536⟩
          length := ciphertext.length
          fragmentRange := ⟨5, 5 + ciphertext.length⟩ }) := by
  obtain ⟨isCiphertext, noId, long, hasLength, bits⟩ := @flags_unified epoch
  have parsed : Dtls13Record.parse 0
      (Dtls13Record.unifiedHeader ⟨epoch, number⟩ ciphertext.length ++ ciphertext) =
      .ok ({ contentType := .applicationData
             sequence := ⟨epoch % 4, number % 65536⟩
             length := ciphertext.length
             fragmentRange := ⟨5, 5 + ciphertext.length⟩ }, []) := by
    have seqLen : Dtls13Record.seqLen (0b00101100 ||| UInt8.ofNat (epoch % 4)) = 2 := if_pos long
    have range := @takeRange_append ciphertext [] 0 ciphertext.length
      ((0b00101100 ||| UInt8.ofNat (epoch % 4)) :: (be16 number ++ be16 ciphertext.length)) rfl
    unfold Dtls13Record.unifiedHeader Dtls13Record.parse
    simp only [List.cons_append, isCiphertext, if_true]
    unfold Dtls13Record.parseCiphertext
    refine (bind_of_ok rfl).trans ((bind_of_ok rfl).trans ?_)
    refine (bind_of_ok (require_of (by rw [noId]; rfl))).trans ?_
    rw [seqLen, List.append_assoc]
    refine (bind_of_ok (beUint_append (length_be16 number))).trans ?_
    unfold Dtls13Record.ciphertextLen
    rw [if_pos hasLength]
    refine (bind_of_ok (beUint_append (length_be16 _))).trans ?_
    rw [beValue_be16, beValue_be16, Nat.mod_eq_of_lt fits]
    rw [List.append_nil, List.cons_append, List.append_assoc] at range
    refine (bind_of_ok range).trans ?_
    rw [bits]
    rfl
  unfold Record.ofBuffer Nom.parse StateT.run
  rw [parsed]
  rfl

end Flags

/-- A record on the wire: its number is masked. -/
def wireRecord (suite : SupportedDtls13CipherSuite) (keys : EpochKeys) (sequence : Sequence)
    (ciphertext : Bytes) : Bytes :=
  maskSequenceBytes (snMask suite keys ciphertext)
    (Dtls13Record.unifiedHeader sequence ciphertext.length ++ ciphertext)

/-- What both sides of a protected epoch have in common. -/
structure Shares (sender receiver : Engine) (suite : SupportedDtls13CipherSuite)
    (keys keys' : EpochKeys) (epoch : Nat) : Prop where
  word : epoch < 65536
  sendSuite : sender.suiteProvider = some suite
  recvSuite : receiver.suiteProvider = some suite
  sendKeys : sender.slotKeys (sender.sendSlot epoch) = some keys
  recvKeys : receiver.recvKeys epoch = some keys'
  cipher : keys'.cipher = keys.cipher
  iv : keys'.iv = keys.iv
  snKey : keys'.snKey = keys.snKey
  opens : keys.cipher.Opens suite.tagLen
  enabled : receiver.peerEncryptionEnabled = true

/-- The low bits of an epoch stand for it: there are no handshake keys with the same, and no newer
keys of the application. -/
def Engine.StandsFor (e : Engine) (epoch : Nat) : Prop :=
  epoch = 2 ∨ (epoch % 4 = 2 → e.hsRecvKeys = none) ∧
    (e.appRecvKeys.filter fun entry => entry.epoch % 4 = epoch % 4).getLast?.map
      RecvEpochEntry.epoch = some epoch

/-- What the receiver makes of a record is what was sent: type, number and content, and the header
that was authenticated is the one it was sealed with. -/
def Returned (receiver : Engine) (cipher : Cipher) (iv : Bytes) (contentType : ContentType)
    (sequence : Sequence) (fragment wire : Bytes) : Prop :=
  ∃ r header ciphertext, value? (parseRecord wire) receiver = some (some r) ∧
    r.record.contentType = contentType ∧ r.record.sequence = sequence ∧ r.fragment = fragment ∧
    value? (decryptSequenceNumber wire) receiver = some (header ++ ciphertext) ∧
    header.length = r.record.fragmentRange.start ∧
    cipher.encrypt (fragment ++ [contentType.asU8]) (Aad.newDtls13 header)
      (Nonce.xor iv sequence.sequenceNumber) = .ok ciphertext

section Receiving

variable {sender receiver : Engine} {suite : SupportedDtls13CipherSuite} {keys keys' : EpochKeys}
  {epoch number : Nat} {fragment ciphertext : Bytes} {contentType : ContentType}

/-- The epoch of a record is found again exactly if its low bits stand for it. -/
theorem resolveEpoch_iff (isKeys : receiver.recvKeys epoch = some keys) :
    receiver.resolveEpoch (epoch % 4) = epoch ↔ receiver.StandsFor epoch := by
  unfold Engine.resolveEpoch Engine.StandsFor
  unfold Engine.recvKeys at isKeys
  by_cases handshake : epoch = 2
  · subst handshake
    rw [if_pos rfl] at isKeys
    simp [isKeys]
  · rw [if_neg handshake] at isKeys
    obtain ⟨entry, isEntry, -⟩ := Option.map_eq_some_iff.mp isKeys
    have isMatch : entry ∈ receiver.appRecvKeys.filter fun other => other.epoch % 4 = epoch % 4 := by
      refine List.mem_filter.mpr ⟨List.mem_of_find?_eq_some isEntry, ?_⟩
      have same := List.find?_some isEntry
      simp only [decide_eq_true_eq] at same
      simp [same]
    cases isLast : (receiver.appRecvKeys.filter fun other => other.epoch % 4 = epoch % 4).getLast? with
    | none =>
        rw [List.getLast?_eq_none_iff] at isLast
        rw [isLast] at isMatch
        cases isMatch
    | some last =>
        by_cases hidden : epoch % 4 = 2
        · cases receiver.hsRecvKeys <;> simp [hidden, handshake, Ne.symm handshake]
        · simp [hidden, handshake]

/-- The bytes of a record, one by one as far as they are masked. -/
theorem wireRecord_eq {mask : Bytes} (isMask : snMask suite keys ciphertext = mask) :
    wireRecord suite keys ⟨epoch, number⟩ ciphertext =
      (0b00101100 ||| UInt8.ofNat (epoch % 4)) ::
        ([UInt8.ofNat (number / 256) ^^^ mask.getD 0 0, UInt8.ofNat number ^^^ mask.getD 1 0] ++
          (be16 ciphertext.length ++ ciphertext)) := by
  rw [← isMask]
  rfl

/-- The receiver takes the mask off again. -/
theorem decryptSequenceNumber_wire (shares : Shares sender receiver suite keys keys' epoch)
    (resolves : receiver.resolveEpoch (epoch % 4) = epoch) :
    Post (decryptSequenceNumber (wireRecord suite keys ⟨epoch, number⟩ ciphertext)) receiver
      (fun buffer e' => receiver = e' ∧
        Dtls13Record.unifiedHeader ⟨epoch, number⟩ ciphertext.length ++ ciphertext = buffer)
      fun _ _ => False := by
  obtain ⟨isCiphertext, -, long, hasLength, bits⟩ := @flags_unified epoch
  have seqLen : Dtls13Record.seqLen (0b00101100 ||| UInt8.ofNat (epoch % 4)) = 2 := if_pos long
  have headerLen : Dtls13Record.unifiedHeaderLen (0b00101100 ||| UInt8.ofNat (epoch % 4)) = 5 := by
    rw [Dtls13Record.unifiedHeaderLen, seqLen, if_pos hasLength]
  obtain ⟨mask, isMask⟩ : ∃ mask, snMask suite keys ciphertext = mask := ⟨_, rfl⟩
  have header : Dtls13Record.unifiedHeader ⟨epoch, number⟩ ciphertext.length ++ ciphertext =
      (0b00101100 ||| UInt8.ofNat (epoch % 4)) ::
        ([UInt8.ofNat (number / 256), UInt8.ofNat number] ++ (be16 ciphertext.length ++ ciphertext)) := rfl
  unfold decryptSequenceNumber
  rw [wireRecord_eq isMask, post_bind, post_get]
  simp only [List.headD_cons, isCiphertext, shares.enabled, headerLen, seqLen, bits, resolves,
    shares.recvKeys, Bool.true_and]
  rw [post_ite]
  refine ⟨fun enough => ?_, fun short => ?_⟩
  · have sampled : 16 ≤ ciphertext.length := by
      simp only [List.length_cons, List.length_append, List.length_nil, length_be16,
        decide_eq_true_eq] at enough
      omega
    unfold suiteProvider
    rw [post_bind, post_bind, post_get, shares.recvSuite]
    unfold snMask at isMask
    rw [if_pos sampled, ← shares.snKey] at isMask
    have sample : ((0b00101100 ||| UInt8.ofNat (epoch % 4)) ::
        ([UInt8.ofNat (number / 256) ^^^ mask.getD 0 0, UInt8.ofNat number ^^^ mask.getD 1 0] ++
          (be16 ciphertext.length ++ ciphertext))).drop 5 = ciphertext := rfl
    unfold orThrow
    rw [post_pure, post_pure, sample, isMask]
    refine ⟨rfl, ?_⟩
    have unmasked := @xorMask_mask mask (UInt8.ofNat (number / 256)) (UInt8.ofNat number)
    have masked : (List.drop 1 ((0b00101100 ||| UInt8.ofNat (epoch % 4)) ::
        ([UInt8.ofNat (number / 256) ^^^ mask.getD 0 0, UInt8.ofNat number ^^^ mask.getD 1 0] ++
          (be16 ciphertext.length ++ ciphertext)))).take 2 =
        [UInt8.ofNat (number / 256) ^^^ mask.getD 0 0, UInt8.ofNat number ^^^ mask.getD 1 0] := rfl
    rw [header, masked, unmasked]
    rfl
  · have unsampled : ¬16 ≤ ciphertext.length := by
      simp only [List.length_cons, List.length_append, List.length_nil, length_be16,
        decide_eq_true_eq] at short
      omega
    unfold snMask at isMask
    rw [if_neg unsampled] at isMask
    rw [post_pure, header, ← isMask]
    refine ⟨rfl, ?_⟩
    simp

/-- A header and its ciphertext open to what was sealed. -/
theorem openRecord_wire (shares : Shares sender receiver suite keys keys' epoch)
    (resolves : receiver.resolveEpoch (epoch % 4) = epoch)
    (isSealed : keys.cipher.encrypt (fragment ++ [contentType.asU8])
      (Aad.newDtls13 (Dtls13Record.unifiedHeader ⟨epoch, number⟩ ciphertext.length))
      (Nonce.xor keys.iv number) = .ok ciphertext)
    (type : contentType.asU8 ≠ 0) (near : number < receiver.expectedRecvSeq epoch + 32768)
    (near' : receiver.expectedRecvSeq epoch < number + 32768)
    (admitted : receiver.replayCheck ⟨epoch, number⟩ = true) :
    Post (openRecord (wireRecord suite keys ⟨epoch, number⟩ ciphertext)
        (Record.ofHeader (Dtls13Record.unifiedHeader ⟨epoch, number⟩ ciphertext.length ++ ciphertext)
          { contentType := .applicationData
            sequence := ⟨epoch % 4, number % 65536⟩
            length := ciphertext.length
            fragmentRange := ⟨5, 5 + ciphertext.length⟩ }))
      receiver
      (fun result _ => ∃ r, result = some r ∧ r.record.contentType = contentType ∧
        r.record.sequence = ⟨epoch, number⟩ ∧ r.fragment = fragment ∧ r.record.fragmentRange.start = 5)
      fun _ _ => False := by
  obtain ⟨-, -, long, -, -⟩ := @flags_unified epoch
  obtain ⟨opened, length⟩ := shares.opens _ _ _ _ isSealed
  obtain ⟨mask, isMask⟩ : ∃ mask, snMask suite keys ciphertext = mask := ⟨_, rfl⟩
  rw [wireRecord_eq isMask]
  generalize isHeader : Dtls13Record.unifiedHeader ⟨epoch, number⟩ ciphertext.length = header at *
  have headerLen : header.length = 5 := by
    rw [← isHeader]
    rfl
  have sequence : receiver.fullSequence (0b00101100 ||| UInt8.ofNat (epoch % 4))
      (Record.ofHeader (header ++ ciphertext)
        { contentType := .applicationData
          sequence := ⟨epoch % 4, number % 65536⟩
          length := ciphertext.length
          fragmentRange := ⟨5, 5 + ciphertext.length⟩ }) = ⟨epoch, number⟩ := by
    have close : ((number : Int) - receiver.expectedRecvSeq epoch).natAbs <
        2 ^ (numberBits true - 1) := by
      simp only [numberBits, if_true, Nat.reduceSub, Nat.reducePow]
      omega
    have completed : receiver.resolveSequence epoch (number % 65536) true = number :=
      reconstructSequence_near close
    unfold Engine.fullSequence
    simp only [Record.ofHeader, resolves, long, completed]
  have front : (header ++ ciphertext).take 5 = header := List.take_left' headerLen
  have back : (header ++ ciphertext).drop 5 = ciphertext := List.drop_left' headerLen
  unfold openRecord
  rw [post_bind, post_get]
  simp only [List.headD_cons, sequence, admitted, Bool.not_true, Bool.false_eq_true, if_false]
  unfold suiteProvider
  rw [post_bind, post_bind, post_get, shares.recvSuite]
  unfold orThrow
  rw [post_pure]
  simp only [Record.ofHeader, front, back]
  rw [post_ite]
  refine ⟨fun short => ?_, fun _ => ?_⟩
  · rw [length] at short
    exact absurd short (Nat.not_lt.mpr (Nat.le_add_left _ _))
  · have decrypted : receiver.decryptRecord header ⟨epoch, number⟩ ciphertext =
        .ok (keys'.id, fragment ++ [contentType.asU8]) := by
      unfold Engine.decryptRecord
      rw [shares.recvKeys]
      simp only [shares.cipher, shares.iv, opened]
      rfl
    rw [decrypted]
    simp only [post_bind, post_modify, recoverInnerContentType_append type, post_pure]
    refine ⟨_, rfl, rfl, rfl, ?_, rfl⟩
    have content := @slice_opened header (fragment ++ [contentType.asU8])
      (ciphertext.drop (fragment ++ [contentType.asU8]).length) 5 fragment.length headerLen.ge (by simp)
    rw [List.take_of_length_le headerLen.le, List.take_left] at content
    exact content

/-- `Record::parse` gives back what was sealed. -/
theorem parseRecord_wire (shares : Shares sender receiver suite keys keys' epoch)
    (resolves : receiver.resolveEpoch (epoch % 4) = epoch)
    (fits : ciphertext.length < 65536)
    (isSealed : keys.cipher.encrypt (fragment ++ [contentType.asU8])
      (Aad.newDtls13 (Dtls13Record.unifiedHeader ⟨epoch, number⟩ ciphertext.length))
      (Nonce.xor keys.iv number) = .ok ciphertext)
    (type : contentType.asU8 ≠ 0) (near : number < receiver.expectedRecvSeq epoch + 32768)
    (near' : receiver.expectedRecvSeq epoch < number + 32768)
    (admitted : receiver.replayCheck ⟨epoch, number⟩ = true) :
    Returned receiver keys.cipher keys.iv contentType ⟨epoch, number⟩ fragment
      (wireRecord suite keys ⟨epoch, number⟩ ciphertext) := by
  obtain ⟨isCiphertext, -⟩ := @flags_unified epoch
  have first : (wireRecord suite keys ⟨epoch, number⟩ ciphertext).headD 0 =
      0b00101100 ||| UInt8.ofNat (epoch % 4) := rfl
  have unmasked := @decryptSequenceNumber_wire _ _ _ _ _ _ number ciphertext shares resolves
  have parsed : Post (parseRecord (wireRecord suite keys ⟨epoch, number⟩ ciphertext)) receiver
      (fun result _ => ∃ r, result = some r ∧ r.record.contentType = contentType ∧
        r.record.sequence = ⟨epoch, number⟩ ∧ r.fragment = fragment ∧ r.record.fragmentRange.start = 5)
      fun _ _ => False := by
    unfold parseRecord
    rw [post_bind]
    refine unmasked.mono ?_ fun _ _ => id
    rintro _ _ ⟨rfl, rfl⟩
    rw [post_bind, post_get, parse_unifiedHeader fits, first, isCiphertext, shares.enabled]
    exact openRecord_wire shares resolves isSealed type near near' admitted
  rcases parsed.outcome with ⟨_, returned, r, rfl, isType, isSequence, isFragment, start⟩ | ⟨-, _, impossible⟩
  · rcases unmasked.outcome with ⟨buffer, read, -, isBuffer⟩ | ⟨-, _, impossible⟩
    · refine ⟨r, Dtls13Record.unifiedHeader ⟨epoch, number⟩ ciphertext.length, ciphertext, returned, isType,
        isSequence, isFragment, isBuffer ▸ read, ?_, isSealed⟩
      rw [start]
      rfl
    · exact impossible.elim
  · exact impossible.elim

/-- Unmasking leaves the first byte alone. -/
theorem decryptSequenceNumber_first {wire : Bytes} :
    Post (decryptSequenceNumber wire) receiver
      (fun buffer e' => receiver = e' ∧ buffer.headD 0 = wire.headD 0) fun _ _ => True := by
  unfold decryptSequenceNumber
  rw [post_bind, post_get]
  dsimp only
  rw [post_ite]
  refine ⟨fun _ => ?_, fun _ => ⟨rfl, rfl⟩⟩
  split
  · exact ⟨rfl, rfl⟩
  · rw [post_bind]
    refine (suiteProvider_readOnly receiver).mono ?_ fun _ _ _ => trivial
    rintro _ _ rfl
    exact ⟨rfl, rfl⟩

/-- The low bits of the epoch are those of the first byte. -/
theorem parseCiphertext_epoch {input rest : Bytes} {record : Dtls13Record} {baseOffset : Nat}
    (parsed : Dtls13Record.parseCiphertext baseOffset input = .ok (record, rest)) :
    record.sequence.epoch = Dtls13Record.epochBits (input.headD 0) := by
  unfold Dtls13Record.parseCiphertext at parsed
  replace parsed := remaining_bind_ok parsed
  obtain ⟨flags, _, first, parsed⟩ := bind_ok parsed
  obtain rfl := beU8_ok first
  obtain ⟨_, _, _, parsed⟩ := bind_ok parsed
  obtain ⟨number, _, _, parsed⟩ := bind_ok parsed
  obtain ⟨length, _, _, parsed⟩ := bind_ok parsed
  obtain ⟨range, _, _, parsed⟩ := bind_ok parsed
  obtain ⟨rfl, _⟩ := pure_ok parsed
  rfl

theorem ofBuffer_epoch {buffer : Bytes} {r : Record} (parsed : Record.ofBuffer buffer = .ok r)
    (isCiphertext : Dtls13Record.isCiphertextHeader (buffer.headD 0) = true) :
    r.record.sequence.epoch = Dtls13Record.epochBits (buffer.headD 0) := by
  unfold Record.ofBuffer Nom.parse StateT.run at parsed
  cases outcome : Dtls13Record.parse 0 buffer with
  | error err =>
      rw [outcome] at parsed
      cases parsed
  | ok result =>
      rw [outcome] at parsed
      cases parsed
      cases buffer with
      | nil => cases outcome
      | cons byte bytes =>
          rw [List.headD_cons] at isCiphertext
          simp only [Dtls13Record.parse, isCiphertext, if_true] at outcome
          exact parseCiphertext_epoch outcome

/-- A record that opens is one of the epoch its low bits stand for. -/
theorem parseRecord_epoch {wire : Bytes} (enabled : receiver.peerEncryptionEnabled = true)
    (isCiphertext : Dtls13Record.isCiphertextHeader (wire.headD 0) = true) :
    Post (parseRecord wire) receiver
      (fun result _ => ∀ r, result = some r →
        r.record.sequence.epoch = receiver.resolveEpoch (Dtls13Record.epochBits (wire.headD 0)))
      fun _ _ => True := by
  unfold parseRecord
  rw [post_bind]
  refine decryptSequenceNumber_first.mono ?_ fun _ _ _ => trivial
  rintro buffer _ ⟨rfl, first⟩
  rw [post_bind, post_get]
  cases parsed : Record.ofBuffer buffer with
  | error err => exact fun _ => nofun
  | ok r =>
      have epoch := ofBuffer_epoch parsed (first ▸ isCiphertext)
      rw [first] at epoch
      simp only [isCiphertext, enabled, Bool.not_true, Bool.or_self, Bool.false_eq_true, if_false]
      unfold openRecord
      rw [post_bind, post_get]
      dsimp only
      rw [post_ite]
      refine ⟨fun _ _ => nofun, fun _ => ?_⟩
      rw [post_bind]
      refine (suiteProvider_readOnly receiver).mono ?_ fun _ _ _ => trivial
      rintro suite _ rfl
      rw [post_ite]
      refine ⟨fun _ _ => nofun, fun _ => ?_⟩
      split
      · exact fun _ => nofun
      · rw [post_bind, post_modify]
        split
        · exact fun _ => nofun
        · rintro _ ⟨⟩
          exact congrArg receiver.resolveEpoch epoch

end Receiving

section Sending

variable {e e' : Engine} {contentType : ContentType} {epoch : Nat} {saveFragment : Bool} {fragment : Bytes}

theorem Engine.emitted_enqueueRecord {append : Bool} {bytes : Bytes} (same : e'.queueTx = e.queueTx) :
    e.emitted (e'.enqueueRecord append bytes) = bytes := by
  have grown : (e'.enqueueRecord append bytes).queueTx.flatten = e.queueTx.flatten ++ bytes := by
    unfold Engine.enqueueRecord
    rw [← same]
    cases append with
    | false => simp
    | true =>
        rcases List.eq_nil_or_concat e'.queueTx with none | ⟨front, last, isLast⟩
        · simp [none]
        · simp [isLast]
  unfold Engine.emitted
  rw [grown, List.drop_left]

/-- What sealing a record leaves in the transmit queue. -/
theorem createCiphertextRecord_emits :
    Post (createCiphertextRecord contentType epoch saveFragment fragment) e
      (fun _ e' => ∃ suite keys ciphertext, e.suiteProvider = some suite ∧
        e.slotKeys (e.sendSlot epoch) = some keys ∧
        keys.cipher.encrypt (fragment ++ [contentType.asU8])
          (Aad.newDtls13 (Dtls13Record.unifiedHeader ⟨epoch, e.slotSeq (e.sendSlot epoch)⟩
            (fragment.length + 1 + suite.tagLen)))
          (Nonce.xor keys.iv (e.slotSeq (e.sendSlot epoch))) = .ok ciphertext ∧
        e.slotSeq (e.sendSlot epoch) < maxSequenceNumber ∧
        e.emitted e' = maskSequenceBytes (snMask suite keys ciphertext)
          (Dtls13Record.serialize .applicationData ⟨epoch, e.slotSeq (e.sendSlot epoch)⟩ ciphertext))
      fun _ _ => True := by
  have saved : Post (runIf saveFragment (saveEntry
      { contentType, epoch, sendSeq := e.slotSeq (e.sendSlot epoch), fragment, acked := false })) e
      (fun _ e₁ => e₁.queueTx = e.queueTx ∧ e₁.suiteProvider = e.suiteProvider) fun _ _ => True := by
    rw [post_runIf]
    refine ⟨fun _ => saveEntry_post.mono ?_ fun _ _ _ => trivial, fun _ => ⟨rfl, rfl⟩⟩
    rintro _ _ rfl
    exact ⟨rfl, rfl⟩
  unfold createCiphertextRecord
  rw [post_bind, post_get, post_bind]
  refine saved.mono ?_ fun _ _ _ => trivial
  rintro _ e₁ ⟨sameQueue, sameSuite⟩
  unfold suiteProvider
  rw [post_bind, post_bind, post_get, post_orThrow, sameSuite]
  refine ⟨fun suite isSuite => ?_, fun _ => trivial⟩
  rw [post_bind, post_orThrow]
  refine ⟨fun keys isKeys => ?_, fun _ => trivial⟩
  rw [post_bind, post_liftCrypto]
  refine ⟨fun ciphertext encrypted => ?_, fun _ _ => trivial⟩
  rw [List.length_append, List.length_singleton] at encrypted
  rw [post_bind]
  unfold checkQueueTx
  rw [post_bind, post_get, post_ite]
  refine ⟨fun _ => trivial, fun _ => ?_⟩
  rw [post_pure, post_ite]
  refine ⟨fun _ => trivial, fun room => ?_⟩
  rw [post_modify]
  refine ⟨suite, keys, ciphertext, isSuite, isKeys, encrypted, Nat.lt_of_not_le room, ?_⟩
  refine Engine.emitted_enqueueRecord ?_
  cases e.sendSlot epoch <;> exact sameQueue

/-- There are keys, a number and room for a record, and its cipher takes it. -/
def Engine.Grants (e : Engine) (contentType : ContentType) (epoch : Nat) (fragment : Bytes) : Prop :=
  ∃ suite keys ciphertext, e.suiteProvider = some suite ∧ e.slotKeys (e.sendSlot epoch) = some keys ∧
    keys.cipher.encrypt (fragment ++ [contentType.asU8])
      (Aad.newDtls13 (Dtls13Record.unifiedHeader ⟨epoch, e.slotSeq (e.sendSlot epoch)⟩
        (fragment.length + 1 + suite.tagLen)))
      (Nonce.xor keys.iv (e.slotSeq (e.sendSlot epoch))) = .ok ciphertext ∧
    (e.canAppend (5 + ciphertext.length) = true ∨ e.queueTx.length < e.config.maxQueueTx) ∧
    e.slotSeq (e.sendSlot epoch) < maxSequenceNumber

/-- A record is refused exactly for want of these, and then nothing changes. -/
theorem createCiphertextRecord_grants :
    Post (createCiphertextRecord contentType epoch false fragment) e
      (fun _ _ => e.Grants contentType epoch fragment)
      fun _ e' => e = e' ∧ ¬e.Grants contentType epoch fragment := by
  unfold createCiphertextRecord suiteProvider Engine.Grants
  rw [post_bind, post_get, post_bind]
  unfold runIf
  rw [if_neg Bool.false_ne_true, post_pure, post_bind, post_bind, post_get, post_orThrow]
  refine ⟨fun suite isSuite => ?_, fun noSuite => ?_⟩
  swap
  · refine ⟨rfl, ?_⟩
    rintro ⟨suite, _, _, isSuite, -⟩
    cases noSuite.symm.trans isSuite
  rw [post_bind, post_orThrow]
  refine ⟨fun keys isKeys => ?_, fun noKeys => ?_⟩
  swap
  · refine ⟨rfl, ?_⟩
    rintro ⟨_, keys, _, -, isKeys, -⟩
    cases noKeys.symm.trans isKeys
  simp only [isSuite, isKeys, Option.some.injEq, exists_and_left, exists_eq_left']
  rw [post_bind, post_liftCrypto]
  rw [List.length_append, List.length_singleton]
  refine ⟨fun ciphertext isSealed => ?_, fun err refused => ?_⟩
  swap
  · refine ⟨rfl, ?_⟩
    rintro ⟨ciphertext, isSealed, -⟩
    cases refused.symm.trans isSealed
  simp only [isSealed, Except.ok.injEq, exists_eq_left']
  unfold checkQueueTx
  rw [post_bind, post_bind, post_get, post_ite]
  refine ⟨fun full => ?_, fun room => ?_⟩
  · refine ⟨rfl, ?_⟩
    simp only [Bool.and_eq_true, Bool.not_eq_true', decide_eq_true_eq] at full
    rintro ⟨append | short, -⟩
    · cases full.1.symm.trans append
    · exact absurd full.2 (Nat.not_le.mpr short)
  · rw [post_pure, post_ite]
    refine ⟨fun exhausted => ⟨rfl, fun grants => absurd grants.2 (Nat.not_lt.mpr exhausted)⟩, fun left => ?_⟩
    rw [post_modify]
    refine ⟨?_, Nat.lt_of_not_le left⟩
    simpa [Bool.and_eq_true, imp_iff_not_or] using room

end Sending

end Dimpl.Dtls13
