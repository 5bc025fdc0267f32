import Dimpl.Dtls13.Engine.Protection
import Dimpl.Dtls12.Engine.Authenticity
import Dimpl.Dtls12.Engine.Protection
import Dimpl.Dtls12.Engine.Replay
import Dimpl.Sample

/-!
# Records from one side to the other

A protected record comes out as it went in, unless its epoch started again at zero: then it is
written with the header of a plaintext record.
-/

namespace Dimpl

open Nom Program

namespace Dtls13

section Protection

variable {sender receiver : Engine} {suite : SupportedDtls13CipherSuite} {keys keys' : EpochKeys}
  {contentType : ContentType} {epoch : Nat} {saveFragment : Bool} {fragment : Bytes}

/-- Application data never comes in a plaintext record. -/
theorem ofBuffer_applicationData {rest : Bytes} {r : Record} :
    Record.ofBuffer (ContentType.applicationData.asU8 :: rest) ≠ .ok r := by
  intro parsed
  have outcome : ∃ result, Dtls13Record.parsePlaintext 0 (ContentType.applicationData.asU8 :: rest) =
      .ok result := by
    unfold Record.ofBuffer Nom.parse StateT.run at parsed
    have plain : Dtls13Record.isCiphertextHeader ContentType.applicationData.asU8 = false := by decide
    simp only [Dtls13Record.parse, plain, Bool.false_eq_true, if_false] at parsed
    cases outcome : Dtls13Record.parsePlaintext 0 (ContentType.applicationData.asU8 :: rest) with
    | ok result => exact ⟨result, rfl⟩
    | error err =>
        rw [outcome] at parsed
        cases parsed
  obtain ⟨result, outcome⟩ := outcome
  unfold Dtls13Record.parsePlaintext at outcome
  replace outcome := remaining_bind_ok outcome
  obtain ⟨type, _, first, outcome⟩ := bind_ok outcome
  obtain ⟨byte, _, isByte, first⟩ := bind_ok first
  obtain ⟨rfl, -⟩ := pure_ok first
  obtain ⟨rfl, -⟩ := List.cons.inj (beU8_ok isByte)
  obtain ⟨_, _, _, outcome⟩ := bind_ok outcome
  obtain ⟨_, _, types, outcome⟩ := bind_ok outcome
  exact absurd (require_ok types).1 (by decide)

/-- A record of the epoch zero is discarded. -/
theorem parseRecord_applicationData {rest : Bytes} :
    value? (parseRecord (ContentType.applicationData.asU8 :: rest)) receiver = some none := by
  have discarded : Post (parseRecord (ContentType.applicationData.asU8 :: rest)) receiver
      (fun result _ => result = none) fun _ _ => False := by
    unfold parseRecord
    rw [post_bind]
    have plain : Dtls13Record.isCiphertextHeader
        ((ContentType.applicationData.asU8 :: rest).headD 0) = false := by
      rw [List.headD_cons]
      decide
    refine (decryptSequenceNumber_clear (.inl plain)).mono ?_ fun _ _ => id
    rintro _ _ ⟨rfl, -⟩
    rw [post_bind, post_get]
    split
    · rfl
    · rename_i r parsed
      exact absurd parsed ofBuffer_applicationData
  rcases discarded.outcome with ⟨_, returned, rfl⟩ | ⟨-, _, impossible⟩
  · exact returned
  · exact impossible.elim

/-- What was sealed comes back exactly if the epoch is not zero and its low bits stand for it. -/
theorem sealed_returns_iff {number : Nat} {ciphertext : Bytes}
    (shares : Shares sender receiver suite keys keys' epoch)
    (library : contentType ∈ [ContentType.alert, .handshake, .applicationData, .ack])
    (fits : ciphertext.length < 65536) (near : number < receiver.expectedRecvSeq epoch + 32768)
    (near' : receiver.expectedRecvSeq epoch < number + 32768)
    (admitted : receiver.replayCheck ⟨epoch, number⟩ = true)
    (isSealed : keys.cipher.encrypt (fragment ++ [contentType.asU8])
      (Aad.newDtls13 (Dtls13Record.unifiedHeader ⟨epoch, number⟩ ciphertext.length))
      (Nonce.xor keys.iv number) = .ok ciphertext) :
    Returned receiver keys.cipher keys.iv contentType ⟨epoch, number⟩ fragment
        (maskSequenceBytes (snMask suite keys ciphertext)
          (Dtls13Record.serialize .applicationData ⟨epoch, number⟩ ciphertext)) ↔
      epoch ≠ 0 ∧ receiver.StandsFor epoch := by
  have type : contentType.asU8 ≠ 0 := by
    simp only [List.mem_cons, List.not_mem_nil, or_false] at library
    rcases library with rfl | rfl | rfl | rfl
    all_goals decide
  have serialized : epoch ≠ 0 → Dtls13Record.serialize .applicationData ⟨epoch, number⟩ ciphertext =
      Dtls13Record.unifiedHeader ⟨epoch, number⟩ ciphertext.length ++ ciphertext :=
    fun later => if_neg later
  constructor
  · rintro ⟨r, header, text, returned, -, isSequence, -⟩
    have later : epoch ≠ 0 := by
      rintro rfl
      obtain ⟨rest, plain⟩ : ∃ rest, maskSequenceBytes (snMask suite keys ciphertext)
          (Dtls13Record.serialize .applicationData ⟨0, number⟩ ciphertext) =
          ContentType.applicationData.asU8 :: rest := ⟨_, rfl⟩
      rw [plain, parseRecord_applicationData] at returned
      cases returned
    refine ⟨later, (resolveEpoch_iff shares.recvKeys).mp ?_⟩
    rw [serialized later] at returned
    obtain ⟨isCiphertext, -, -, -, bits⟩ := @flags_unified epoch
    have first : (wireRecord suite keys ⟨epoch, number⟩ ciphertext).headD 0 =
        0b00101100 ||| UInt8.ofNat (epoch % 4) := rfl
    rw [← first] at isCiphertext bits
    rcases (parseRecord_epoch shares.enabled isCiphertext).outcome with
      ⟨result, parsed, isEpoch⟩ | ⟨discarded, -⟩
    · obtain rfl : result = some r := Option.some.inj (parsed.symm.trans returned)
      have isEpoch := isEpoch r rfl
      rw [bits, isSequence] at isEpoch
      exact isEpoch.symm
    · cases discarded.symm.trans returned
  · rintro ⟨later, stands⟩
    rw [serialized later]
    exact parseRecord_wire shares ((resolveEpoch_iff shares.recvKeys).mpr stands) fits isSealed type near
      near' admitted

end Protection

/-- What one side seals the other gets back, exactly if the epoch is not zero and its low bits stand
for it. -/
theorem protection_returns_iff (sender receiver : Engine) (suite : SupportedDtls13CipherSuite)
    (keys keys' : EpochKeys) (contentType : ContentType) (epoch : Nat) (saveFragment : Bool)
    (fragment : Bytes)
    (library : contentType ∈ [ContentType.alert, .handshake, .applicationData, .ack])
    (shares : Shares sender receiver suite keys keys' epoch)
    (fits : fragment.length + 1 + suite.tagLen < 65536)
    (near : sender.slotSeq (sender.sendSlot epoch) < receiver.expectedRecvSeq epoch + 32768)
    (near' : receiver.expectedRecvSeq epoch < sender.slotSeq (sender.sendSlot epoch) + 32768)
    (admitted : receiver.replayCheck ⟨epoch, sender.slotSeq (sender.sendSlot epoch)⟩ = true)
    (isSent : value? (createCiphertextRecord contentType epoch saveFragment fragment) sender = some ()) :
    Returned receiver keys.cipher keys.iv contentType
        ⟨epoch, sender.slotSeq (sender.sendSlot epoch)⟩ fragment
        (sender.emitted (finalState (createCiphertextRecord contentType epoch saveFragment fragment) sender)) ↔
      epoch ≠ 0 ∧ receiver.StandsFor epoch := by
  rcases (@createCiphertextRecord_emits sender contentType epoch saveFragment fragment).outcome with
    ⟨_, -, suite₁, keys₁, ciphertext, isSuite, isKeys, isSealed, -, isWire⟩ | ⟨failed, -⟩
  · obtain rfl : suite₁ = suite := Option.some.inj (isSuite.symm.trans shares.sendSuite)
    obtain rfl : keys₁ = keys := Option.some.inj (isKeys.symm.trans shares.sendKeys)
    have length := (shares.opens _ _ _ _ isSealed).2
    rw [List.length_append, List.length_singleton] at length
    rw [← length] at isSealed
    rw [isWire]
    exact sealed_returns_iff shares library (by omega) near near' admitted isSealed
  · cases failed.symm.trans isSent

namespace Protection

/-- Keys of the sample cipher. -/
def keys : EpochKeys :=
  { cipher := Sample.cipher 16 [1, 2], iv := List.replicate 12 7, trafficSecret := [3], snKey := [4]
    id := ⟨0, 3⟩ }

/-- An engine that sends in an application epoch. -/
def sender (epoch : Nat) : Engine :=
  { Engine.new Sample.config Sample.certificate (Sample.rng 0) with
    cipherSuite := some .aes128GcmSha256, appSendKeys := some keys, appSendEpoch := epoch }

/-- An engine with the keys of the other side. -/
def receiver (epoch : Nat) : Engine :=
  { Engine.new Sample.config Sample.certificate (Sample.rng 0) with
    cipherSuite := some .aes128GcmSha256, appRecvKeys := [.fresh epoch keys], peerEncryptionEnabled := true }

theorem shares {epoch : Nat} (word : epoch < 65536) (other : epoch ≠ 2) :
    Shares (sender epoch) (receiver epoch) Sample.suite13 keys keys epoch where
  word := word
  sendSuite := rfl
  recvSuite := rfl
  sendKeys := by
    unfold Engine.sendSlot
    rw [if_neg other]
    rfl
  recvKeys := by
    unfold Engine.recvKeys Engine.recvEntry
    rw [if_neg other]
    simp [receiver, RecvEpochEntry.fresh]
  cipher := rfl
  iv := rfl
  snKey := rfl
  opens := Sample.cipher_opens (by decide)
  enabled := rfl

end Protection

theorem protection_returns_sample :
    Returned (Protection.receiver 5) Protection.keys.cipher Protection.keys.iv .applicationData ⟨5, 0⟩
        [104, 105, 0, 0] ((Protection.sender 5).emitted
          (finalState (createCiphertextRecord .applicationData 5 false [104, 105, 0, 0])
            (Protection.sender 5))) ↔
      5 ≠ 0 ∧ (Protection.receiver 5).StandsFor 5 :=
  protection_returns_iff (Protection.sender 5) (Protection.receiver 5) Sample.suite13 Protection.keys
    Protection.keys .applicationData 5 false [104, 105, 0, 0] (by decide)
    (Protection.shares (by decide) (by decide)) (by decide) (by decide) (by decide)
    (by decide) (by decide)

/-- A record of an epoch that started again at zero does not come out. -/
theorem not_protection_returns :
    ¬ ∀ (sender receiver : Engine) (suite : SupportedDtls13CipherSuite) (keys keys' : EpochKeys)
        (contentType : ContentType) (epoch : Nat) (saveFragment : Bool) (fragment : Bytes),
      contentType ∈ [ContentType.alert, .handshake, .applicationData, .ack] →
      Shares sender receiver suite keys keys' epoch → fragment.length + 1 + suite.tagLen < 65536 →
      sender.slotSeq (sender.sendSlot epoch) < receiver.expectedRecvSeq epoch + 32768 →
      receiver.expectedRecvSeq epoch < sender.slotSeq (sender.sendSlot epoch) + 32768 →
      receiver.replayCheck ⟨epoch, sender.slotSeq (sender.sendSlot epoch)⟩ = true →
      value? (createCiphertextRecord contentType epoch saveFragment fragment) sender = some () →
      Returned receiver keys.cipher keys.iv contentType
        ⟨epoch, sender.slotSeq (sender.sendSlot epoch)⟩ fragment
        (sender.emitted
          (finalState (createCiphertextRecord contentType epoch saveFragment fragment) sender)) := by
  intro returns
  have shares := @Protection.shares 0 (by decide) (by decide)
  have returned := returns (Protection.sender 0) (Protection.receiver 0) Sample.suite13 Protection.keys
    Protection.keys .applicationData 0 false [104, 105] (by decide) shares (by decide) (by decide)
    (by decide) (by decide) (by decide)
  have isLate := (protection_returns_iff (Protection.sender 0) (Protection.receiver 0) Sample.suite13
    Protection.keys Protection.keys .applicationData 0 false [104, 105] (by decide) shares (by decide)
    (by decide) (by decide) (by decide) (by decide)).mp returned
  exact isLate.1 rfl

end Dtls13

namespace Dtls12

/-- What one side seals the other gets back, if it did not open the number before nor one that is 64
or more above. -/
theorem records_return (config : Config) (auth : AuthMode) (rng entropy : SeededRng)
    (calls : List Call) (sender : Engine) (iv : Bytes) (cipher : Cipher) (tagLen : Nat)
    (contentType : ContentType) (epoch : Nat) (saveFragment forceNewDatagram : Bool) (fragment : Bytes)
    (isProtected : epoch ≠ 0)
    (shares : Shares sender (run Engine.exec (Engine.new config auth rng entropy) calls) iv cipher tagLen)
    (fits : sender.explicitNonceLen + fragment.length + tagLen < 65536)
    (small : sender.sequenceEpochN < 2 ^ 48)
    (unseen : sender.sequenceEpochN ∉
      (openings (run Engine.exec (Engine.new config auth rng entropy) calls).log).map
        Sequence.sequenceNumber)
    (recent : ∀ number ∈ (openings (run Engine.exec (Engine.new config auth rng entropy) calls).log).map
      Sequence.sequenceNumber, number < sender.sequenceEpochN + 64)
    (isSent : value? (createRecordInner contentType epoch saveFragment forceNewDatagram fragment) sender =
      some ()) :
    Returned (run Engine.exec (Engine.new config auth rng entropy) calls) cipher contentType
      ⟨1, sender.sequenceEpochN⟩ fragment
      (sender.emitted
        (finalState (createRecordInner contentType epoch saveFragment forceNewDatagram fragment) sender)) := by
  have isNext : sender.nextSequence epoch = ⟨1, sender.sequenceEpochN⟩ := if_neg isProtected
  have admitted : (run Engine.exec (Engine.new config auth rng entropy) calls).replayCheck
      ⟨1, sender.sequenceEpochN⟩ = true := by
    rw [run_replayCheck]
    refine fun number member => ⟨?_, recent number member⟩
    rintro rfl
    exact unseen member
  rcases (@createRecordInner_emits sender contentType epoch saveFragment forceNewDatagram fragment
    isProtected).outcome with
    ⟨_, -, iv₁, cipher₁, explicitNonce, ciphertext, isIv, isCipher, length, parts, isSealed, isWire⟩ |
      ⟨failed, -⟩
  · obtain rfl : iv₁ = iv := Option.some.inj (isIv.symm.trans shares.sendIv)
    obtain rfl : cipher₁ = cipher := Except.ok.inj (isCipher.symm.trans shares.sendCipher)
    rw [isNext] at isSealed isWire
    have textLength := (shares.opens _ _ _ _ isSealed).2
    rw [isWire]
    exact parseRecord_wire shares (length.trans shares.nonceLen) parts (by omega) small isSealed admitted
  · cases failed.symm.trans isSent

namespace Protection

/-- A server that has its keys and counted some records. -/
def sender (sent : Nat) : Engine := { sampleRun (keyedCalls false) with sequenceEpochN := sent }

/-- What the server sends next. -/
def sent (count : Nat) : Bytes :=
  (sender count).emitted
    (finalState (createRecordInner .applicationData 1 false false [104, 105]) (sender count))

/-- A client that has its keys and got some datagrams. -/
def receiverCalls (packets : List Bytes) : List Call :=
  keyedCalls true ++ .enablePeerEncryption :: packets.map .receivePacket

def iv : Bytes := ((sender 0).cryptoContext.writeIv false).getD []

def cipher : Cipher := Sample.cipher 16 ((sender 0).cryptoContext.serverWriteKey.getD [])

theorem shares : Shares (sender 0) (sampleRun (receiverCalls [])) iv cipher 16 where
  sendIv := rfl
  recvIv := rfl
  sendCipher := rfl
  recvCipher := rfl
  nonceLen := rfl
  overhead := rfl
  opens := Sample.cipher_opens (by decide)
  enabled := rfl

/-- Datagrams leave the keys alone. -/
theorem receivePacket_session {e : Engine} {datagram : Bytes} :
    (e.exec (.receivePacket datagram)).session = e.session := by
  have quiet : Post (receivePacket datagram) e (fun _ e' => e'.session = e.session)
      fun _ e' => e'.session = e.session := by
    unfold receivePacket
    rw [post_bind, post_modify]
    refine (parsePacket_quiet (S := fun _ => True) (K := False) (fun _ _ => trivial) _).mono ?_ ?_
    all_goals exact fun _ _ quiet => (quiet False.elim).1.grows.session
  exact post_state.mp quiet

theorem shares_late : Shares (sender 0) (sampleRun (receiverCalls [sent 64])) iv cipher 16 := by
  have isRun : sampleRun (receiverCalls [sent 64]) =
      (sampleRun (receiverCalls [])).exec (.receivePacket (sent 64)) :=
    @run_concat _ _ Engine.exec _ (receiverCalls []) (.receivePacket (sent 64))
  refine isRun ▸ shares.of_session receivePacket_session ?_
  decide +kernel

end Protection

theorem records_return_sample :
    Returned (sampleRun (Protection.receiverCalls [])) Protection.cipher .applicationData ⟨1, 0⟩ [104, 105]
      (Protection.sent 0) :=
  records_return Sample.config .psk (Sample.rng 0) (Sample.rng 9) (Protection.receiverCalls [])
    (Protection.sender 0) Protection.iv Protection.cipher 16 .applicationData 1 false false [104, 105]
    (by decide) Protection.shares (by decide) (by decide) (by decide)
    (by decide) (by decide)

/-- The first record does not come out behind the sixty-fifth, though its number is new. -/
theorem not_records_return :
    ¬ ∀ (config : Config) (auth : AuthMode) (rng entropy : SeededRng) (calls : List Call) (sender : Engine)
        (iv : Bytes) (cipher : Cipher) (tagLen : Nat) (contentType : ContentType) (epoch : Nat)
        (saveFragment forceNewDatagram : Bool) (fragment : Bytes),
      epoch ≠ 0 →
      Shares sender (run Engine.exec (Engine.new config auth rng entropy) calls) iv cipher tagLen →
      sender.explicitNonceLen + fragment.length + tagLen < 65536 → sender.sequenceEpochN < 2 ^ 48 →
      sender.sequenceEpochN ∉ (openings (run Engine.exec (Engine.new config auth rng entropy) calls).log).map
        Sequence.sequenceNumber →
      value? (createRecordInner contentType epoch saveFragment forceNewDatagram fragment) sender =
        some () →
      Returned (run Engine.exec (Engine.new config auth rng entropy) calls) cipher contentType
        ⟨1, sender.sequenceEpochN⟩ fragment
        (sender.emitted (finalState
          (createRecordInner contentType epoch saveFragment forceNewDatagram fragment) sender)) := by
  intro returns
  obtain ⟨r, _, _, _, _, returned, -⟩ := returns Sample.config .psk (Sample.rng 0) (Sample.rng 9)
    (Protection.receiverCalls [Protection.sent 64]) (Protection.sender 0) Protection.iv Protection.cipher 16
    .applicationData 1 false false [104, 105] (by decide) Protection.shares_late (by decide)
    (by decide +kernel) (by decide +kernel) (by decide +kernel)
  have discarded : value? (parseRecord (Protection.sent 0))
      (sampleRun (Protection.receiverCalls [Protection.sent 64])) = some none := by decide +kernel
  cases discarded.symm.trans returned

end Dtls12

end Dimpl
