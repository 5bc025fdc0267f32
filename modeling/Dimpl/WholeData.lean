import Dimpl.Dtls12.Client
import Dimpl.Dtls12.Server
import Dimpl.Dtls13.Client
import Dimpl.Dtls13.Server
import Dimpl.RecordProtection

/-!
# Application data and the length of a record

Data that is sent goes into one record. Its length is narrowed to sixteen bits without a check, so
data that does not fit is sent all the same, in a record that does not say how long it is.
-/

namespace Dimpl

open Nom Program

/-- The last two bytes of a header count the bytes behind it. -/
def Counts (headerLen : Nat) (wire : Bytes) : Prop :=
  headerLen ≤ wire.length ∧ beValue ((wire.drop (headerLen - 2)).take 2) = (wire.drop headerLen).length

theorem counts_append {front body : Bytes} (fits : body.length < 65536) :
    Counts (front.length + 2) (front ++ (be16 body.length ++ body)) := by
  refine ⟨by simp, ?_⟩
  rw [Nat.add_sub_cancel, List.drop_left, List.take_left' (length_be16 _), beValue_be16,
    Nat.mod_eq_of_lt fits, ← List.append_assoc, List.drop_left' (by simp)]

/-- A call that fails exactly for want of something does its work where it fits, or fails. -/
theorem whole_iff {σ : Type} {program : EStateM Fault σ Unit} {s : σ} {Fitting Served : Prop}
    {Whole Same : σ → Prop}
    (grants : Post program s (fun _ s' => Served ∧ (Fitting → Whole s')) fun _ s' => Same s' ∧ ¬Served) :
    Post program s (fun _ s' => Fitting ∧ Whole s') (fun _ s' => ¬Fitting → Same s') ↔
      Fitting ∨ ¬Served := by
  constructor
  · intro whole
    rcases (grants.and whole).outcome with ⟨-, -, -, fits, -⟩ | ⟨-, -, ⟨-, refused⟩, -⟩
    · exact .inl fits
    · exact .inr refused
  · intro condition
    refine grants.mono ?_ fun _ _ refused _ => refused.1
    rintro _ s' ⟨taken, whole⟩
    have fits := condition.resolve_right (not_not_intro taken)
    exact ⟨fits, whole fits⟩

namespace Dtls13

/-- The length of the tag behind a record. -/
def Engine.tagLen (e : Engine) : Nat := (e.suiteProvider.map SupportedDtls13CipherSuite.tagLen).getD 0

/-- The protected data can be counted in sixteen bits. -/
def Engine.FitsRecord (e : Engine) (data : Bytes) : Prop := data.length + 1 + e.tagLen < 65536

/-- The cipher of application data opens what it seals and adds a tag. -/
def Engine.AddsTag (e : Engine) : Prop :=
  ∀ keys, e.slotKeys (e.sendSlot e.appSendEpoch) = some keys → keys.cipher.Opens e.tagLen

/-- A record counts its bytes, and whoever shares its keys gets the data back. -/
structure DataRecord (e : Engine) (data wire : Bytes) : Prop where
  counts : Counts (if e.appSendEpoch = 0 then 13 else 5) wire
  recovered : ∀ (receiver : Engine) suite keys keys',
    Shares e receiver suite keys keys' e.appSendEpoch →
    e.slotSeq (e.sendSlot e.appSendEpoch) < receiver.expectedRecvSeq e.appSendEpoch + 32768 →
    receiver.expectedRecvSeq e.appSendEpoch < e.slotSeq (e.sendSlot e.appSendEpoch) + 32768 →
    receiver.replayCheck ⟨e.appSendEpoch, e.slotSeq (e.sendSlot e.appSendEpoch)⟩ = true →
    e.appSendEpoch ≠ 0 → receiver.StandsFor e.appSendEpoch →
    Returned receiver keys.cipher keys.iv .applicationData
      ⟨e.appSendEpoch, e.slotSeq (e.sendSlot e.appSendEpoch)⟩ data wire

section Sending

variable {e : Engine} {data : Bytes}

/-- The mask leaves the length of a record alone. -/
theorem counts_masked {mask ciphertext : Bytes} {epoch number : Nat} (fits : ciphertext.length < 65536) :
    Counts (if epoch = 0 then 13 else 5)
      (maskSequenceBytes mask (Dtls13Record.serialize .applicationData ⟨epoch, number⟩ ciphertext)) := by
  unfold Dtls13Record.serialize
  dsimp only
  split
  · exact @counts_append (maskSequenceBytes mask ((ContentType.applicationData.asU8 ::
      ProtocolVersion.dtls12.serialize ++ be16 epoch) ++ be48 number)) ciphertext fits
  · exact @counts_append [0b00101100 ||| UInt8.ofNat (epoch % 4),
      UInt8.ofNat (number / 256) ^^^ mask.getD 0 0, UInt8.ofNat number ^^^ mask.getD 1 0] ciphertext fits

/-- What data becomes: a record, or a refusal that changes nothing. -/
theorem createCiphertextRecord_data (adds : e.AddsTag) :
    Post (createCiphertextRecord .applicationData e.appSendEpoch false data) e
      (fun _ e' => e.Grants .applicationData e.appSendEpoch data ∧
        (e.FitsRecord data → DataRecord e data (e.emitted e')))
      fun _ e' => e = e' ∧ ¬e.Grants .applicationData e.appSendEpoch data := by
  refine (createCiphertextRecord_grants.and createCiphertextRecord_emits).mono ?_ fun _ _ refused => refused.1
  rintro _ e' ⟨grants, suite, keys, ciphertext, isSuite, isKeys, isSealed, -, isWire⟩
  refine ⟨grants, fun fits => ?_⟩
  have isTag : e.tagLen = suite.tagLen := by rw [Engine.tagLen, isSuite]; rfl
  have length := (adds keys isKeys _ _ _ _ isSealed).2
  rw [List.length_append, List.length_singleton, isTag] at length
  have short : ciphertext.length < 65536 := by
    rw [Engine.FitsRecord, isTag] at fits
    omega
  rw [← length] at isSealed
  rw [isWire]
  refine ⟨counts_masked short, ?_⟩
  intro receiver suite₁ keys₁ keys' shares near near' admitted later stands
  obtain rfl : suite₁ = suite := Option.some.inj (shares.sendSuite.symm.trans isSuite)
  obtain rfl : keys₁ = keys := Option.some.inj (shares.sendKeys.symm.trans isKeys)
  exact (sealed_returns_iff shares (by simp) short near near' admitted isSealed).mpr ⟨later, stands⟩

end Sending

end Dtls13

namespace Dtls12

/-- The protected data can be counted in sixteen bits. -/
def Engine.FitsRecord (e : Engine) (data : Bytes) : Prop := data.length + e.minProtectedFragmentLen < 65536

/-- The cipher of this side opens what it seals and adds a tag. -/
structure Engine.AddsTag (e : Engine) : Prop where
  overhead : e.explicitNonceLen ≤ e.minProtectedFragmentLen
  opens : ∀ cipher, e.cryptoContext.writeCipher e.isClient = .ok cipher →
    cipher.Opens (e.minProtectedFragmentLen - e.explicitNonceLen)

/-- A record counts its bytes, it was sealed with the length of the data, and whoever shares its
keys gets the data back. -/
structure DataRecord (e : Engine) (data wire : Bytes) : Prop where
  counts : Counts 13 wire
  aad : ∃ cipher explicitNonce nonce additional ciphertext,
    e.cryptoContext.writeCipher e.isClient = .ok cipher ∧
    cipher.encrypt data additional nonce = .ok ciphertext ∧
    wire = DTLSRecord.serialize .applicationData ⟨1, e.sequenceEpochN⟩ (explicitNonce ++ ciphertext) ∧
    beValue (additional.drop 11) = data.length
  recovered : ∀ (receiver : Engine) iv cipher tagLen, Shares e receiver iv cipher tagLen →
    e.sequenceEpochN < 2 ^ 48 → receiver.replayCheck ⟨1, e.sequenceEpochN⟩ = true →
    Returned receiver cipher .applicationData ⟨1, e.sequenceEpochN⟩ data wire

section Sending

variable {e : Engine} {data : Bytes}

/-- What data becomes: a record, or a refusal that changes nothing. -/
theorem createRecord_data (adds : e.AddsTag) :
    Post (createRecord .applicationData 1 false data) e
      (fun _ e' => e.Grants .applicationData 1 data ∧ (e.FitsRecord data → DataRecord e data (e.emitted e')))
      fun _ e' => e.Reseeded e' ∧ ¬e.Grants .applicationData 1 data := by
  refine ((createRecordInner_grants one_ne_zero).and (createRecordInner_emits one_ne_zero)).mono ?_
    fun _ _ refused => refused.1
  rintro _ e' ⟨grants, iv, cipher, explicitNonce, ciphertext, isIv, isCipher, nonceLen, parts, isSealed, isWire⟩
  have isNext : e.nextSequence 1 = ⟨1, e.sequenceEpochN⟩ := if_neg one_ne_zero
  rw [isNext] at isSealed isWire
  refine ⟨grants, fun fits => ?_⟩
  have length := (adds.opens cipher isCipher _ _ _ _ isSealed).2
  have within := adds.overhead
  have short : explicitNonce.length + ciphertext.length < 65536 := by
    rw [Engine.FitsRecord] at fits
    omega
  have isLength : beValue ((Aad.newDtls12 .applicationData ⟨1, e.sequenceEpochN⟩ data.length).drop 11) =
      data.length := by
    have tail : (Aad.newDtls12 .applicationData ⟨1, e.sequenceEpochN⟩ data.length).drop 11 =
        be16 data.length := rfl
    rw [tail, beValue_be16]
    exact Nat.mod_eq_of_lt (by omega)
  rw [isWire]
  constructor
  · exact @counts_append (ContentType.applicationData.asU8 :: ProtocolVersion.dtls12.serialize ++ be16 1 ++
      be48 e.sequenceEpochN) (explicitNonce ++ ciphertext) (by rw [List.length_append]; exact short)
  · exact ⟨cipher, explicitNonce, _, _, ciphertext, isCipher, isSealed, rfl, isLength⟩
  · intro receiver iv₁ cipher₁ tagLen shares small admitted
    obtain rfl : iv₁ = iv := Option.some.inj (shares.sendIv.symm.trans isIv)
    obtain rfl : cipher₁ = cipher := Except.ok.inj (shares.sendCipher.symm.trans isCipher)
    exact parseRecord_wire shares (nonceLen.trans shares.nonceLen) parts short small isSealed admitted

end Sending

end Dtls12

/-- An endpoint of either version. -/
inductive Peer where
  | client12 (c : Dtls12.Client)
  | server12 (s : Dtls12.Server)
  | client13 (c : Dtls13.Client)
  | server13 (s : Dtls13.Server)

namespace Peer

/-- The handshake is over and nothing is closed. -/
def Connected : Peer → Prop
  | .client12 c => c.state = .awaitApplicationData
  | .server12 s => s.state = .awaitApplicationData
  | .client13 c => c.state = .awaitApplicationData
  | .server13 s => s.state = .awaitApplicationData

/-- The cipher opens what it seals and adds a tag. -/
def AddsTag : Peer → Prop
  | .client12 c => c.engine.AddsTag
  | .server12 s => s.engine.AddsTag
  | .client13 c => c.engine.AddsTag
  | .server13 s => s.engine.AddsTag

/-- The protected data can be counted in sixteen bits. -/
def FitsRecord (data : Bytes) : Peer → Prop
  | .client12 c => c.engine.FitsRecord data
  | .server12 s => s.engine.FitsRecord data
  | .client13 c => c.engine.FitsRecord data
  | .server13 s => s.engine.FitsRecord data

/-- There are keys, a number and room for a record of the data. -/
def Grants (data : Bytes) : Peer → Prop
  | .client12 c => c.engine.Grants .applicationData 1 data
  | .server12 s => s.engine.Grants .applicationData 1 data
  | .client13 c => c.engine.Grants .applicationData c.engine.appSendEpoch data
  | .server13 s => s.engine.Grants .applicationData s.engine.appSendEpoch data

/-- `send_application_data` accepts what fits and puts it whole into a record, and refuses what does
not fit with everything left as it was. -/
def SendsWhole (data : Bytes) : Peer → Prop
  | .client12 c => Post (Dtls12.Client.sendApplicationData data) c
      (fun _ c' => c.engine.FitsRecord data ∧ Dtls12.DataRecord c.engine data (c.engine.emitted c'.engine))
      fun _ c' => ¬c.engine.FitsRecord data → ∃ rng, { c with engine := { c.engine with rng } } = c'
  | .server12 s => Post (Dtls12.Server.sendApplicationData data) s
      (fun _ s' => s.engine.FitsRecord data ∧ Dtls12.DataRecord s.engine data (s.engine.emitted s'.engine))
      fun _ s' => ¬s.engine.FitsRecord data → ∃ rng, { s with engine := { s.engine with rng } } = s'
  | .client13 c => Post (Dtls13.Client.sendApplicationData data) c
      (fun _ c' => c.engine.FitsRecord data ∧ Dtls13.DataRecord c.engine data (c.engine.emitted c'.engine))
      fun _ c' => ¬c.engine.FitsRecord data → c = c'
  | .server13 s => Post (Dtls13.Server.sendApplicationData data) s
      (fun _ s' => s.engine.FitsRecord data ∧ Dtls13.DataRecord s.engine data (s.engine.emitted s'.engine))
      fun _ s' => ¬s.engine.FitsRecord data → s = s'

end Peer

/-- Data is sent whole or refused exactly if it fits into a record, or is refused for want of keys, a
number or room. -/
theorem sendsWhole_iff (peer : Peer) (data : Bytes) (connected : peer.Connected) (adds : peer.AddsTag) :
    peer.SendsWhole data ↔ peer.FitsRecord data ∨ ¬peer.Grants data := by
  cases peer with
  | client12 c =>
      have state : c.state = .awaitApplicationData := connected
      refine whole_iff ?_
      unfold Dtls12.Client.sendApplicationData
      rw [post_bind, post_get, if_neg (by rw [state]; decide), if_neg (not_not_intro state)]
      unfold Dtls12.Client.withEngine
      rw [post_zoom]
      refine (Dtls12.createRecord_data adds).mono (fun _ _ sent => sent) ?_
      rintro _ _ ⟨⟨rng, rfl⟩, refused⟩
      exact ⟨⟨rng, rfl⟩, refused⟩
  | server12 s =>
      have state : s.state = .awaitApplicationData := connected
      refine whole_iff ?_
      unfold Dtls12.Server.sendApplicationData
      rw [post_bind, post_get, if_neg (by rw [state]; decide), if_neg (not_not_intro state)]
      unfold Dtls12.Server.withEngine
      rw [post_zoom]
      refine (Dtls12.createRecord_data adds).mono (fun _ _ sent => sent) ?_
      rintro _ _ ⟨⟨rng, rfl⟩, refused⟩
      exact ⟨⟨rng, rfl⟩, refused⟩
  | client13 c =>
      have state : c.state = .awaitApplicationData := connected
      refine whole_iff ?_
      unfold Dtls13.Client.sendApplicationData
      rw [post_bind, post_get, if_neg (by rw [state]; decide), if_neg (not_not_intro state)]
      unfold Dtls13.Client.withEndpoint Dtls13.Endpoint.sendData Dtls13.Endpoint.withEngine
      rw [post_zoom, post_bind, post_get, post_zoom]
      refine (Dtls13.createCiphertextRecord_data adds).mono (fun _ _ sent => sent) ?_
      rintro _ _ ⟨rfl, refused⟩
      exact ⟨rfl, refused⟩
  | server13 s =>
      have state : s.state = .awaitApplicationData := connected
      refine whole_iff ?_
      unfold Dtls13.Server.sendApplicationData
      rw [post_bind, post_get, if_neg (by rw [state]; decide), if_neg (not_not_intro state)]
      unfold Dtls13.Server.withEndpoint Dtls13.Endpoint.sendData Dtls13.Endpoint.withEngine
      rw [post_zoom, post_bind, post_get, post_zoom]
      refine (Dtls13.createCiphertextRecord_data adds).mono (fun _ _ sent => sent) ?_
      rintro _ _ ⟨rfl, refused⟩
      exact ⟨rfl, refused⟩

namespace Peer

/-- A client of DTLS 1.3 that is connected. -/
def sample : Peer :=
  .client13 { Dtls13.Client.newWithEngine (Dtls13.Protection.sender 5) (Sample.rng 0) 0 with
    state := .awaitApplicationData }

theorem sample_addsTag : sample.AddsTag := by
  rintro keys ⟨⟩
  exact Sample.cipher_opens (by decide)

theorem sample_grants {data : Bytes} : sample.Grants data :=
  ⟨Sample.suite13, Dtls13.Protection.keys, _, rfl, rfl, rfl, .inr (by decide), by decide⟩

theorem sample_fits {data : Bytes} : sample.FitsRecord data ↔ data.length + 1 + 16 < 65536 := Iff.rfl

end Peer

theorem sendsWhole_sample :
    Peer.sample.SendsWhole [104, 105] ↔
      Peer.sample.FitsRecord [104, 105] ∨ ¬Peer.sample.Grants [104, 105] :=
  sendsWhole_iff Peer.sample [104, 105] rfl Peer.sample_addsTag

/-- Bytes that are one too many for a record are sent all the same. -/
theorem not_sendsWhole :
    ¬ ∀ (peer : Peer) (data : Bytes), peer.Connected → peer.AddsTag → peer.SendsWhole data := by
  intro sends
  have whole := sends Peer.sample (List.replicate 65519 0) rfl Peer.sample_addsTag
  rcases (sendsWhole_iff Peer.sample (List.replicate 65519 0) rfl Peer.sample_addsTag).mp whole with
    fits | refused
  · rw [Peer.sample_fits, List.length_replicate] at fits
    omega
  · exact refused Peer.sample_grants

end Dimpl
