import Dimpl.Dtls13.Engine.Drain
import Dimpl.Dtls13.Engine.Fragmentation
import Dimpl.Lib.Delivery

/-!
# Application data, from one side to the other

What the sender puts into datagrams, and what becomes of these datagrams in an engine with the same
keys, whatever the order they come in and however often.
-/

namespace Dimpl.Dtls13

open Nom Program Packing Delivery

/-- A record with application data, as the sender seals it. -/
def DataWire (suite : SupportedDtls13CipherSuite) (keys : EpochKeys) (epoch number : Nat)
    (payload wire : Bytes) : Prop :=
  ∃ ciphertext, keys.cipher.encrypt (payload ++ [ContentType.applicationData.asU8])
      (Aad.newDtls13 (Dtls13Record.unifiedHeader ⟨epoch, number⟩ ciphertext.length))
      (Nonce.xor keys.iv number) = .ok ciphertext ∧
    ciphertext.length = payload.length + 1 + suite.tagLen ∧ ciphertext.length < 65536 ∧
    wire = wireRecord suite keys ⟨epoch, number⟩ ciphertext

section Sending

variable {e : Engine} {suite : SupportedDtls13CipherSuite} {keys : EpochKeys} {epoch : Nat}

/-- The keys of an engine for an epoch. -/
structure Engine.SealsFor (e : Engine) (suite : SupportedDtls13CipherSuite) (keys : EpochKeys)
    (epoch : Nat) : Prop where
  later : epoch ≠ 0
  isSuite : e.suiteProvider = some suite
  isKeys : e.slotKeys (e.sendSlot epoch) = some keys
  opens : keys.cipher.Opens suite.tagLen

/-- One piece of data goes into one record. -/
theorem createCiphertextRecord_wire {payload : Bytes} (equipped : e.SealsFor suite keys epoch)
    (fits : payload.length + 1 + suite.tagLen < 65536) :
    Post (createCiphertextRecord .applicationData epoch false payload) e
      (fun _ e' => e'.SealsFor suite keys epoch ∧ e'.config = e.config ∧
        e'.slotSeq (e'.sendSlot epoch) = e.slotSeq (e.sendSlot epoch) + 1 ∧
        ∃ wire append, DataWire suite keys epoch (e.slotSeq (e.sendSlot epoch)) payload wire ∧
          Appends e.config.mtu append e.queueTx wire ∧ e'.queueTx = enqueue append e.queueTx wire)
      fun _ _ => True := by
  unfold createCiphertextRecord runIf
  rw [post_bind, post_get, post_bind, if_neg Bool.false_ne_true, post_pure]
  unfold suiteProvider
  rw [post_bind, post_bind, post_get, post_orThrow]
  refine ⟨fun suite₁ isSuite => ?_, fun _ => trivial⟩
  obtain rfl : suite₁ = suite := Option.some.inj (isSuite.symm.trans equipped.isSuite)
  rw [post_bind, post_orThrow]
  refine ⟨fun keys₁ isKeys => ?_, fun _ => trivial⟩
  obtain rfl : keys₁ = keys := Option.some.inj (isKeys.symm.trans equipped.isKeys)
  rw [post_bind, post_liftCrypto]
  refine ⟨fun ciphertext isSealed => ?_, fun _ _ => trivial⟩
  rw [post_bind]
  refine checkQueueTx_post.mono ?_ fun _ _ _ => trivial
  rintro _ _ ⟨rfl, -⟩
  rw [post_ite]
  refine ⟨fun _ => trivial, fun _ => ?_⟩
  rw [post_modify]
  generalize isCounted : Engine.logEvent _ _ = e'
  obtain ⟨-, queue, slot, number, sameKeys, config, sameSuite, -⟩ := Engine.counted isCounted.symm
  have length := (equipped.opens _ _ _ _ isSealed).2
  rw [List.length_append, List.length_singleton] at isSealed length
  refine ⟨⟨equipped.later, sameSuite.trans isSuite, ?_, equipped.opens⟩, config, ?_, _,
    e.canAppend (5 + ciphertext.length), ⟨ciphertext, ?_, length, length ▸ fits, rfl⟩, ?_, ?_⟩
  · rw [slot]
    exact sameKeys.trans isKeys
  · rw [slot]
    exact number
  · rw [length]
    exact isSealed
  · refine Engine.appends_canAppend ?_
    rw [wireRecord, length_maskSequenceBytes, List.length_append]
    rfl
  · have serialized : Dtls13Record.serialize .applicationData ⟨epoch, e.slotSeq (e.sendSlot epoch)⟩ ciphertext =
        Dtls13Record.unifiedHeader ⟨epoch, e.slotSeq (e.sendSlot epoch)⟩ ciphertext.length ++ ciphertext :=
      if_neg equipped.later
    rw [serialized] at queue
    exact queue

/-- Data that is sent piece by piece goes into datagrams, in order. -/
theorem submit_stream {payloads : List Bytes} {base : Nat} {packets : List (List Bytes)}
    (equipped : e.SealsFor suite keys epoch)
    (fits : ∀ payload ∈ payloads, payload.length + 1 + suite.tagLen < 65536)
    (number : e.slotSeq (e.sendSlot epoch) = base + packets.flatten.length)
    (stream : Stream (DataWire suite keys epoch) e.config.mtu base packets e.queueTx) :
    Post (submit (createCiphertextRecord .applicationData epoch false) payloads) e
      (fun _ e' => ∃ packets', Stream (DataWire suite keys epoch) e.config.mtu base packets' e'.queueTx ∧
        packets'.flatten = packets.flatten ++ payloads)
      fun _ _ => True := by
  induction payloads generalizing e packets with
  | nil => exact ⟨packets, stream, (List.append_nil _).symm⟩
  | cons payload rest inductionHypothesis =>
      obtain ⟨fit, fits⟩ := List.forall_mem_cons.mp fits
      unfold submit
      rw [post_bind]
      refine (createCiphertextRecord_wire equipped fit).mono ?_ fun _ _ _ => trivial
      rintro _ e₁ ⟨equipped₁, config, number₁, wire, append, isWire, appends, queue⟩
      rw [number] at isWire
      obtain ⟨packets₁, stream₁, flat⟩ := stream.enqueue isWire appends
      rw [← queue, ← config] at stream₁
      have number₂ : e₁.slotSeq (e₁.sendSlot epoch) = base + packets₁.flatten.length := by
        rw [number₁, number, flat, List.length_append, List.length_singleton, Nat.add_assoc]
      refine (inductionHypothesis equipped₁ fits number₂ stream₁).mono ?_ fun _ _ _ => trivial
      rintro _ e' ⟨packets', stream', flat'⟩
      refine ⟨packets', config ▸ stream', ?_⟩
      rw [flat', flat, List.append_assoc]
      rfl

end Sending

end Dimpl.Dtls13
