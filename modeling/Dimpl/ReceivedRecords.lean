import Dimpl.Dtls13.Engine.Receipt

/-!
# What is read off a protected record

Two things a DTLS 1.3 receiver has to complete: the number, of which the header has the low bits,
and the content, which ends where the type byte of the decrypted bytes is.
-/

namespace Dimpl.Dtls13

open Nom Program

/-- The content of a record is a part of what was decrypted, at the place in its buffer where that
was written to, and the byte behind it is the type. -/
def ContentInside (e : Engine) (r : Record) : Prop :=
  ∃ key header ciphertext plaintext residue,
    e.decryptRecord header r.record.sequence ciphertext = .ok (key, plaintext) ∧
    r.buffer = header ++ plaintext ++ residue ∧
    r.record.fragmentRange.start = header.length ∧
    header.length ≤ r.record.fragmentRange.stop ∧
    r.record.fragmentRange.stop < header.length + plaintext.length ∧
    recoverInnerContentType plaintext =
      some (r.record.contentType, r.record.fragmentRange.stop - header.length)

theorem openRecord_inside {e : Engine} {recordSlice : Bytes} {r : Record}
    (inside : r.record.fragmentRange.start ≤ r.buffer.length) :
    Post (openRecord recordSlice r) e (fun result _ => ∀ r', result = some r' → ContentInside e r')
      (fun _ _ => True) := by
  unfold openRecord
  rw [post_bind, post_get]
  dsimp only
  rw [post_ite]
  refine ⟨fun _ => ?_, fun _ => ?_⟩
  · rintro _ ⟨⟩
  rw [post_bind]
  refine (suiteProvider_readOnly e).mono ?_ fun _ _ _ => trivial
  rintro suite _ rfl
  rw [post_ite]
  refine ⟨fun _ => ?_, fun _ => ?_⟩
  · rintro _ ⟨⟩
  split
  · rintro _ ⟨⟩
  · rename_i key plaintext decrypted
    rw [post_bind, post_modify]
    split
    · rintro _ ⟨⟩
    · rename_i contentType contentLen recovered
      rintro _ ⟨⟩
      have front : (r.buffer.take r.record.fragmentRange.start).length =
          r.record.fragmentRange.start := List.length_take_of_le inside
      have short := recoverInnerContentType_le recovered
      refine ⟨key, _, _, plaintext, _, decrypted, rfl, front.symm, ?_, ?_, ?_⟩
      · rw [front]
        exact Nat.le_add_right _ _
      · rw [front]
        exact Nat.add_lt_add_left short _
      · rw [front]
        exact recovered.trans (congrArg (fun len => some (contentType, len))
          (Nat.add_sub_cancel_left _ _).symm)

theorem parseRecord_inside {e : Engine} {recordSlice : Bytes}
    (isProtected : Dtls13Record.isCiphertextHeader (recordSlice.headD 0) = true)
    (enabled : e.peerEncryptionEnabled = true) :
    Post (parseRecord recordSlice) e (fun result _ => ∀ r, result = some r → ContentInside e r)
      (fun _ _ => True) := by
  unfold parseRecord
  rw [post_bind]
  refine (decryptSequenceNumber_readOnly e).mono ?_ fun _ _ _ => trivial
  rintro buffer _ rfl
  rw [post_bind, post_get]
  split
  · rintro _ ⟨⟩
  · rename_i r parsed
    rw [isProtected, enabled, post_ite]
    refine ⟨fun off => ?_, fun _ => ?_⟩
    · cases off
    · obtain ⟨made, inside, -⟩ := Record.ofBuffer_ok parsed
      refine openRecord_inside ?_
      rw [made]
      exact inside

/-- The type byte is found behind any content and in front of any padding, it is missing only where
all bytes are zero, and the content of a record that is returned lies in what was decrypted. -/
theorem innerPlaintext_recovered :
    (∀ (content : Bytes) (type : ContentType) (padding : Nat), type.asU8 ≠ 0 →
      recoverInnerContentType (content ++ type.asU8 :: List.replicate padding 0) =
        some (type, content.length)) ∧
    (∀ decrypted : Bytes,
      recoverInnerContentType decrypted = none ↔ ∀ byte ∈ decrypted, byte = 0) ∧
    ∀ (e e' : Engine) (recordSlice : Bytes) (r : Record),
      Dtls13Record.isCiphertextHeader (recordSlice.headD 0) = true →
      e.peerEncryptionEnabled = true → parseRecord recordSlice e = .ok (some r) e' →
        ContentInside e r := by
  refine ⟨fun content type padding type_ne => ?_, fun decrypted => ?_,
    fun e e' recordSlice r isProtected enabled returned => ?_⟩
  · exact recoverInnerContentType_padded type_ne
  · exact recoverInnerContentType_eq_none
  · have inside := @parseRecord_inside e recordSlice isProtected enabled
    unfold Post at inside
    rw [returned] at inside
    exact inside r rfl

end Dimpl.Dtls13
