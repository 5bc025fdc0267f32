import Dimpl.Dtls13.Engine.Receive

/-!
# The number and the content of a protected record

The header of a protected record has the low bits of its number only, and the type of its content
stands behind the content, in front of any number of zero bytes.
-/

namespace Dimpl.Dtls13

open Nom

section Numbers

variable {sFlag : Bool} {partialSeq number expected : Nat}

/-- How many bits of the number are in the header. -/
def numberBits (sFlag : Bool) : Nat := if sFlag then 16 else 8

/-- The number a receiver expects next in an epoch. -/
def Engine.expectedRecvSeq (e : Engine) (epoch : Nat) : Nat :=
  if epoch = 2 then e.hsExpectedRecvSeq
  else ((e.recvEntry epoch).map RecvEpochEntry.expectedRecvSeq).getD 0

theorem resolveSequence_eq {e : Engine} {epoch : Nat} :
    e.resolveSequence epoch partialSeq sFlag =
      reconstructSequence partialSeq (e.expectedRecvSeq epoch) (numberBits sFlag) :=
  rfl

/-- A number with the given low bits, as close to the expected one as any of them. -/
structure Closest (bits partialSeq expected number : Nat) : Prop where
  lowBits : number % 2 ^ bits = partialSeq % 2 ^ bits
  least : ∀ other, other % 2 ^ bits = partialSeq % 2 ^ bits →
    ((number : Int) - expected).natAbs ≤ ((other : Int) - expected).natAbs

/-- A number less than half a window away is found again. -/
theorem reconstructSequence_near
    (near : ((number : Int) - expected).natAbs < 2 ^ (numberBits sFlag - 1)) :
    reconstructSequence (number % 2 ^ numberBits sFlag) expected (numberBits sFlag) = number := by
  unfold reconstructSequence
  cases sFlag with
  | true =>
      simp only [numberBits, if_true, Nat.reduceSub, Nat.reducePow] at near ⊢
      split
      · omega
      · split <;> omega
  | false =>
      simp only [numberBits, Bool.false_eq_true, if_false, Nat.reduceSub, Nat.reducePow] at near ⊢
      split
      · omega
      · split <;> omega

/-- Where the closest number would be negative the result is zero, whatever its low bits are. -/
theorem reconstructSequence_clamped
    (negative : expected + 2 ^ (numberBits sFlag - 1) < partialSeq % 2 ^ numberBits sFlag) :
    reconstructSequence partialSeq expected (numberBits sFlag) = 0 := by
  unfold reconstructSequence
  cases sFlag with
  | true =>
      simp only [numberBits, if_true, Nat.reduceSub, Nat.reducePow] at negative ⊢
      split
      · omega
      · split <;> omega
  | false =>
      simp only [numberBits, Bool.false_eq_true, if_false, Nat.reduceSub, Nat.reducePow] at negative ⊢
      split
      · omega
      · split <;> omega

/-- Anywhere else it has the low bits, and is at most half a window away. -/
theorem reconstructSequence_within
    (natural : partialSeq % 2 ^ numberBits sFlag ≤ expected + 2 ^ (numberBits sFlag - 1)) :
    reconstructSequence partialSeq expected (numberBits sFlag) % 2 ^ numberBits sFlag =
        partialSeq % 2 ^ numberBits sFlag ∧
      ((reconstructSequence partialSeq expected (numberBits sFlag) : Int) - expected).natAbs ≤
        2 ^ (numberBits sFlag - 1) := by
  unfold reconstructSequence
  cases sFlag with
  | true =>
      simp only [numberBits, if_true, Nat.reduceSub, Nat.reducePow] at natural ⊢
      split
      · omega
      · split <;> omega
  | false =>
      simp only [numberBits, Bool.false_eq_true, if_false, Nat.reduceSub, Nat.reducePow] at natural ⊢
      split
      · omega
      · split <;> omega

/-- Numbers with the same low bits are a window apart, so that none is closer. -/
theorem reconstructSequence_closest
    (natural : partialSeq % 2 ^ numberBits sFlag ≤ expected + 2 ^ (numberBits sFlag - 1)) :
    Closest (numberBits sFlag) partialSeq expected
      (reconstructSequence partialSeq expected (numberBits sFlag)) := by
  obtain ⟨lowBits, within⟩ := reconstructSequence_within natural
  refine ⟨lowBits, fun other same => ?_⟩
  rw [← lowBits] at same
  generalize reconstructSequence partialSeq expected (numberBits sFlag) = found at *
  cases sFlag with
  | true =>
      simp only [numberBits, if_true, Nat.reduceSub, Nat.reducePow] at within same
      omega
  | false =>
      simp only [numberBits, Bool.false_eq_true, if_false, Nat.reduceSub, Nat.reducePow] at within same
      omega

end Numbers

section InnerPlaintext

variable {decrypted content : Bytes} {type : ContentType} {contentLen : Nat}

theorem skipPadding_replicate {padding : Nat} {bytes : Bytes} :
    skipPadding (List.replicate padding 0 ++ bytes) = skipPadding bytes := by
  induction padding with
  | zero => rfl
  | succ padding inductionHypothesis =>
      rw [List.replicate_succ, List.cons_append, skipPadding, if_pos rfl, inductionHypothesis]

theorem skipPadding_eq_nil : skipPadding decrypted = [] ↔ ∀ byte ∈ decrypted, byte = 0 := by
  induction decrypted with
  | nil => exact iff_of_true rfl fun _ member => absurd member List.not_mem_nil
  | cons byte rest inductionHypothesis =>
      rw [skipPadding, List.forall_mem_cons]
      split
      · rename_i zero
        exact inductionHypothesis.trans (and_iff_right zero).symm
      · rename_i nonzero
        exact iff_of_false (List.cons_ne_nil byte rest) fun zeros => nonzero zeros.1

theorem length_skipPadding : (skipPadding decrypted).length ≤ decrypted.length := by
  induction decrypted with
  | nil => exact Nat.le_refl 0
  | cons byte rest inductionHypothesis =>
      rw [skipPadding]
      split
      · exact Nat.le_succ_of_le inductionHypothesis
      · exact Nat.le_refl _

/-- The type byte is found behind any content and in front of any padding. -/
theorem recoverInnerContentType_padded {padding : Nat} (type_ne : type.asU8 ≠ 0) :
    recoverInnerContentType (content ++ type.asU8 :: List.replicate padding 0) =
      some (type, content.length) := by
  unfold recoverInnerContentType
  rw [List.reverse_append, List.reverse_cons, List.reverse_replicate, List.append_assoc,
    skipPadding_replicate, List.singleton_append, skipPadding, if_neg type_ne]
  simp only [List.length_reverse]

theorem recoverInnerContentType_append (type_ne : type.asU8 ≠ 0) :
    recoverInnerContentType (content ++ [type.asU8]) = some (type, content.length) :=
  @recoverInnerContentType_padded content type 0 type_ne

theorem recoverInnerContentType_eq_none :
    recoverInnerContentType decrypted = none ↔ ∀ byte ∈ decrypted, byte = 0 := by
  have zeros := @skipPadding_eq_nil decrypted.reverse
  simp only [List.mem_reverse] at zeros
  rw [← zeros, recoverInnerContentType]
  split
  · rename_i empty
    exact iff_of_true rfl empty
  · rename_i byte rest skipped
    rw [skipped]
    exact iff_of_false (Option.some_ne_none _) (List.cons_ne_nil byte rest)

/-- The content of a plaintext is in front of its type byte. -/
theorem recoverInnerContentType_le
    (recovered : recoverInnerContentType decrypted = some (type, contentLen)) :
    contentLen < decrypted.length := by
  unfold recoverInnerContentType at recovered
  split at recovered
  · cases recovered
  · rename_i byte content skipped
    have bound := @length_skipPadding decrypted.reverse
    rw [skipped, List.length_cons, List.length_reverse] at bound
    cases recovered
    exact bound

end InnerPlaintext

end Dimpl.Dtls13
