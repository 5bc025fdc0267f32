import Dimpl.AeadLimit
import Dimpl.Dtls12.ServerInv
import Dimpl.Dtls13.Numbering
import Dimpl.PeerAuthentication

/-!
# Nonces

No nonce is used twice under a key. In DTLS 1.3 the numbers of the records see to that, and to
their end. In DTLS 1.2 they do for suites whose nonces are made of the number, as long as the numbers
fit the record header; for the others the nonces repeat when the generator does.
-/

namespace Dimpl

open Nom Program

theorem zipWith_xor_inj {mask first second : Bytes} (fits : first.length = mask.length)
    (fits' : second.length = mask.length)
    (same : List.zipWith (· ^^^ ·) mask first = List.zipWith (· ^^^ ·) mask second) :
    first = second := by
  induction mask generalizing first second with
  | nil =>
      rw [List.length_eq_zero_iff.mp fits, List.length_eq_zero_iff.mp fits']
  | cons byte mask inductionHypothesis =>
      obtain ⟨a, first, rfl⟩ := List.exists_cons_of_length_eq_add_one fits
      obtain ⟨b, second, rfl⟩ := List.exists_cons_of_length_eq_add_one fits'
      rw [List.zipWith_cons_cons, List.zipWith_cons_cons, List.cons.injEq] at same
      have head : a = b := (UInt8.xor_right_inj byte).mp same.1
      have tail : first = second :=
        inductionHypothesis (Nat.succ.inj fits) (Nat.succ.inj fits') same.2
      rw [head, tail]

/-- A nonce over twelve bytes tells the numbers below 2^64 apart. -/
theorem Nonce.xor_inj {iv : Bytes} (full : iv.length = 12) {first second : Nat}
    (same : Nonce.xor iv first = Nonce.xor iv second) : first % 2 ^ 64 = second % 2 ^ 64 := by
  have mask : (iv.drop 4).length = 8 := by
    rw [List.length_drop, full]
  have bytes : be64 first = be64 second :=
    zipWith_xor_inj mask.symm mask.symm (List.append_cancel_left same)
  rw [← beValue_be64, ← beValue_be64, bytes]

/-- What repeats after a number of steps gives different values up to there only. -/
theorem nodup_map_range_iff {α : Type} {f : Nat → α} {period count : Nat} (some : 0 < period)
    (apart : ∀ i j, i < period → j < period → f i = f j → i = j) (again : f period = f 0) :
    ((List.range count).map f).Nodup ↔ count ≤ period := by
  rw [List.nodup_map_iff_inj_on List.nodup_range]
  constructor
  · intro distinct
    by_contra longer
    have isZero := distinct period (List.mem_range.mpr (by omega)) 0 (List.mem_range.mpr (by omega)) again
    omega
  · intro short i isFirst j isSecond same
    rw [List.mem_range] at isFirst isSecond
    exact apart i j (by omega) (by omega) same

namespace Dtls13

/-- No number and no nonce was used twice under a key, and the numbers are left before they run out. -/
structure Engine.NoncesApart (e : Engine) : Prop where
  numbers : (sealings e.log).Nodup
  small : ∀ sealing ∈ sealings e.log, sealing.2 < 2 ^ 48 - 1
  nonces : ∀ ivs : KeyId → Bytes, (∀ key, (ivs key).length = 12) →
    ((sealings e.log).map fun sealing => (sealing.1, Nonce.xor (ivs sealing.1) sealing.2)).Nodup

theorem Engine.SealInv.noncesApart {e : Engine} (inv : e.SealInv) : e.NoncesApart where
  numbers := inv.once
  small := inv.small
  nonces := by
    intro ivs full
    apply List.Nodup.map_on _ inv.once
    rintro ⟨key, number⟩ member ⟨key', number'⟩ member' same
    simp only [Prod.mk.injEq] at same ⊢
    obtain ⟨rfl, nonces⟩ := same
    have residues := Nonce.xor_inj (full key) nonces
    have small : number < 2 ^ 48 - 1 := inv.small _ member
    have small' : number' < 2 ^ 48 - 1 := inv.small _ member'
    rw [Nat.mod_eq_of_lt (by omega), Nat.mod_eq_of_lt (by omega)] at residues
    exact ⟨rfl, residues⟩

end Dtls13

namespace Dtls12

/-- The nonces of the protected records, in their order. -/
def usedNonces (log : List Event) : List Bytes := (sealings log).map fun sealing => sealing.2.2

/-- The parts of the nonces that stand in the records. -/
def explicitNonces (log : List Event) : List Bytes := (sealings log).map fun sealing => sealing.2.1

/-- The protected records are counted from zero. Their numbers repeat in the header only when all of
them were used, and the same is true of nonces made of the number; other nonces repeat when what was
drawn for them does. -/
structure Engine.NoncesApart (e : Engine) : Prop where
  counted : (sealings e.log).map Prod.fst = (List.range e.sequenceEpochN).map fun n => ⟨1, n⟩
  numbers : ((sealings e.log).map fun sealing => be48 sealing.1.sequenceNumber).Nodup ↔
    e.sequenceEpochN ≤ 2 ^ 48
  implicit : e.explicitNonceLen = 0 → ((usedNonces e.log).Nodup ↔ e.sequenceEpochN ≤ 2 ^ 48)
  drawn : e.explicitNonceLen ≠ 0 → ((usedNonces e.log).Nodup ↔ (explicitNonces e.log).Nodup)

section Nonces

variable {e : Engine}

theorem seq64_of_lt {number : Nat} (small : number < 2 ^ 48) :
    seq64 ⟨1, number⟩ = 2 ^ 48 + number := by
  have joined := Nat.two_pow_add_eq_or_of_lt small 1
  simp only [seq64, Nat.one_mul]
  rw [Nat.mul_one] at joined
  rw [← joined]
  exact Nat.mod_eq_of_lt (by omega)

/-- The nonces of a suite without an explicit part follow from the count. -/
theorem Engine.SealInv.implicit (inv : e.SealInv) (noPart : e.explicitNonceLen = 0) :
    ∃ iv : Bytes, iv.length = 12 ∧
      usedNonces e.log = (List.range e.sequenceEpochN).map fun n => Nonce.xor iv (seq64 ⟨1, n⟩) := by
  have made {iv : Bytes}
      (all : ∀ sealing ∈ sealings e.log, sealing.2.2 = Nonce.xor iv (seq64 sealing.1)) :
      usedNonces e.log = (List.range e.sequenceEpochN).map fun n => Nonce.xor iv (seq64 ⟨1, n⟩) := by
    have mapped := congrArg (List.map fun sequence : Sequence => Nonce.xor iv (seq64 sequence)) inv.numbers
    rw [List.map_map, List.map_map] at mapped
    exact (List.map_congr_left all).trans mapped
  cases isSealed : sealings e.log with
  | nil =>
      refine ⟨List.replicate 12 0, rfl, made ?_⟩
      rw [isSealed]
      exact fun _ member => absurd member List.not_mem_nil
  | cons first rest =>
      have nonceOf : ∀ sealing ∈ sealings e.log, ∃ iv, e.cryptoContext.writeIv e.isClient = some iv ∧
          iv.length = 12 ∧ sealing.2.2 = Nonce.xor iv (seq64 sealing.1) := by
        intro sealing member
        obtain ⟨-, -, iv, isIv, ⟨-, full, -, isNonce⟩ | ⟨part, -⟩⟩ := inv.nonces sealing member
        · exact ⟨iv, isIv, full, isNonce⟩
        · rw [noPart] at part
          cases part
      obtain ⟨iv, isIv, full, -⟩ := nonceOf first (isSealed ▸ List.mem_cons_self)
      refine ⟨iv, full, made fun sealing member => ?_⟩
      obtain ⟨iv', isIv', -, isNonce⟩ := nonceOf sealing member
      cases isIv.symm.trans isIv'
      exact isNonce

/-- The nonces of a suite with an explicit part start with the fixed one. -/
theorem Engine.SealInv.drawn (inv : e.SealInv) (part : e.explicitNonceLen ≠ 0) :
    ∃ iv : Bytes, usedNonces e.log = (explicitNonces e.log).map fun explicitNonce => iv ++ explicitNonce := by
  have nonceOf : ∀ sealing ∈ sealings e.log, ∃ iv, e.cryptoContext.writeIv e.isClient = some iv ∧
      sealing.2.2 = iv ++ sealing.2.1 := by
    intro sealing member
    obtain ⟨-, -, iv, isIv, ⟨noPart, -⟩ | ⟨-, -, -, isNonce⟩⟩ := inv.nonces sealing member
    · exact absurd noPart part
    · exact ⟨iv, isIv, isNonce⟩
  refine ⟨(e.cryptoContext.writeIv e.isClient).getD [], ?_⟩
  unfold explicitNonces
  rw [List.map_map]
  apply List.map_congr_left
  intro sealing member
  obtain ⟨iv, isIv, isNonce⟩ := nonceOf sealing member
  rw [isNonce, isIv]
  rfl

theorem Engine.SealInv.noncesApart (inv : e.SealInv) : e.NoncesApart where
  counted := inv.numbers
  numbers := by
    have numbers : ((sealings e.log).map fun sealing => be48 sealing.1.sequenceNumber) =
        (List.range e.sequenceEpochN).map be48 := by
      have mapped := congrArg (List.map fun sequence : Sequence => be48 sequence.sequenceNumber) inv.numbers
      rwa [List.map_map, List.map_map] at mapped
    rw [numbers]
    apply nodup_map_range_iff (by decide)
    · intro i j small small' same
      have values := congrArg beValue same
      rwa [beValue_be48, beValue_be48, Nat.mod_eq_of_lt small, Nat.mod_eq_of_lt small'] at values
    · rfl
  implicit := by
    intro noPart
    obtain ⟨iv, full, isNonces⟩ := inv.implicit noPart
    rw [isNonces]
    apply nodup_map_range_iff (by decide)
    · intro i j small small' same
      have residues := Nonce.xor_inj full same
      rw [seq64_of_lt small, seq64_of_lt small'] at residues
      omega
    · rfl
  drawn := by
    intro part
    obtain ⟨iv, isNonces⟩ := inv.drawn part
    rw [isNonces]
    exact List.nodup_map_iff (List.append_right_injective iv)

end Nonces

end Dtls12

end Dimpl
