import Dimpl.Lib.Blocks
import Dimpl.Sample

/-!
# Key derivation

The PRF of TLS 1.2 and HKDF-Expand of RFC 5869 as endless sequences of blocks, and that the
library computes their first bytes. The encoding of an HkdfLabel tells its parts apart.
-/

namespace Dimpl

open Nom

/-- An HMAC: a tag of the length of the hash, which is not zero, for any key and data. The functions
here pass it a buffer that holds the tag of any hash they know. -/
structure CryptoProvider.IsHmac (provider : CryptoProvider) (hash : HashAlgorithm)
    (mac : (key data : Bytes) → Bytes) : Prop where
  hmac : ∀ key data, provider.hmac hash key data = .ok (mac key data)
  length : ∀ key data, (mac key data).length = hash.outputLen
  positive : 0 < hash.outputLen

section Definitions

variable (mac : (key data : Bytes) → Bytes)

/-- A(i) of RFC 5246: A(0) is the seed, A(i) the tag of A(i-1). -/
def chain (secret seed : Bytes) : Nat → Bytes
  | 0 => seed
  | i + 1 => mac secret (chain secret seed i)

/-- The blocks of P_hash: the tag of A(i) followed by the seed, for i from 1 on. -/
def pHash (secret seed : Bytes) (i : Nat) : Bytes := mac secret (chain mac secret seed (i + 1) ++ seed)

/-- T(i) of RFC 5869: T(0) is empty, T(i) the tag of T(i-1), the info and i. -/
def expansion (prk info : Bytes) : Nat → Bytes
  | 0 => []
  | i + 1 => mac prk (expansion prk info i ++ info ++ [UInt8.ofNat (i + 1)])

end Definitions

section Derivation

variable {provider : CryptoProvider} {hash : HashAlgorithm} {mac : (key data : Bytes) → Bytes}

/-- Behind `count` rounds the loop of `hkdf_expand` has T(count) and the first bytes of the blocks
up to it. -/
theorem hkdfBlocks_concat (isHmac : provider.IsHmac hash mac) {prk info : Bytes}
    {outputLen rounds count : Nat} :
    provider.hkdfBlocks hash prk info outputLen rounds (count + 1) (expansion mac prk info count)
        ((Blocks.concat (fun i => expansion mac prk info (i + 1)) count).take outputLen) =
      .ok ((Blocks.concat (fun i => expansion mac prk info (i + 1)) (count + rounds)).take outputLen) := by
  induction rounds generalizing count with
  | zero => rfl
  | succ rounds inductionHypothesis =>
      have later := @inductionHypothesis (count + 1)
      rw [← Blocks.take_concat_succ, show count + 1 + rounds = count + (rounds + 1) by omega] at later
      unfold CryptoProvider.hkdfBlocks
      rw [isHmac.hmac]
      exact later

theorem hkdfExpand_first (isHmac : provider.IsHmac hash mac) {prk info : Bytes} {outputLen : Nat}
    (short : outputLen ≤ 255 * hash.outputLen) :
    ∃ out, provider.hkdfExpand hash prk info outputLen = .ok out ∧
      Blocks.First (fun i => expansion mac prk info (i + 1)) outputLen out := by
  have even : ∀ i, (expansion mac prk info (i + 1)).length = hash.outputLen :=
    fun i => isHmac.length _ _
  have positive := isHmac.positive
  have enough : outputLen ≤ (outputLen + hash.outputLen - 1) / hash.outputLen * hash.outputLen := by
    have split := Nat.div_add_mod (outputLen + hash.outputLen - 1) hash.outputLen
    have small := Nat.mod_lt (outputLen + hash.outputLen - 1) positive
    rw [Nat.mul_comm] at split
    omega
  have few : ¬(outputLen + hash.outputLen - 1) / hash.outputLen > 255 := by
    rw [Nat.not_lt, ← Nat.lt_succ_iff, Nat.div_lt_iff_lt_mul positive]
    omega
  refine ⟨(Blocks.concat (fun i => expansion mac prk info (i + 1))
    (0 + (outputLen + hash.outputLen - 1) / hash.outputLen)).take outputLen, ?_, Blocks.first_take ?_⟩
  · unfold CryptoProvider.hkdfExpand
    simp only [if_neg few]
    have rounds := @hkdfBlocks_concat provider hash mac isHmac prk info outputLen
      ((outputLen + hash.outputLen - 1) / hash.outputLen) 0
    rwa [Blocks.concat, List.take_nil] at rounds
  · rw [Blocks.length_concat even]
    simpa using enough

theorem hkdfExpand_long (isHmac : provider.IsHmac hash mac) {prk info : Bytes} {outputLen : Nat}
    (long : 255 * hash.outputLen < outputLen) :
    provider.hkdfExpand hash prk info outputLen = .error .hkdfOutputTooLong := by
  have many : (outputLen + hash.outputLen - 1) / hash.outputLen > 255 := by
    have positive := isHmac.positive
    rw [gt_iff_lt, ← Nat.succ_le_iff, Nat.le_div_iff_mul_le positive]
    omega
  unfold CryptoProvider.hkdfExpand
  simp only [if_pos many]

/-- With A(count + 1) and the blocks before it the loop of `prf_tls12` goes on to the end: every
round adds at least a byte. -/
theorem prfBlocks_first (isHmac : provider.IsHmac hash mac) {secret labelSeed : Bytes}
    {outputLen fuel count : Nat}
    (enough : outputLen ≤ (Blocks.concat (pHash mac secret labelSeed) count).length + fuel) :
    ∃ out, provider.prfBlocks hash secret labelSeed outputLen fuel
        (chain mac secret labelSeed (count + 1))
        ((Blocks.concat (pHash mac secret labelSeed) count).take outputLen) = .ok out ∧
      Blocks.First (pHash mac secret labelSeed) outputLen out := by
  induction fuel generalizing count with
  | zero => exact ⟨_, rfl, Blocks.first_take enough⟩
  | succ fuel inductionHypothesis =>
      unfold CryptoProvider.prfBlocks
      by_cases more : ((Blocks.concat (pHash mac secret labelSeed) count).take outputLen).length < outputLen
      · rw [if_pos more, isHmac.hmac]
        have grown : (Blocks.concat (pHash mac secret labelSeed) (count + 1)).length =
            (Blocks.concat (pHash mac secret labelSeed) count).length + hash.outputLen := by
          rw [Blocks.concat, List.length_append]
          exact congrArg _ (isHmac.length _ _)
        have positive := isHmac.positive
        have step := @Blocks.take_concat_succ _ (pHash mac secret labelSeed) outputLen count
        simp only [bind, Except.bind]
        rw [show mac secret (chain mac secret labelSeed (count + 1) ++ labelSeed) =
          pHash mac secret labelSeed count from rfl, step]
        by_cases again : ((Blocks.concat (pHash mac secret labelSeed) (count + 1)).take outputLen).length <
            outputLen
        · rw [if_pos again, isHmac.hmac]
          exact @inductionHypothesis (count + 1) (by omega)
        · rw [if_neg again]
          refine ⟨_, rfl, Blocks.first_take ?_⟩
          rw [List.length_take] at again
          omega
      · rw [if_neg more]
        refine ⟨_, rfl, Blocks.first_take ?_⟩
        rw [List.length_take] at more
        omega

/-- `prf_tls12` returns the first bytes of P_hash. -/
theorem prfTls12_first (isHmac : provider.IsHmac hash mac) {secret seed : Bytes} {label : String}
    {outputLen : Nat} :
    ∃ out, provider.prfTls12 hash secret label seed outputLen = .ok out ∧
      Blocks.First (pHash mac secret (utf8 label ++ seed)) outputLen out := by
  unfold CryptoProvider.prfTls12
  simp only [isHmac.hmac]
  have first := @prfBlocks_first provider hash mac isHmac secret (utf8 label ++ seed) outputLen
    outputLen 0 (Nat.le_add_left _ _)
  rwa [Blocks.concat, List.take_nil] at first

/-- What the encoding of an HkdfLabel is made of. -/
theorem buildHkdfLabel_ok {labelPrefix label context info : Bytes} {outputLen : Nat}
    (isInfo : CryptoProvider.buildHkdfLabel labelPrefix label context outputLen = .ok info) :
    labelPrefix.length + label.length ≤ 255 ∧ context.length ≤ 255 ∧ outputLen ≤ 65535 ∧
      info = be16 outputLen ++ (UInt8.ofNat (labelPrefix.length + label.length) ::
        ((labelPrefix ++ label) ++ UInt8.ofNat context.length :: context)) := by
  unfold CryptoProvider.buildHkdfLabel at isInfo
  simp only at isInfo
  by_cases longLabel : labelPrefix.length + label.length > 255
  · rw [if_pos longLabel] at isInfo
    cases isInfo
  by_cases longContext : context.length > 255
  · rw [if_neg longLabel, if_pos longContext] at isInfo
    cases isInfo
  by_cases longOutput : outputLen > 65535
  · rw [if_neg longLabel, if_neg longContext, if_pos longOutput] at isInfo
    cases isInfo
  rw [if_neg longLabel, if_neg longContext, if_neg longOutput] at isInfo
  refine ⟨Nat.le_of_not_lt longLabel, Nat.le_of_not_lt longContext, Nat.le_of_not_lt longOutput, ?_⟩
  rw [← Except.ok.inj isInfo]
  simp only [List.append_assoc, List.cons_append]

/-- The parts of an encoded HkdfLabel can be told from it. -/
theorem buildHkdfLabel_injective {labelPrefix label context label' context' info : Bytes}
    {outputLen outputLen' : Nat}
    (isInfo : CryptoProvider.buildHkdfLabel labelPrefix label context outputLen = .ok info)
    (isInfo' : CryptoProvider.buildHkdfLabel labelPrefix label' context' outputLen' = .ok info) :
    outputLen = outputLen' ∧ label = label' ∧ context = context' := by
  obtain ⟨shortLabel, shortContext, shortOutput, is⟩ := buildHkdfLabel_ok isInfo
  obtain ⟨shortLabel', shortContext', shortOutput', is'⟩ := buildHkdfLabel_ok isInfo'
  have same := is.symm.trans is'
  have size {n m : Nat} (small : n ≤ 255) (small' : m ≤ 255)
      (same : UInt8.ofNat n = UInt8.ofNat m) : n = m := by
    have values := congrArg UInt8.toNat same
    rw [UInt8.toNat_ofNat', UInt8.toNat_ofNat'] at values
    omega
  obtain ⟨sameOutput, same⟩ := List.append_inj same rfl
  obtain ⟨sameLabelLen, same⟩ := List.cons.inj same
  have labelLen := size shortLabel shortLabel' sameLabelLen
  obtain ⟨sameLabel, same⟩ := List.append_inj same (by rwa [List.length_append, List.length_append])
  refine ⟨?_, List.append_cancel_left sameLabel, (List.cons.inj same).2⟩
  have value := congrArg beValue sameOutput
  rw [beValue_be16, beValue_be16] at value
  omega

end Derivation

end Dimpl
