import Dimpl.Lib.WireList
import Dimpl.Types

/-!
# Lists in the hello of a client

The parsers of the extensions keep what they know of the lists of the client. What they
keep stands in the list that was sent.
-/

namespace Dimpl

open Nom

/-- A number and what it is read as. -/
theorem readsCode_beU16 {α : Type} {make : Nat → α} {code : α → Nat}
    (same : ∀ value, value < 65536 → code (make value) = value) :
    ReadsCode (do return make (← beU16)) code := by
  intro input value rest succeeds
  obtain ⟨number, middle, read, made⟩ := bind_ok succeeds
  obtain ⟨enough, rfl, rfl⟩ := beUint_ok read
  obtain ⟨rfl, rfl⟩ := pure_ok made
  refine ⟨enough, same _ ?_, rfl⟩
  have bound := beValue_lt (input.take 2)
  rwa [List.length_take_of_le enough] at bound

theorem NamedGroup.parse_readsCode : ReadsCode NamedGroup.parse NamedGroup.asU16 :=
  readsCode_beU16 fun _ _ => rfl

theorem SignatureScheme.parse_readsCode : ReadsCode SignatureScheme.parse SignatureScheme.asU16 :=
  readsCode_beU16 fun _ _ => rfl

namespace UseSrtpExtension

theorem ofU16_asU16 {value : Nat} {profile : SrtpProfile} (known : SrtpProfile.ofU16 value = some profile) :
    profile.asU16 = value := by
  unfold SrtpProfile.ofU16 at known
  split at known
  · cases known
    symm
    assumption
  · split at known
    · cases known
      symm
      assumption
    · split at known
      · cases known
        symm
        assumption
      · cases known

theorem pushProfile_mem {profiles profiles' : List SrtpProfile} {value : Nat}
    (pushed : pushProfile profiles value = .ok profiles') :
    ∀ profile ∈ profiles', profile ∈ profiles ∨ profile.asU16 = value := by
  unfold pushProfile pushBounded at pushed
  intro profile member
  split at pushed
  · rename_i found known
    split at pushed
    · cases pushed
      rcases List.mem_append.mp member with old | new
      · exact .inl old
      · cases List.mem_singleton.mp new
        exact .inr (ofU16_asU16 known)
    · cases pushed
  · cases pushed
    exact .inl member

theorem parseProfiles_codes {fuel : Nat} {acc profiles : List SrtpProfile} {input rest : Bytes}
    (parsed : parseProfiles fuel acc input = .ok (profiles, rest)) :
    ∀ profile ∈ profiles, profile ∈ acc ∨ profile.asU16 ∈ codes input := by
  induction fuel generalizing acc input with
  | zero =>
      obtain ⟨rfl, _⟩ := pure_ok parsed
      exact fun _ member => .inl member
  | succ fuel inductionHypothesis =>
      unfold parseProfiles at parsed
      replace parsed := remaining_bind_ok parsed
      split at parsed
      · obtain ⟨_, _, _, parsed⟩ := bind_ok parsed
        obtain ⟨rfl, _⟩ := pure_ok parsed
        exact fun _ member => .inl member
      · obtain ⟨value, middle, read, parsed⟩ := bind_ok parsed
        obtain ⟨enough, isValue, rfl⟩ := beUint_ok read
        cases pushed : pushProfile acc value with
        | error refused =>
            rw [pushed] at parsed
            cases parsed
        | ok acc' =>
            rw [pushed] at parsed
            intro profile member
            rw [codes_of_two enough isValue]
            rcases inductionHypothesis parsed profile member with old | later
            · rcases pushProfile_mem pushed profile old with before | isProfile
              · exact .inl before
              · exact .inr (isProfile ▸ List.mem_cons_self)
            · exact .inr (List.mem_cons_of_mem _ later)

/-- The profiles that are kept were listed. -/
theorem parse_listed {data rest : Bytes} {useSrtp : UseSrtpExtension}
    (parsed : Nom.parse parse data = .ok (useSrtp, rest)) :
    ∀ profile ∈ useSrtp.profiles, profile.asU16 ∈ listed data := by
  obtain ⟨length, middle, isLength, parsed⟩ := bind_ok parsed
  obtain ⟨profilesData, middle', taken, parsed⟩ := bind_ok parsed
  obtain ⟨found, _, profiles, parsed⟩ := bind_ok parsed
  obtain ⟨_, _, _, parsed⟩ := bind_ok parsed
  obtain ⟨_, _, _, parsed⟩ := bind_ok parsed
  obtain ⟨_, _, _, parsed⟩ := bind_ok parsed
  obtain ⟨_, _, _, parsed⟩ := bind_ok parsed
  obtain ⟨rfl, _⟩ := pure_ok parsed
  intro profile member
  rw [listed_of_take isLength taken]
  rcases parseProfiles_codes (within_ok profiles).1 profile member with impossible | listed
  · cases impossible
  · exact listed

end UseSrtpExtension

end Dimpl
