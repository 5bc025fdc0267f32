import Dimpl.Wire.Fields

/-!
# The `use_srtp` extension on the wire

What its parser keeps, and that parser and serializer are inverse to each other.
-/

namespace Dimpl

open Nom

/-- What stands in a `use_srtp` extension. -/
structure SrtpWire where
  profiles : List Nat
  mki : Bytes
  deriving DecidableEq, Repr

namespace SrtpWire

/-- Every number and every length fits its field. -/
structure Fits (srtp : SrtpWire) : Prop where
  profile : ∀ profile ∈ srtp.profiles, profile < 65536
  profiles : srtp.profiles.length * 2 < 65536
  mki : srtp.mki.length < 256

/-- The bytes of the extension. -/
def write (srtp : SrtpWire) : Bytes :=
  vector16 (writeCodes srtp.profiles) ++ vector8 srtp.mki

/-- How the extension is written. -/
def grammar : Grammar SrtpWire := ⟨Fits, write⟩

/-- Only known profiles. -/
def Plain (srtp : SrtpWire) : Prop :=
  ∀ code ∈ srtp.profiles, (SrtpProfile.ofU16 code).isSome = true

/-- An extension that fits, of distinct and known profiles. -/
structure Holds (srtp : SrtpWire) : Prop where
  fits : srtp.Fits
  plain : srtp.Plain
  distinct : srtp.profiles.Nodup

end SrtpWire

namespace UseSrtpExtension

theorem pushProfile_iff {profiles result : List SrtpProfile} {value : Nat}
    (room : profiles.length ≤ 3) :
    pushProfile profiles value = .ok result ↔
      result = profiles ++ (SrtpProfile.ofU16 value).toList ∧ result.length ≤ 3 := by
  unfold pushProfile pushBounded
  cases SrtpProfile.ofU16 value with
  | none =>
      simp only [Option.toList_none, List.append_nil, Except.ok.injEq]
      constructor
      · rintro rfl
        exact ⟨rfl, room⟩
      · rintro ⟨rfl, _⟩
        rfl
  | some profile =>
      simp only [Option.toList_some]
      split
      · rename_i isRoom
        simp only [Except.ok.injEq]
        constructor
        · rintro rfl
          rw [List.length_append, List.length_singleton]
          exact ⟨rfl, isRoom⟩
        · rintro ⟨rfl, _⟩
          rfl
      · rename_i isFull
        constructor
        · intro refused
          cases refused
        · rintro ⟨rfl, bounded⟩
          rw [List.length_append, List.length_singleton] at bounded
          exact absurd bounded isFull

theorem filterMap_profiles (profiles : List SrtpProfile) (code : Nat) (codes : List Nat) :
    profiles ++ (code :: codes).filterMap SrtpProfile.ofU16 =
      (profiles ++ (SrtpProfile.ofU16 code).toList) ++ codes.filterMap SrtpProfile.ofU16 := by
  rw [List.append_assoc]
  cases isProfile : SrtpProfile.ofU16 code <;> simp [isProfile]

/-- The known profiles of a list that is read to its end. -/
theorem parseProfiles_iff {fuel : Nat} {profiles result : List SrtpProfile} {input rest : Bytes}
    (enough : input.length < fuel) (room : profiles.length ≤ 3) :
    parseProfiles fuel profiles input = .ok (result, rest) ↔
      rest = [] ∧ ∃ codes : List Nat, (∀ code ∈ codes, code < 65536) ∧ input = writeCodes codes ∧
        result = profiles ++ codes.filterMap SrtpProfile.ofU16 ∧ result.length ≤ 3 := by
  induction fuel generalizing profiles input with
  | zero => omega
  | succ fuel inductionHypothesis =>
      unfold parseProfiles
      rw [bind_iff]
      simp only [remaining_iff]
      constructor
      · rintro ⟨_, _, ⟨rfl, rfl⟩, parsed⟩
        split at parsed
        · simp only [bind_iff, require_iff, pure_iff, List.isEmpty_iff] at parsed
          obtain ⟨_, _, ⟨rfl, rfl⟩, rfl, rfl⟩ := parsed
          exact ⟨rfl, [], fun _ member => absurd member List.not_mem_nil, rfl,
            (List.append_nil _).symm, room⟩
        · obtain ⟨code, middle, isCode, pushed⟩ := bind_ok parsed
          obtain ⟨small, rfl⟩ := beU16_iff.mp isCode
          cases isPushed : pushProfile profiles code with
          | error refused =>
              rw [isPushed] at pushed
              cases pushed
          | ok profiles' =>
              rw [isPushed] at pushed
              obtain ⟨rfl, room'⟩ := (pushProfile_iff room).mp isPushed
              have shorter : middle.length < fuel := by
                rw [List.length_append, length_be16] at enough
                omega
              obtain ⟨rfl, codes, fit, rfl, rfl, few⟩ :=
                (inductionHypothesis shorter room').mp pushed
              refine ⟨rfl, code :: codes, List.forall_mem_cons.mpr ⟨small, fit⟩, rfl,
                (filterMap_profiles profiles code codes).symm, few⟩
      · rintro ⟨rfl, codes, fit, rfl, rfl, few⟩
        refine ⟨_, _, ⟨rfl, rfl⟩, ?_⟩
        cases codes with
        | nil =>
            rw [List.filterMap_nil, List.append_nil]
            rfl
        | cons code codes =>
            obtain ⟨small, fit⟩ := List.forall_mem_cons.mp fit
            have grown := filterMap_profiles profiles code codes
            have written : writeCodes (code :: codes) = be16 code ++ writeCodes codes := rfl
            have isLong : ¬(writeCodes (code :: codes)).length < 2 := by
              rw [length_writeCodes, List.length_cons]
              omega
            have room' : (profiles ++ (SrtpProfile.ofU16 code).toList).length ≤ 3 := by
              rw [grown, List.length_append] at few
              omega
            have shorter : (writeCodes codes).length < fuel := by
              rw [written, List.length_append, length_be16] at enough
              omega
            rw [if_neg isLong, bind_iff]
            refine ⟨code, writeCodes codes, beU16_iff.mpr ⟨small, written⟩, ?_⟩
            simp only [(pushProfile_iff room).mpr ⟨rfl, room'⟩]
            exact (inductionHypothesis shorter room').mpr ⟨rfl, codes, fit, rfl, grown, few⟩

/-- A `use_srtp` extension keeps the profiles that are known. -/
theorem parse_iff {input rest : Bytes} {ext : UseSrtpExtension} :
    parse input = .ok (ext, rest) ↔
      rest = [] ∧ ∃ wire : SrtpWire, wire.Fits ∧ input = wire.write ∧
        ext = ⟨wire.profiles.filterMap SrtpProfile.ofU16, wire.mki⟩ ∧ ext.profiles.length ≤ 3 := by
  unfold parse
  have profiles_iff (data : Bytes) (result : List SrtpProfile) (left : Bytes) :=
    @parseProfiles_iff (data.length + 1) [] result data left (Nat.lt_succ_self _) (Nat.zero_le 3)
  simp only [bind_iff, beU16_iff, take_iff, within_iff, Prod.exists, profiles_iff, List.nil_append,
    beU8_iff, remaining_iff, require_iff, pure_iff, List.isEmpty_iff]
  constructor
  · rintro ⟨_, _, ⟨small, rfl⟩, data, _, ⟨rfl, rfl⟩, _, _, _, ⟨⟨rfl, codes, fit, rfl, rfl, few⟩, rfl⟩,
      mki⟩
    obtain ⟨count, _, rfl, mki, _, ⟨isCount, rfl⟩, _, _, ⟨rfl, rfl⟩, _, _, ⟨rfl, rfl⟩, rfl, rfl⟩ := mki
    rw [length_writeCodes] at small
    refine ⟨rfl, ⟨codes, mki⟩, ⟨fit, small, isCount ▸ count.toNat_lt⟩, ?_, rfl, few⟩
    rw [SrtpWire.write, vector8_of_length isCount, vector16, List.append_nil, List.append_assoc]
  · rintro ⟨rfl, wire, fits, rfl, rfl, few⟩
    have written : wire.write = be16 (writeCodes wire.profiles).length ++
        (writeCodes wire.profiles ++ UInt8.ofNat wire.mki.length :: (wire.mki ++ [])) := by
      rw [SrtpWire.write, vector16, vector8, List.append_nil, List.append_assoc]
    have small : (writeCodes wire.profiles).length < 65536 := by
      rw [length_writeCodes]
      exact fits.profiles
    exact ⟨_, _, ⟨small, written⟩, _, _, ⟨rfl, rfl⟩, _, _, _,
      ⟨⟨rfl, wire.profiles, fits.profile, rfl, rfl, few⟩, rfl⟩, _, _, rfl, wire.mki, [],
      ⟨(toNat_length fits.mki).symm, rfl⟩, _, _, ⟨rfl, rfl⟩, (), _, ⟨rfl, rfl⟩, rfl, rfl⟩

/-- The extension and what it says. -/
def codec : Codec UseSrtpExtension SrtpWire where
  parse _ := parse
  serialize ext _ := ext.serialize
  view _ ext := ⟨ext.profiles.map SrtpProfile.asU16, ext.mki⟩

theorem serialize_eq (ext : UseSrtpExtension) (buf : Bytes) :
    ext.serialize = (codec.view buf ext).write := by
  simp only [serialize, codec, SrtpWire.write, vector16_codes, vector8, List.append_assoc]

theorem asU16_of_known {code : Nat} {profile : SrtpProfile}
    (known : SrtpProfile.ofU16 code = some profile) : profile.asU16 = code := by
  unfold SrtpProfile.ofU16 at known
  split_ifs at known with first second third
  all_goals
    cases known
    exact Eq.symm ‹_›

/-- Only known profiles stay as they are. -/
theorem map_known {codes : List Nat} (plain : ∀ code ∈ codes, (SrtpProfile.ofU16 code).isSome = true) :
    (codes.filterMap SrtpProfile.ofU16).map SrtpProfile.asU16 = codes := by
  induction codes with
  | nil => rfl
  | cons code codes inductionHypothesis =>
      obtain ⟨isKnown, plain⟩ := List.forall_mem_cons.mp plain
      obtain ⟨profile, known⟩ := Option.isSome_iff_exists.mp isKnown
      rw [List.filterMap_cons_some known, List.map_cons, inductionHypothesis plain,
        asU16_of_known known]

theorem shows {wire : SrtpWire} (plain : wire.Plain) (buf : Bytes) :
    codec.view buf ⟨wire.profiles.filterMap SrtpProfile.ofU16, wire.mki⟩ = wire := by
  simp only [codec, map_known plain]

theorem length_known {wire : SrtpWire} (plain : wire.Plain) (distinct : wire.profiles.Nodup) :
    (wire.profiles.filterMap SrtpProfile.ofU16).length ≤ 3 := by
  have same := congrArg List.length (map_known plain)
  rw [List.length_map] at same
  have members : wire.profiles ⊆ [0x0001, 0x0007, 0x0008] := by
    intro code member
    obtain ⟨profile, known⟩ := Option.isSome_iff_exists.mp (plain code member)
    rw [← asU16_of_known known]
    cases profile <;> decide
  rw [same]
  exact (distinct.subperm members).length_le

/-- What stands in the extensions that are accepted. -/
def Accepted (wire : SrtpWire) : Prop :=
  wire.Fits ∧ (wire.profiles.filterMap SrtpProfile.ofU16).length ≤ 3

theorem reads (offset : Nat) (x : Bytes) (ext : UseSrtpExtension) :
    codec.parse offset x = .ok (ext, []) ↔
      ∃ wire, Accepted wire ∧ ext = ⟨wire.profiles.filterMap SrtpProfile.ofU16, wire.mki⟩ ∧
        x = SrtpWire.grammar.write wire := by
  refine parse_iff.trans ?_
  constructor
  · rintro ⟨_, wire, fits, rfl, rfl, few⟩
    exact ⟨wire, ⟨fits, few⟩, rfl, rfl⟩
  · rintro ⟨wire, ⟨fits, few⟩, rfl, rfl⟩
    exact ⟨rfl, wire, fits, rfl, rfl, few⟩

/-- The `use_srtp` codec. -/
theorem inverse : codec.Inverse SrtpWire.grammar SrtpWire.Holds SrtpWire.Plain := by
  apply Codec.inverse reads fun ext buf => serialize_eq ext buf
  · exact fun front wire back _ plain => shows plain _
  · exact fun wire accepted => accepted.1
  · exact fun wire holds => ⟨⟨holds.fits, length_known holds.plain holds.distinct⟩, holds.plain⟩

end UseSrtpExtension

end Dimpl
