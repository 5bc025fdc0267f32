import Dimpl.Lib.Insertion
import Dimpl.Wire.Unique

/-!
# Elements that are not supported

A ClientHello with more elements than another one, all of them unknown to the one who reads it, and
what a list in an extension says after more is put into it.
-/

namespace Dimpl

open Nom Insertion

/-- The code points a version supports that the other one may not. -/
structure Supports where
  suite : Nat → Bool
  extension : Nat → Bool
  scheme : Nat → Bool

/-- The lists in the data of an extension may have more elements that are not supported: groups,
signature schemes, SRTP profiles, versions and key shares. -/
inductive Tagged.Widens (scheme : Nat → Bool) : Tagged → Tagged → Prop
  | same (ext : Tagged) : Widens scheme ext ext
  | groups {codes codes' : List Nat} (fit : ∀ code ∈ codes', code < 65536)
      (inserted : Inserted Eq (fun code => NamedGroup.isSupported ⟨code⟩ = false) codes codes') :
      Widens scheme ⟨10, vector16 (writeCodes codes)⟩ ⟨10, vector16 (writeCodes codes')⟩
  | schemes {codes codes' : List Nat} (fit : ∀ code ∈ codes', code < 65536)
      (inserted : Inserted Eq (fun code => scheme code = false) codes codes') :
      Widens scheme ⟨13, vector16 (writeCodes codes)⟩ ⟨13, vector16 (writeCodes codes')⟩
  | profiles {codes codes' : List Nat} {mki : Bytes} (fits : SrtpWire.Fits ⟨codes', mki⟩)
      (inserted : Inserted Eq (fun code => SrtpProfile.ofU16 code = none) codes codes') :
      Widens scheme ⟨14, SrtpWire.write ⟨codes, mki⟩⟩ ⟨14, SrtpWire.write ⟨codes', mki⟩⟩
  | versions {codes codes' : List Nat} (fit : ∀ code ∈ codes', code < 65536)
      (few : codes'.length * 2 < 256)
      (inserted : Inserted Eq (fun code => ProtocolVersion.isUnknown ⟨code⟩ = true) codes codes') :
      Widens scheme ⟨43, vector8 (writeCodes codes)⟩ ⟨43, vector8 (writeCodes codes')⟩
  | shares {shares shares' : List Tagged} (fit : ∀ share ∈ shares', share.Fits)
      (inserted : Inserted Eq (fun share => NamedGroup.isSupported ⟨Tagged.tag share⟩ = false)
        shares shares') :
      Widens scheme ⟨51, vector16 (shares.flatMap Tagged.write)⟩
        ⟨51, vector16 (shares'.flatMap Tagged.write)⟩

theorem Tagged.length_flatMap_le {all all' : List Tagged} (sublist : all.Sublist all') :
    (all.flatMap Tagged.write).length ≤ (all'.flatMap Tagged.write).length := by
  induction sublist with
  | slnil => exact Nat.le_refl _
  | cons tagged _ inductionHypothesis =>
      rw [List.flatMap_cons, List.length_append]
      omega
  | cons_cons tagged _ inductionHypothesis =>
      rw [List.flatMap_cons, List.flatMap_cons, List.length_append, List.length_append]
      omega

theorem Tagged.Widens.tag {scheme : Nat → Bool} {ext ext' : Tagged} (widens : ext.Widens scheme ext') :
    ext'.tag = ext.tag := by
  cases widens <;> rfl

/-- A ClientHello may have more elements than another one that are not supported, at any places. -/
structure HelloWire.Widens (supports : Supports) (hello hello' : HelloWire) : Prop where
  version : hello'.version = hello.version
  random : hello'.random = hello.random
  sessionId : hello'.sessionId = hello.sessionId
  cookie : hello'.cookie = hello.cookie
  suites : Inserted Eq (fun code => supports.suite code = false) hello.suites hello'.suites
  methods : Inserted Eq (fun method => CompressionMethod.isSupported ⟨method⟩ = false)
    hello.methods hello'.methods
  extensions : Inserted (Tagged.Widens supports.scheme)
    (fun ext => supports.extension ext.tag = false)
    (hello.extensions.getD []) (hello'.extensions.getD [])
  block : hello'.extensions = none → hello.extensions = none

theorem vector8_injective (data data' : Bytes) (small : data.length < 256)
    (small' : data'.length < 256) (same : vector8 data = vector8 data') : data = data' := by
  have behind : vector8 data ++ [] = vector8 data' ++ [] := by rw [same]
  exact (vector8_inj small small' behind).1

theorem vector16_injective (data data' : Bytes) (small : data.length < 65536)
    (small' : data'.length < 65536) (same : vector16 data = vector16 data') : data = data' := by
  have behind : vector16 data ++ [] = vector16 data' ++ [] := by rw [same]
  exact (vector16_inj small small' behind).1

/-- The bytes that a range shows stand at its start. -/
theorem slice_split {buf data : Bytes} {range : Range} (isData : slice buf range = data)
    (some : data ≠ []) : ∃ front back, buf = front ++ (data ++ back) ∧ front.length = range.start := by
  unfold slice at isData
  have inside : range.start < buf.length := by
    by_contra outside
    rw [List.drop_eq_nil_of_le (Nat.le_of_not_lt outside), List.take_nil] at isData
    exact some isData.symm
  refine ⟨buf.take range.start, (buf.drop range.start).drop (range.stop - range.start), ?_, ?_⟩
  · rw [← isData, List.take_append_drop, List.take_append_drop]
  · exact List.length_take_of_le (Nat.le_of_lt inside)

theorem HelloWire.Fits.extension {hello : HelloWire} (fits : hello.Fits) :
    ∀ ext ∈ hello.extensions.getD [], ext.Fits := by
  intro ext member
  cases isBlock : hello.extensions with
  | none =>
      rw [isBlock] at member
      exact absurd member List.not_mem_nil
  | some extensions =>
      rw [isBlock] at member
      exact (fits.extensions extensions isBlock).1 ext member

section Listing

variable {α ι : Type} {p : Parser α} {data : Bytes} {value : α}

/-- What a parser makes of its input, if anything. -/
def listed (p : Parser α) (data : Bytes) : Option α :=
  match parse p data with
  | .ok (value, _) => some value
  | .error _ => none

theorem listed_eq_some : listed p data = some value ↔ ∃ rest, p data = .ok (value, rest) := by
  unfold listed
  cases parsed : parse p data with
  | error err =>
      constructor
      · intro absurd
        cases absurd
      · rintro ⟨rest, isOk⟩
        cases parsed.symm.trans isOk
  | ok found =>
      obtain ⟨value', rest⟩ := found
      constructor
      · rintro ⟨⟩
        exact ⟨rest, parsed⟩
      · rintro ⟨rest', isOk⟩
        cases parsed.symm.trans isOk
        rfl

/-- A parser reads the writings of what fits, all of them. -/
def ReadsWhole (p : Parser α) (fits : ι → Prop) (write : ι → Bytes) (made : ι → α) : Prop :=
  ∀ input value rest, p input = .ok (value, rest) ↔
    rest = [] ∧ ∃ w, fits w ∧ input = write w ∧ value = made w

theorem ReadsWhole.listed_iff {fits : ι → Prop} {write : ι → Bytes} {made : ι → α} {w : ι}
    (reads : ReadsWhole p fits write made) (unique : ∀ w', fits w' → write w = write w' → w = w') :
    listed p (write w) = some value ↔ fits w ∧ value = made w := by
  rw [listed_eq_some]
  constructor
  · rintro ⟨rest, parsed⟩
    obtain ⟨-, w', fit, same, rfl⟩ := (reads _ _ _).mp parsed
    obtain rfl := unique w' fit same
    exact ⟨fit, rfl⟩
  · rintro ⟨fit, rfl⟩
    exact ⟨[], (reads _ _ _).mpr ⟨rfl, w, fit, rfl, rfl⟩⟩

end Listing

section Lists

variable {α : Type} {p : Parser (List α)} {make : Nat → α} {keep : α → Bool} {limit capacity : Nat}
variable {condition : Nat → Prop} {vector : Bytes → Bytes} {codes codes' : List Nat}

/-- A parser keeps the supported part of a list of code points that fills its input. -/
def ReadsCodes (p : Parser (List α)) (make : Nat → α) (keep : α → Bool) (limit capacity : Nat)
    (condition : Nat → Prop) (vector : Bytes → Bytes) : Prop :=
  ReadsWhole p
    (fun codes => (∀ code ∈ codes, code < 65536) ∧ codes.length * 2 < limit ∧ condition codes.length ∧
      ((codes.map make).filter keep).length ≤ capacity)
    (fun codes => vector (writeCodes codes)) fun codes => (codes.map make).filter keep

/-- Code points that are not kept change a list in one case only: a list is refused for want of
code points, and there is one then. -/
theorem ReadsCodes.widened (reads : ReadsCodes p make keep limit capacity condition vector)
    (injective : ∀ data data', data.length < limit → data'.length < limit →
      vector data = vector data' → data = data')
    (some : ∀ count, 0 < count → condition count) (fit : ∀ code ∈ codes', code < 65536)
    (few : codes'.length * 2 < limit)
    (inserted : Inserted Eq (fun code => keep (make code) = false) codes codes') :
    listed p (vector (writeCodes codes')) = listed p (vector (writeCodes codes)) ∨
      ¬condition 0 ∧ listed p (vector (writeCodes codes)) = none ∧
        listed p (vector (writeCodes codes')) = .some [] := by
  have shorter := inserted.sublist.length_le
  have fit₀ : ∀ code ∈ codes, code < 65536 := fun code member => fit code (inserted.sublist.subset member)
  have few₀ : codes.length * 2 < limit := by omega
  have unique {codes : List Nat} (fit : ∀ code ∈ codes, code < 65536) (few : codes.length * 2 < limit)
      (w' : List Nat) (fits : (∀ code ∈ w', code < 65536) ∧ w'.length * 2 < limit ∧
        condition w'.length ∧ ((w'.map make).filter keep).length ≤ capacity)
      (same : vector (writeCodes codes) = vector (writeCodes w')) : codes = w' := by
    refine writeCodes_inj fit fits.1 (injective _ _ ?_ ?_ same)
    · rwa [length_writeCodes]
    · rw [length_writeCodes]
      exact fits.2.1
  have same : (codes'.map make).filter keep = (codes.map make).filter keep := by
    rw [List.filter_map, List.filter_map]
    exact congrArg (List.map make) (inserted.filter_eq fun _ isNew => isNew)
  have before : ∀ value, listed p (vector (writeCodes codes)) = .some value ↔ _ :=
    fun _ => reads.listed_iff (unique fit₀ few₀)
  have after : ∀ value, listed p (vector (writeCodes codes')) = .some value ↔ _ :=
    fun _ => reads.listed_iff (unique fit few)
  by_cases conditions : condition codes'.length ↔ condition codes.length
  · left
    apply Option.ext
    intro value
    rw [before, after, same, conditions]
    constructor
    · rintro ⟨⟨-, -, rest⟩, made⟩
      exact ⟨⟨fit₀, few₀, rest⟩, made⟩
    · rintro ⟨⟨-, -, rest⟩, made⟩
      exact ⟨⟨fit, few, rest⟩, made⟩
  · right
    have empty : codes.length = 0 := by
      by_contra longer
      exact conditions (iff_of_true (some _ (by omega)) (some _ (by omega)))
    have longer : 0 < codes'.length := by
      by_contra shorter
      exact conditions (by rw [empty, Nat.eq_zero_of_not_pos shorter])
    have refused : ¬condition 0 := by
      intro accepted
      exact conditions (iff_of_true (some _ longer) (by rwa [empty]))
    refine ⟨refused, ?_, (after []).mpr ?_⟩
    · apply Option.eq_none_iff_forall_ne_some.mpr
      intro value isSome
      have holds := ((before value).mp isSome).1.2.2.1
      rw [empty] at holds
      exact refused holds
    · obtain rfl := List.length_eq_zero_iff.mp empty
      rw [same]
      exact ⟨⟨fit, few, some _ longer, Nat.zero_le _⟩, rfl⟩

end Lists

theorem UseSrtpExtension.readsWhole :
    ReadsWhole parse
      (fun wire : SrtpWire => wire.Fits ∧ (wire.profiles.filterMap SrtpProfile.ofU16).length ≤ 3)
      SrtpWire.write (fun wire => ⟨wire.profiles.filterMap SrtpProfile.ofU16, wire.mki⟩) := by
  intro input value rest
  rw [parse_iff]
  constructor
  · rintro ⟨rfl, wire, fits, rfl, rfl, few⟩
    exact ⟨rfl, wire, ⟨fits, few⟩, rfl, rfl⟩
  · rintro ⟨rfl, wire, ⟨fits, few⟩, rfl, rfl⟩
    exact ⟨rfl, wire, fits, rfl, rfl, few⟩

theorem SrtpWire.write_inj {srtp srtp' : SrtpWire} (fits : srtp.Fits) (fits' : srtp'.Fits)
    (same : srtp.write = srtp'.write) : srtp = srtp' := by
  have listed := length_writeCodes srtp.profiles
  have listed' := length_writeCodes srtp'.profiles
  obtain ⟨written, behind⟩ := vector16_inj (listed ▸ fits.profiles) (listed' ▸ fits'.profiles) same
  have profiles := writeCodes_inj fits.profile fits'.profile written
  have written : vector8 srtp.mki ++ [] = vector8 srtp'.mki ++ [] := by rw [behind]
  obtain ⟨mki, -⟩ := vector8_inj fits.mki fits'.mki written
  obtain ⟨_, _⟩ := srtp
  obtain ⟨_, _⟩ := srtp'
  dsimp only at profiles mki
  rw [profiles, mki]

/-- Profiles that are not known are read over. -/
theorem listed_profiles {codes codes' : List Nat} {mki : Bytes} (fits : SrtpWire.Fits ⟨codes', mki⟩)
    (inserted : Inserted Eq (fun code => SrtpProfile.ofU16 code = none) codes codes') :
    listed UseSrtpExtension.parse (SrtpWire.write ⟨codes', mki⟩) =
      listed UseSrtpExtension.parse (SrtpWire.write ⟨codes, mki⟩) := by
  have shorter := inserted.sublist.length_le
  have enough := fits.profiles
  have fits₀ : SrtpWire.Fits ⟨codes, mki⟩ :=
    ⟨fun code member => fits.profile code (inserted.sublist.subset member), by dsimp only at enough ⊢; omega,
      fits.mki⟩
  have same : codes'.filterMap SrtpProfile.ofU16 = codes.filterMap SrtpProfile.ofU16 :=
    inserted.filterMap_eq fun _ isNew => isNew
  apply Option.ext
  intro value
  rw [UseSrtpExtension.readsWhole.listed_iff fun _ fits' => SrtpWire.write_inj fits fits'.1,
    UseSrtpExtension.readsWhole.listed_iff fun _ fits' => SrtpWire.write_inj fits₀ fits'.1, same]
  simp only [fits, fits₀]

/-- A list stays what it is, or it was refused and is now read as one without elements. -/
def Unchanged {α : Type} (before after : Option (List α)) : Prop :=
  after = before ∨ before = none ∧ after = some []

namespace Tagged.Widens

variable {α : Type} {p : Parser (List α)} {make : Nat → α} {keep : α → Bool} {capacity : Nat}
variable {condition : Nat → Prop} {scheme : Nat → Bool} {ext ext' : Tagged}

theorem listed_groups {p : Parser (List NamedGroup)}
    (reads : ReadsCodes p NamedGroup.mk NamedGroup.isSupported 65536 capacity (fun _ => True) vector16)
    (widens : ext.Widens scheme ext') (fits : ext'.Fits) (isGroups : ext.tag = 10) :
    listed p ext'.data = listed p ext.data := by
  cases widens with
  | same => rfl
  | groups fit inserted =>
      have size := fits.2
      rw [length_vector16, length_writeCodes] at size
      have few : _ * 2 < 65536 := Nat.lt_of_le_of_lt (Nat.le_add_left _ _) size
      rcases reads.widened vector16_injective (fun _ _ => trivial) fit few inserted with same | refused
      · exact same
      · exact absurd trivial refused.1
  | schemes => cases isGroups
  | profiles => cases isGroups
  | versions => cases isGroups
  | shares => cases isGroups

theorem listed_schemes (reads : ReadsCodes p make keep 65536 capacity condition vector16)
    (some : ∀ count, 0 < count → condition count) (sees : ∀ code, keep (make code) = scheme code)
    (widens : ext.Widens scheme ext') (fits : ext'.Fits) (isSchemes : ext.tag = 13) :
    Unchanged (listed p ext.data) (listed p ext'.data) := by
  cases widens with
  | same => exact .inl rfl
  | schemes fit inserted =>
      have size := fits.2
      rw [length_vector16, length_writeCodes] at size
      have few : _ * 2 < 65536 := Nat.lt_of_le_of_lt (Nat.le_add_left _ _) size
      simp only [← sees] at inserted
      exact (reads.widened vector16_injective some fit few inserted).imp id And.right
  | groups => cases isSchemes
  | profiles => cases isSchemes
  | versions => cases isSchemes
  | shares => cases isSchemes

theorem listed_profiles (widens : ext.Widens scheme ext') (isProfiles : ext.tag = 14) :
    listed UseSrtpExtension.parse ext'.data = listed UseSrtpExtension.parse ext.data := by
  cases widens with
  | same => rfl
  | profiles fits inserted => exact Dimpl.listed_profiles fits inserted
  | groups => cases isProfiles
  | schemes => cases isProfiles
  | versions => cases isProfiles
  | shares => cases isProfiles

theorem listed_versions {p : Parser (List ProtocolVersion)}
    (reads : ReadsCodes p ProtocolVersion.mk (fun version => !version.isUnknown) 256 capacity
      condition vector8)
    (some : ∀ count, 0 < count → condition count) (widens : ext.Widens scheme ext')
    (isVersions : ext.tag = 43) : Unchanged (listed p ext.data) (listed p ext'.data) := by
  cases widens with
  | same => exact .inl rfl
  | @versions codes codes' fit few inserted =>
      have inserted : Inserted Eq
          (fun code => (!(ProtocolVersion.mk code).isUnknown) = false) codes codes' := by
        simpa only [Bool.not_eq_false'] using inserted
      exact (reads.widened vector8_injective some fit few inserted).imp id And.right
  | groups => cases isVersions
  | schemes => cases isVersions
  | profiles => cases isVersions
  | shares => cases isVersions

/-- Only the data of lists may have become more. -/
theorem data_eq (widens : ext.Widens scheme ext') (noList : ext.tag ∉ [10, 13, 14, 43, 51]) :
    ext'.data = ext.data := by
  cases widens with
  | same => rfl
  | groups => simp at noList
  | schemes => simp at noList
  | profiles => simp at noList
  | versions => simp at noList
  | shares => simp at noList

end Tagged.Widens

end Dimpl
