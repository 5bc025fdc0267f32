import Dimpl.Dtls13.RoundTrip
import Dimpl.Dtls13.Server
import Dimpl.Wire.Insertion

/-!
# Elements that are not supported, in DTLS 1.3

What a ClientHello says does not change when elements that are not supported are put into it, and
neither does what the server does with it.
-/

namespace Dimpl.Dtls13

open Nom Insertion Program

/-- What DTLS 1.3 supports. -/
def supports : Supports := ⟨keepsSuite, keepsExtension, keepsScheme⟩

theorem parseSupportedGroups_reads :
    ReadsCodes parseSupportedGroups NamedGroup.mk NamedGroup.isSupported 65536 4 (fun _ => True)
      vector16 := by
  intro input groups rest
  rw [parseSupportedGroups_iff]
  constructor
  · rintro ⟨rfl, codes, fit, few, -, rfl, rfl, bounded⟩
    exact ⟨rfl, codes, ⟨fit, few, trivial, bounded⟩, rfl, rfl⟩
  · rintro ⟨rfl, codes, ⟨fit, few, -, bounded⟩, rfl, rfl⟩
    exact ⟨rfl, codes, fit, few, by simp, rfl, rfl, bounded⟩

theorem parseSignatureAlgorithms_reads :
    ReadsCodes parseSignatureAlgorithms SignatureScheme.mk SignatureScheme.isSupported 65536 2
      (fun count => 0 < count) vector16 := by
  intro input schemes rest
  rw [parseSignatureAlgorithms_iff]
  constructor
  · rintro ⟨rfl, codes, fit, few, condition, rfl, rfl, bounded⟩
    simp only [decide_eq_true_eq] at condition
    exact ⟨rfl, codes, ⟨fit, few, by omega, bounded⟩, rfl, rfl⟩
  · rintro ⟨rfl, codes, ⟨fit, few, some, bounded⟩, rfl, rfl⟩
    exact ⟨rfl, codes, fit, few, decide_eq_true ⟨by omega, by omega⟩, rfl, rfl, bounded⟩

theorem parseSupportedVersionsClientHello_reads :
    ReadsCodes parseSupportedVersionsClientHello ProtocolVersion.mk
      (fun version => !version.isUnknown) 256 3 (fun count => 0 < count) vector8 := by
  intro input versions rest
  rw [parseSupportedVersionsClientHello_iff]
  constructor
  · rintro ⟨rfl, codes, fit, few, some, rfl, rfl, bounded⟩
    exact ⟨rfl, codes, ⟨fit, few, List.length_pos_of_ne_nil some, bounded⟩, rfl, rfl⟩
  · rintro ⟨rfl, codes, ⟨fit, few, some, bounded⟩, rfl, rfl⟩
    exact ⟨rfl, codes, fit, few, List.ne_nil_of_length_pos some, rfl, rfl, bounded⟩

/-- A list of shares that fits is accepted when few of them are of supported groups. -/
theorem KeyShares.accepted_write {shares found : List Tagged} (fits : grammar.fits shares) :
    (∃ others, Accepted others ∧ grammar.write shares = grammar.write others ∧
        found = others.filter fun share => keepsGroup share.tag) ↔
      (shares.filter fun share => keepsGroup share.tag).length ≤ 4 ∧
        found = shares.filter fun share => keepsGroup share.tag := by
  have counts : (((shares.map Tagged.tag).map NamedGroup.mk).filter NamedGroup.isSupported).length =
      (shares.filter fun share => keepsGroup share.tag).length := by
    rw [List.map_map, List.filter_map, List.length_map]
    rfl
  rw [← counts]
  constructor
  · rintro ⟨others, accepted, same, rfl⟩
    obtain rfl : shares = others := Tagged.flatMap_write_inj fits.1 accepted.1.1
      (vector16_injective _ _ fits.2 accepted.1.2 same)
    exact ⟨accepted.2, rfl⟩
  · rintro ⟨few, rfl⟩
    exact ⟨shares, ⟨fits, few⟩, rfl, rfl⟩

namespace Extension

/-- The key shares an extension lists: groups and keys. -/
def shares (buf : Bytes) (ext : Extension) : Option (List Tagged) :=
  (listed (parseKeyShareClientHello ext.extensionDataRange.start) (ext.extensionData buf)).map
    (List.map (KeyShareEntry.view buf))

/-- The shares are those of supported groups in the data, wherever it stands. -/
theorem shares_iff {buf : Bytes} {ext : Extension} {found : List Tagged} :
    ext.shares buf = some found ↔
      ∃ shares, KeyShares.Accepted shares ∧ ext.extensionData buf = KeyShares.grammar.write shares ∧
        found = shares.filter fun share => keepsGroup share.tag := by
  have shown {shares : List Tagged} (isData : ext.extensionData buf = KeyShares.grammar.write shares) :
      ((place KeyShareEntry.ofTagged Tagged.write (ext.extensionDataRange.start + 2) shares).filter
        (fun entry => entry.group.isSupported)).map (KeyShareEntry.view buf) =
          shares.filter fun share => keepsGroup share.tag := by
    obtain ⟨front, back, rfl, isFront⟩ := slice_split isData (vector16_ne_nil _)
    rw [← isFront]
    exact KeyShares.shows_kept shares front back
  unfold shares
  rw [Option.map_eq_some_iff]
  constructor
  · rintro ⟨entries, isListed, rfl⟩
    obtain ⟨rest, parsed⟩ := listed_eq_some.mp isListed
    obtain ⟨rfl, -⟩ := parseKeyShareClientHello_iff.mp parsed
    obtain ⟨shares, accepted, rfl, isData⟩ := (KeyShares.reads _ _ _).mp parsed
    exact ⟨shares, accepted, isData, shown isData⟩
  · rintro ⟨shares, accepted, isData, rfl⟩
    refine ⟨_, listed_eq_some.mpr ⟨[], ?_⟩, shown isData⟩
    exact (KeyShares.reads _ _ _).mpr ⟨shares, accepted, rfl, isData⟩

theorem shares_widened {buf buf' : Bytes} {ext ext' : Extension}
    (widens : (ext.view buf).Widens supports.scheme (ext'.view buf')) (fits : (ext'.view buf').Fits)
    (isShares : ext.extensionType = .keyShare) : ext'.shares buf' = ext.shares buf := by
  have isTag : (ext.view buf).tag = 51 := congrArg ExtensionType.asU16 isShares
  have isData : (ext.view buf).data = ext.extensionData buf := rfl
  have isData' : (ext'.view buf').data = ext'.extensionData buf' := rfl
  apply Option.ext
  intro found
  rw [shares_iff, shares_iff, ← isData, ← isData']
  generalize ext.view buf = tagged at widens isTag
  generalize ext'.view buf' = tagged' at widens fits
  cases widens with
  | same => rfl
  | @shares shares shares' fit inserted =>
      have size := fits.2
      rw [length_vector16] at size
      have shorter := Tagged.length_flatMap_le inserted.sublist
      have fits' : KeyShares.grammar.fits shares' := ⟨fit, by omega⟩
      have fits₀ : KeyShares.grammar.fits shares :=
        ⟨fun share member => fit share (inserted.sublist.subset member), by omega⟩
      have same : (shares'.filter fun share => keepsGroup share.tag) =
          shares.filter fun share => keepsGroup share.tag := inserted.filter_eq fun _ isNew => isNew
      have before := @KeyShares.accepted_write shares found fits₀
      have after := @KeyShares.accepted_write shares' found fits'
      rw [same] at after
      exact after.trans before.symm
  | groups => cases isTag
  | schemes => cases isTag
  | profiles => cases isTag
  | versions => cases isTag

/-- An extension says what another one says, but for a list that is refused for want of elements. -/
structure Stands (buf buf' : Bytes) (ext ext' : Extension) : Prop where
  type : ext'.extensionType = ext.extensionType
  groups : ext.extensionType = .supportedGroups →
    listed parseSupportedGroups (ext'.extensionData buf') =
      listed parseSupportedGroups (ext.extensionData buf)
  schemes : ext.extensionType = .signatureAlgorithms →
    Unchanged (listed parseSignatureAlgorithms (ext.extensionData buf))
      (listed parseSignatureAlgorithms (ext'.extensionData buf'))
  profiles : ext.extensionType = .useSrtp →
    listed UseSrtpExtension.parse (ext'.extensionData buf') =
      listed UseSrtpExtension.parse (ext.extensionData buf)
  versions : ext.extensionType = .supportedVersions →
    Unchanged (listed parseSupportedVersionsClientHello (ext.extensionData buf))
      (listed parseSupportedVersionsClientHello (ext'.extensionData buf'))
  shares : ext.extensionType = .keyShare → ext'.shares buf' = ext.shares buf
  data : ext.extensionType ∉ [.supportedGroups, .signatureAlgorithms, .useSrtp, .supportedVersions,
    .keyShare] → ext'.extensionData buf' = ext.extensionData buf

theorem stands_of_widens {buf buf' : Bytes} {ext ext' : Extension}
    (widens : (ext.view buf).Widens supports.scheme (ext'.view buf')) (fits : (ext'.view buf').Fits) :
    Stands buf buf' ext ext' where
  type := congrArg ExtensionType.mk widens.tag
  groups isType := widens.listed_groups parseSupportedGroups_reads fits
    (congrArg ExtensionType.asU16 isType)
  schemes isType := widens.listed_schemes parseSignatureAlgorithms_reads (fun _ some => some)
    (fun _ => rfl) fits (congrArg ExtensionType.asU16 isType)
  profiles isType := widens.listed_profiles (congrArg ExtensionType.asU16 isType)
  versions isType := widens.listed_versions parseSupportedVersionsClientHello_reads
    (fun _ some => some) (congrArg ExtensionType.asU16 isType)
  shares isType := shares_widened widens fits isType
  data noList := by
    apply widens.data_eq
    intro isList
    apply noList
    obtain ⟨⟨code⟩, range⟩ := ext
    have isCode : code ∈ [10, 13, 14, 43, 51] := isList
    simpa [ExtensionType.supportedGroups, ExtensionType.signatureAlgorithms, ExtensionType.useSrtp,
      ExtensionType.supportedVersions, ExtensionType.keyShare] using isCode

end Extension

namespace ClientHello

/-- A ClientHello says what another one says. -/
structure Stands (buf buf' : Bytes) (hello hello' : ClientHello) : Prop where
  legacyVersion : hello'.legacyVersion = hello.legacyVersion
  random : hello'.random = hello.random
  legacySessionId : hello'.legacySessionId = hello.legacySessionId
  legacyCookie : hello'.legacyCookie = hello.legacyCookie
  cipherSuites : hello'.cipherSuites = hello.cipherSuites
  legacyCompressionMethods : hello'.legacyCompressionMethods = hello.legacyCompressionMethods
  extensions : List.Forall₂ (Extension.Stands buf buf') hello.extensions hello'.extensions

/-- The extensions that are kept show what the supported ones say. -/
theorem map_extensions (front back : Bytes) (wire : HelloWire) :
    (ofWire front.length wire).extensions.map (Extension.view (front ++ (wire.write ++ back))) =
      (wire.extensions.getD []).filter fun ext => keepsExtension ext.tag := by
  have shown : (keptOf Extension.ofTagged (fun ext => ext.extensionType.isSupported)
      (front ++ wire.head).length wire.extensions).map
        (Extension.view ((front ++ wire.head) ++ (writeBlock wire.extensions ++ back))) =
      (wire.extensions.getD []).filter fun ext => keepsExtension ext.tag :=
    map_keptOf Extension.shows Extension.sees _ _ _
  rw [List.length_append] at shown
  rw [← shown, HelloWire.write]
  simp only [List.append_assoc]
  rfl

theorem stands_of_widens {wire wire' : HelloWire} (fits : wire'.Fits)
    (widens : wire.Widens supports wire') (front back back' : Bytes) :
    Stands (front ++ (wire.write ++ back)) (front ++ (wire'.write ++ back'))
      (ofWire front.length wire) (ofWire front.length wire') where
  legacyVersion := congrArg ProtocolVersion.mk widens.version
  random := congrArg Random.mk widens.random
  legacySessionId := widens.sessionId
  legacyCookie := widens.cookie
  cipherSuites := by
    simp only [ofWire, List.filter_map]
    exact congrArg _ (widens.suites.filter_eq fun _ isNew => isNew)
  legacyCompressionMethods := by
    simp only [ofWire, List.filter_map]
    exact congrArg _ (widens.methods.filter_eq fun _ isNew => isNew)
  extensions := by
    have kept : List.Forall₂ _
        ((wire.extensions.getD []).filter fun ext => keepsExtension ext.tag)
        ((wire'.extensions.getD []).filter fun ext => keepsExtension ext.tag) :=
      (widens.extensions.with_mem fits.extension).forall₂_filter
        (fun _ _ both => congrArg keepsExtension both.1.tag) fun _ isNew => isNew
    rw [← map_extensions front back wire, ← map_extensions front back' wire',
      List.forall₂_map_left_iff, List.forall₂_map_right_iff] at kept
    exact kept.imp fun _ _ both => Extension.stands_of_widens both.1.1 both.1.2

variable {buf buf' : Bytes} {hello hello' : ClientHello} {allowUnknownSuites : Bool}

theorem Stands.types (stands : Stands buf buf' hello hello') :
    hello'.extensions.map Extension.extensionType = hello.extensions.map Extension.extensionType := by
  have types : List.Forall₂ Eq (hello.extensions.map Extension.extensionType)
      (hello'.extensions.map Extension.extensionType) := by
    rw [List.forall₂_map_left_iff, List.forall₂_map_right_iff]
    exact stands.extensions.imp fun _ _ both => both.type.symm
  rw [List.forall₂_eq_eq_eq] at types
  exact types.symm

theorem Stands.admits (stands : Stands buf buf' hello hello')
    (admits : hello.Admits allowUnknownSuites) : hello'.Admits allowUnknownSuites := by
  constructor
  · rw [stands.cipherSuites]
    exact admits.suites
  · rw [stands.cipherSuites]
    exact admits.someSuite
  · rw [stands.legacyCompressionMethods]
    exact admits.methods
  · rw [stands.legacyCompressionMethods]
    exact admits.someMethod
  · have lengths := stands.extensions.length_eq
    constructor
    · exact stands.types ▸ admits.extensions.1
    · rw [← lengths]
      exact admits.extensions.2

/-- A ClientHello with more elements that are not supported is accepted too, and says the same. -/
theorem parse_widened {wire wire' : HelloWire} {front : Bytes} (fits : wire.Fits)
    (fits' : wire'.Fits) (widens : wire.Widens supports wire')
    (parsed : parseWithOptions front.length allowUnknownSuites wire.write = .ok (hello, []))
    (back back' : Bytes) :
    ∃ hello', parseWithOptions front.length allowUnknownSuites wire'.write = .ok (hello', []) ∧
      Stands (front ++ (wire.write ++ back)) (front ++ (wire'.write ++ back')) hello hello' ∧
      (hello.extensions.map Extension.extensionType).Nodup := by
  obtain ⟨-, read, fitsRead, some, same, rfl, admits⟩ := parseWithOptions_iff.mp parsed
  have written : wire.write ++ [] = read.write ++ [] := by rw [same]
  obtain ⟨rfl, -⟩ := HelloWire.write_inj fits fitsRead (fun _ => rfl) (fun _ => rfl) written
  have stands := stands_of_widens fits' widens front back back'
  refine ⟨ofWire front.length wire', ?_, stands, admits.extensions.1⟩
  apply parseWithOptions_iff.mpr
  refine ⟨rfl, wire', fits', ?_, rfl, rfl, stands.admits admits⟩
  intro none
  have sublist := widens.suites.sublist
  rw [none, List.sublist_nil] at sublist
  exact some sublist

end ClientHello

namespace Server

section Reading

variable {buf buf' : Bytes} {found found' : HelloExtensions} {ext ext' : Extension}

/-- The same was found in the extensions, whatever the buffers. -/
structure HelloExtensions.Same (buf buf' : Bytes) (found found' : HelloExtensions) : Prop where
  versionOk : found'.versionOk = found.versionOk
  keyShares : found'.keyShares.map (List.map (KeyShareEntry.view buf')) =
    found.keyShares.map (List.map (KeyShareEntry.view buf))
  groups : found'.groups = found.groups
  profiles : found'.profiles = found.profiles
  cookie : found'.cookie = found.cookie

theorem parseExtension_some {α : Type} {parser : Parser α} {data : Bytes} {value : α}
    (isListed : listed parser data = some value) : parseExtension parser data = .ok value := by
  obtain ⟨rest, parsed⟩ := listed_eq_some.mp isListed
  have parsed : Nom.parse parser data = .ok (value, rest) := parsed
  simp only [parseExtension, parsed]

theorem parseExtension_none {α : Type} {parser : Parser α} {data : Bytes}
    (notListed : listed parser data = none) : ∃ fault, parseExtension parser data = .error fault := by
  cases parsed : Nom.parse parser data with
  | error err => exact ⟨Fault.ofNom err, by simp only [parseExtension, parsed]⟩
  | ok result => simp [listed, parsed] at notListed

/-- The versions of an extension of that type are read. -/
def Readable (buf : Bytes) (ext : Extension) : Prop :=
  ext.extensionType = .supportedVersions →
    listed parseSupportedVersionsClientHello (ext.extensionData buf) ≠ none

/-- What stands for an extension is read as the extension is. -/
theorem readExtension_both (stands : Extension.Stands buf buf' ext ext')
    (same : HelloExtensions.Same buf buf' found found') (readable : Readable buf ext) :
    Both (HelloExtensions.Same buf buf') (readExtension buf found ext)
      (readExtension buf' found' ext') := by
  unfold readExtension
  dsimp only
  rw [stands.type]
  by_cases isVersions : ext.extensionType = .supportedVersions
  · rw [if_pos isVersions, if_pos isVersions]
    cases versions : listed parseSupportedVersionsClientHello (ext.extensionData buf) with
    | none => exact absurd versions (readable isVersions)
    | some list =>
        have versions' : listed parseSupportedVersionsClientHello (ext'.extensionData buf') =
            some list := by
          rcases stands.versions isVersions with kept | refused
          · rw [kept, versions]
          · cases versions.symm.trans refused.1
        rw [parseExtension_some versions, parseExtension_some versions']
        exact { same with versionOk := by simp only [same.versionOk] }
  rw [if_neg isVersions, if_neg isVersions]
  by_cases isShares : ext.extensionType = .keyShare
  · rw [if_pos isShares, if_pos isShares]
    have shares := stands.shares isShares
    unfold Extension.shares at shares
    cases entries : listed (parseKeyShareClientHello ext.extensionDataRange.start)
        (ext.extensionData buf) with
    | none =>
        rw [entries, Option.map_none, Option.map_eq_none_iff] at shares
        obtain ⟨fault, failed⟩ := parseExtension_none entries
        obtain ⟨fault', failed'⟩ := parseExtension_none shares
        rw [failed, failed']
        trivial
    | some list =>
        rw [entries, Option.map_some, Option.map_eq_some_iff] at shares
        obtain ⟨list', entries', shown⟩ := shares
        rw [parseExtension_some entries, parseExtension_some entries']
        exact { same with keyShares := congrArg some shown }
  rw [if_neg isShares, if_neg isShares]
  by_cases isGroups : ext.extensionType = .supportedGroups
  · rw [if_pos isGroups, if_pos isGroups]
    have groups := stands.groups isGroups
    cases isListed : listed parseSupportedGroups (ext.extensionData buf) with
    | none =>
        rw [isListed] at groups
        obtain ⟨fault, failed⟩ := parseExtension_none isListed
        obtain ⟨fault', failed'⟩ := parseExtension_none groups
        rw [failed, failed']
        trivial
    | some list =>
        rw [isListed] at groups
        rw [parseExtension_some isListed, parseExtension_some groups]
        exact { same with groups := rfl }
  rw [if_neg isGroups, if_neg isGroups]
  by_cases isProfiles : ext.extensionType = .useSrtp
  · rw [if_pos isProfiles, if_pos isProfiles]
    have profiles := stands.profiles isProfiles
    cases isListed : listed UseSrtpExtension.parse (ext.extensionData buf) with
    | none =>
        rw [isListed] at profiles
        obtain ⟨fault, failed⟩ := parseExtension_none isListed
        obtain ⟨fault', failed'⟩ := parseExtension_none profiles
        rw [failed, failed']
        trivial
    | some list =>
        rw [isListed] at profiles
        rw [parseExtension_some isListed, parseExtension_some profiles]
        exact { same with profiles := rfl }
  rw [if_neg isProfiles, if_neg isProfiles]
  by_cases isCookie : ext.extensionType = .cookie
  · rw [if_pos isCookie, if_pos isCookie, stands.data (by rw [isCookie]; decide)]
    cases parsed : parseExtension parseCookieExtension (ext.extensionData buf) with
    | error fault => trivial
    | ok cookie =>
        by_cases long : cookie.length > 32
        · simp only [bind, Except.bind, if_pos long]
          trivial
        · simp only [bind, Except.bind, if_neg long]
          exact { same with cookie := rfl }
  · rw [if_neg isCookie, if_neg isCookie]
    exact same

theorem readExtensions_both {extensions extensions' : List Extension}
    (stands : List.Forall₂ (Extension.Stands buf buf') extensions extensions')
    (same : HelloExtensions.Same buf buf' found found')
    (readable : ∀ ext ∈ extensions, Readable buf ext) :
    Both (HelloExtensions.Same buf buf') (extensions.foldlM (readExtension buf) found)
      (extensions'.foldlM (readExtension buf') found') := by
  have both := Both.foldlM (f := readExtension buf) (g := readExtension buf')
    (fun rest found found' => (∀ ext ∈ rest, Readable buf ext) ∧
      HelloExtensions.Same buf buf' found found') ?_ stands ⟨readable, same⟩
  · exact both.mono fun _ _ => And.right
  · intro ext rest ext' found found' first
    rintro ⟨readable, same⟩
    obtain ⟨readableFirst, readable⟩ := List.forall_mem_cons.mp readable
    exact (readExtension_both first same readableFirst).mono fun _ _ same => ⟨readable, same⟩

/-- The versions are found right in an extension that lists the version, and are read. -/
theorem readExtension_versionOk (isRead : readExtension buf found ext = .ok found') :
    (found'.versionOk = true → found.versionOk = true ∨ ext.extensionType = .supportedVersions ∧
      ∃ versions, listed parseSupportedVersionsClientHello (ext.extensionData buf) = some versions ∧
        ProtocolVersion.dtls13 ∈ versions) ∧ Readable buf ext := by
  unfold readExtension at isRead
  dsimp only at isRead
  by_cases isVersions : ext.extensionType = .supportedVersions
  · rw [if_pos isVersions] at isRead
    cases versions : listed parseSupportedVersionsClientHello (ext.extensionData buf) with
    | none =>
        obtain ⟨fault, failed⟩ := parseExtension_none versions
        rw [failed] at isRead
        cases isRead
    | some list =>
        rw [parseExtension_some versions] at isRead
        cases isRead
        refine ⟨fun isOk => ?_, fun _ => by simp [versions]⟩
        rcases Bool.or_eq_true_iff.mp isOk with old | new
        · exact .inl old
        · exact .inr ⟨isVersions, list, rfl, List.contains_iff_mem.mp new⟩
  · refine ⟨fun isOk => .inl ?_, fun isType => absurd isType isVersions⟩
    rw [if_neg isVersions] at isRead
    split_ifs at isRead
    · obtain ⟨_, _, made⟩ := eq_ok_of_bind isRead
      cases made
      exact isOk
    · obtain ⟨_, _, made⟩ := eq_ok_of_bind isRead
      cases made
      exact isOk
    · obtain ⟨_, _, made⟩ := eq_ok_of_bind isRead
      cases made
      exact isOk
    · obtain ⟨cookie, _, made⟩ := eq_ok_of_bind isRead
      by_cases long : cookie.length > 32
      · rw [if_pos long] at made
        cases made
      · rw [if_neg long] at made
        cases made
        exact isOk
    · cases isRead
      exact isOk

theorem readExtensions_versionOk {extensions : List Extension}
    (isRead : extensions.foldlM (readExtension buf) found = .ok found') :
    (found'.versionOk = true → found.versionOk = true ∨ ∃ ext ∈ extensions,
      ext.extensionType = .supportedVersions ∧ ∃ versions,
        listed parseSupportedVersionsClientHello (ext.extensionData buf) = some versions ∧
          ProtocolVersion.dtls13 ∈ versions) ∧ ∀ ext ∈ extensions, Readable buf ext := by
  induction extensions generalizing found with
  | nil =>
      cases isRead
      exact ⟨.inl, fun _ member => absurd member List.not_mem_nil⟩
  | cons ext extensions inductionHypothesis =>
      rw [List.foldlM_cons] at isRead
      obtain ⟨next, first, rest⟩ := eq_ok_of_bind isRead
      obtain ⟨firstOk, readableFirst⟩ := readExtension_versionOk first
      obtain ⟨restOk, readable⟩ := inductionHypothesis rest
      refine ⟨fun isOk => ?_, List.forall_mem_cons.mpr ⟨readableFirst, readable⟩⟩
      rcases restOk isOk with isNext | ⟨ext', member, lists⟩
      · rcases firstOk isNext with old | lists
        · exact .inl old
        · exact .inr ⟨ext, List.mem_cons_self, lists⟩
      · exact .inr ⟨ext', List.mem_cons_of_mem _ member, lists⟩

variable {hello hello' : ClientHello}

/-- The same is found in both hellos, or the versions of the first one are refused and those of the
second one are not enough. -/
theorem readExtensions_same (stands : ClientHello.Stands buf buf' hello hello')
    (distinct : (hello.extensions.map Extension.extensionType).Nodup) :
    Both (HelloExtensions.Same buf buf') (readExtensions buf hello.extensions)
        (readExtensions buf' hello'.extensions) ∨
      (∃ fault, readExtensions buf hello.extensions = .error fault) ∧
        ∀ found', readExtensions buf' hello'.extensions = .ok found' → found'.versionOk = false := by
  by_cases readable : ∀ ext ∈ hello.extensions, Readable buf ext
  · exact .inl (readExtensions_both stands.extensions ⟨rfl, rfl, rfl, rfl, rfl⟩ readable)
  right
  constructor
  · cases isRead : readExtensions buf hello.extensions with
    | error fault => exact ⟨fault, rfl⟩
    | ok found => exact absurd (readExtensions_versionOk isRead).2 readable
  · intro found' isRead'
    by_contra isOk
    rw [Bool.not_eq_false] at isOk
    rcases (readExtensions_versionOk isRead').1 isOk with absurd | ⟨ext₁, member₁, isType₁, lists⟩
    · cases absurd
    simp only [Readable, not_forall] at readable
    obtain ⟨ext, member, isType, refused⟩ := readable
    obtain ⟨ext', member', both⟩ := exists_mem stands.extensions member
    have distinct' : (hello'.extensions.map Extension.extensionType).Nodup := by
      rwa [stands.types]
    obtain rfl := List.inj_on_of_nodup_map distinct' member' member₁
      ((both.type.trans isType).trans isType₁.symm)
    obtain ⟨versions, isListed, supported⟩ := lists
    rw [not_not] at refused
    rcases both.versions isType with kept | ⟨-, empty⟩
    · cases isListed.symm.trans (kept.trans refused)
    · cases isListed.symm.trans empty
      exact absurd supported List.not_mem_nil

end Reading

section Selecting

variable {buf buf' : Bytes} {found found' : HelloExtensions} {hello hello' : ClientHello}

/-- A share is accepted for its group and its key. -/
theorem acceptShare_eq {share share' : KeyShareEntry} (suite : Dtls13CipherSuite)
    (profiles : Option (List SrtpProfile))
    (same : share'.view buf' = share.view buf) :
    acceptShare suite share' profiles buf' = acceptShare suite share profiles buf := by
  have group : share'.group = share.group := congrArg (fun t : Tagged => NamedGroup.mk t.tag) same
  have key : share'.keyExchange buf' = share.keyExchange buf := congrArg Tagged.data same
  unfold acceptShare
  rw [group, key]

/-- The share that is taken is the same. -/
theorem find_share (same : HelloExtensions.Same buf buf' found found') (groups : List NamedGroup) :
    ((found'.keyShares.getD []).find? fun share => groups.contains share.group).map
        (KeyShareEntry.view buf') =
      ((found.keyShares.getD []).find? fun share => groups.contains share.group).map
        (KeyShareEntry.view buf) := by
  have shown {found : HelloExtensions} {buf : Bytes} :
      ((found.keyShares.getD []).find? fun share => groups.contains share.group).map
          (KeyShareEntry.view buf) =
        ((found.keyShares.map (List.map (KeyShareEntry.view buf))).getD []).find?
          fun tagged => groups.contains ⟨tagged.tag⟩ := by
    cases found.keyShares with
    | none => rfl
    | some shares =>
        simp only [Option.map_some, Option.getD_some, List.find?_map]
        rfl
  rw [shown, shown, same.keyShares]

theorem selectShare_eq (same : HelloExtensions.Same buf buf' found found') (suite : Dtls13CipherSuite)
    (random : Random) (groups : List NamedGroup) :
    selectShare suite random groups found' buf' = selectShare suite random groups found buf := by
  have taken := find_share same groups
  unfold selectShare
  rw [same.groups, same.profiles]
  cases isShare : (found.keyShares.getD []).find? fun share => groups.contains share.group with
  | none =>
      rw [isShare, Option.map_none, Option.map_eq_none_iff] at taken
      rw [taken]
  | some share =>
      rw [isShare, Option.map_some, Option.map_eq_some_iff] at taken
      obtain ⟨share', isShare', shown⟩ := taken
      rw [isShare']
      exact acceptShare_eq suite found.profiles shown

theorem retryGroup_eq (same : HelloExtensions.Same buf buf' found found') (groups : List NamedGroup) :
    retryGroup groups found' = retryGroup groups found := by
  have taken := congrArg Option.isSome (find_share same groups)
  rw [Option.isSome_map, Option.isSome_map, List.isSome_find?, List.isSome_find?] at taken
  unfold retryGroup
  rw [taken, same.groups]

theorem acceptClientHello_eq (stands : ClientHello.Stands buf buf' hello hello')
    (same : HelloExtensions.Same buf buf' found found') (lengthBefore : Nat) :
    acceptClientHello lengthBefore hello' found' buf' =
      acceptClientHello lengthBefore hello found buf := by
  unfold acceptClientHello
  simp only [stands.cipherSuites, stands.legacySessionId, stands.random, same.cookie,
    selectShare_eq same, retryGroup_eq same]

/-- A ClientHello that cannot be read is refused, and nothing else is done. -/
theorem handleClientHello_error {lengthBefore : Nat} {s : Server}
    (refused : ∀ found, readExtensions buf hello.extensions = .ok found → found.versionOk = false) :
    value? (handleClientHello lengthBefore hello buf) s = none ∧
      finalState (handleClientHello lengthBefore hello buf) s = s := by
  have fails : ∃ fault, handleClientHello lengthBefore hello buf s = .error fault s := by
    unfold handleClientHello
    cases refuseClientHello hello with
    | some reason => exact ⟨_, rfl⟩
    | none =>
        cases isRead : readExtensions buf hello.extensions with
        | error fault => exact ⟨_, rfl⟩
        | ok found =>
            have notOk := refused found isRead
            simp only [ofExcept, pure_bind, notOk, Bool.not_false, if_true]
            simp only [bind, EStateM.bind, run_get]
            cases s.autoMode with
            | true => exact ⟨_, rfl⟩
            | false => exact ⟨_, rfl⟩
  obtain ⟨fault, failed⟩ := fails
  simp only [value?, finalState, failed, and_self]

/-- The server does with a ClientHello what it does with one that says the same. -/
theorem handleClientHello_same (stands : ClientHello.Stands buf buf' hello hello')
    (distinct : (hello.extensions.map Extension.extensionType).Nodup) (lengthBefore : Nat) :
    Alike id (handleClientHello lengthBefore hello' buf')
      (handleClientHello lengthBefore hello buf) := by
  intro s
  have both := readExtensions_same stands distinct
  cases isRead : readExtensions buf hello.extensions with
  | error fault =>
      have before := @handleClientHello_error buf hello lengthBefore s (by simp [isRead])
      have after := @handleClientHello_error buf' hello' lengthBefore s ?_
      · rw [before.1, before.2, after.1, after.2]
        exact ⟨rfl, rfl⟩
      · intro found' isRead'
        rcases both with both | both
        · rw [isRead, isRead'] at both
          exact absurd both not_false
        · exact both.2 found' isRead'
  | ok found =>
      rcases both with both | ⟨⟨fault, failed⟩, -⟩
      · cases isRead' : readExtensions buf' hello'.extensions with
        | error fault =>
            rw [isRead, isRead'] at both
            exact absurd both not_false
        | ok found' =>
            rw [isRead, isRead'] at both
            have same : handleClientHello lengthBefore hello' buf' =
                handleClientHello lengthBefore hello buf := by
              unfold handleClientHello refuseClientHello
              rw [isRead, isRead', stands.legacyVersion, stands.legacyCompressionMethods]
              simp only [ofExcept, pure_bind, both.versionOk, acceptClientHello_eq stands both]
            rw [same]
            exact ⟨rfl, rfl⟩
      · cases isRead.symm.trans failed

end Selecting

end Server

end Dimpl.Dtls13
