import Dimpl.Dtls12.RoundTrip
import Dimpl.Dtls12.Server
import Dimpl.Wire.Insertion

/-!
# Elements that are not supported, in DTLS 1.2

What a ClientHello says does not change when elements that are not supported are put into it, and
neither does what the server does with it.
-/

namespace Dimpl.Dtls12

open Nom Insertion Program

/-- What DTLS 1.2 supports. -/
def supports : Supports := ⟨keepsSuite, keepsExtension, keepsAlgorithm⟩

theorem parseSupportedGroups_iff {input rest : Bytes} {groups : List NamedGroup} :
    parseSupportedGroups input = .ok (groups, rest) ↔
      rest = [] ∧ ∃ codes : List Nat, (∀ code ∈ codes, code < 65536) ∧ codes.length * 2 < 65536 ∧
        decide (codes.length * 2 % 2 = 0) = true ∧ input = vector16 (writeCodes codes) ∧
        groups = (codes.map NamedGroup.mk).filter NamedGroup.isSupported ∧ groups.length ≤ 4 :=
  codeList_iff (readsAt_code NamedGroup.mk)

theorem parseSignatureAlgorithms_iff {input rest : Bytes}
    {algorithms : List SignatureAndHashAlgorithm} :
    parseSignatureAlgorithms input = .ok (algorithms, rest) ↔
      rest = [] ∧ ∃ codes : List Nat, (∀ code ∈ codes, code < 65536) ∧ codes.length * 2 < 65536 ∧
        decide (codes.length * 2 ≠ 0 ∧ codes.length * 2 % 2 = 0) = true ∧
        input = vector16 (writeCodes codes) ∧
        algorithms = (codes.map SignatureAndHashAlgorithm.ofU16).filter
          SignatureAndHashAlgorithm.isSupported ∧ algorithms.length ≤ 4 :=
  codeList_iff SignatureAndHashAlgorithm.readsAt

theorem parseSupportedGroups_reads :
    ReadsCodes parseSupportedGroups NamedGroup.mk NamedGroup.isSupported 65536 4 (fun _ => True)
      vector16 := by
  intro input groups rest
  rw [parseSupportedGroups_iff]
  constructor
  · rintro ⟨rfl, codes, fit, few, -, rfl, rfl, bounded⟩
    exact ⟨rfl, codes, ⟨fit, few, trivial, bounded⟩, rfl, rfl⟩
  · rintro ⟨rfl, codes, ⟨fit, few, -, bounded⟩, rfl, rfl⟩
    exact ⟨rfl, codes, fit, few, by simp, rfl, rfl, bounded⟩

theorem parseSignatureAlgorithms_reads :
    ReadsCodes parseSignatureAlgorithms SignatureAndHashAlgorithm.ofU16
      SignatureAndHashAlgorithm.isSupported 65536 4 (fun count => 0 < count) vector16 := by
  intro input algorithms rest
  rw [parseSignatureAlgorithms_iff]
  constructor
  · rintro ⟨rfl, codes, fit, few, condition, rfl, rfl, bounded⟩
    simp only [decide_eq_true_eq] at condition
    exact ⟨rfl, codes, ⟨fit, few, by omega, bounded⟩, rfl, rfl⟩
  · rintro ⟨rfl, codes, ⟨fit, few, some, bounded⟩, rfl, rfl⟩
    exact ⟨rfl, codes, fit, few, decide_eq_true ⟨by omega, by omega⟩, rfl, rfl, bounded⟩

namespace Extension

/-- An extension says what another one says, but for a list that is refused for want of elements. -/
structure Stands (buf buf' : Bytes) (ext ext' : Extension) : Prop where
  type : ext'.extensionType = ext.extensionType
  groups : ext.extensionType = .supportedGroups →
    listed parseSupportedGroups (ext'.extensionData buf') =
      listed parseSupportedGroups (ext.extensionData buf)
  algorithms : ext.extensionType = .signatureAlgorithms →
    Unchanged (listed parseSignatureAlgorithms (ext.extensionData buf))
      (listed parseSignatureAlgorithms (ext'.extensionData buf'))
  profiles : ext.extensionType = .useSrtp →
    listed UseSrtpExtension.parse (ext'.extensionData buf') =
      listed UseSrtpExtension.parse (ext.extensionData buf)
  data : ext.extensionType ∉ [.supportedGroups, .signatureAlgorithms, .useSrtp] →
    ext'.extensionData buf' = ext.extensionData buf

theorem stands_of_widens {buf buf' : Bytes} {ext ext' : Extension}
    (widens : (ext.view buf).Widens supports.scheme (ext'.view buf')) (fits : (ext'.view buf').Fits)
    (kept : keepsExtension (ext.view buf).tag = true) : Stands buf buf' ext ext' where
  type := congrArg ExtensionType.mk widens.tag
  groups isType := widens.listed_groups parseSupportedGroups_reads fits
    (congrArg ExtensionType.asU16 isType)
  algorithms isType := widens.listed_schemes parseSignatureAlgorithms_reads (fun _ some => some)
    (fun _ => rfl) fits (congrArg ExtensionType.asU16 isType)
  profiles isType := widens.listed_profiles (congrArg ExtensionType.asU16 isType)
  data noList := by
    apply widens.data_eq
    intro isList
    obtain ⟨⟨code⟩, range⟩ := ext
    have isCode : code ∈ [10, 13, 14, 43, 51] := isList
    have isKept : keepsExtension code = true := kept
    simp only [List.mem_cons, List.not_mem_nil, or_false] at isCode
    rcases isCode with rfl | rfl | rfl | rfl | rfl
    · exact noList List.mem_cons_self
    · exact noList (List.mem_cons_of_mem _ List.mem_cons_self)
    · exact noList (List.mem_cons_of_mem _ (List.mem_cons_of_mem _ List.mem_cons_self))
    · cases isKept
    · cases isKept

end Extension

namespace ClientHello

/-- A ClientHello says what another one says. -/
structure Stands (buf buf' : Bytes) (hello hello' : ClientHello) : Prop where
  clientVersion : hello'.clientVersion = hello.clientVersion
  random : hello'.random = hello.random
  sessionId : hello'.sessionId = hello.sessionId
  cookie : hello'.cookie = hello.cookie
  cipherSuites : hello'.cipherSuites = hello.cipherSuites
  compressionMethods : hello'.compressionMethods = hello.compressionMethods
  extensions : List.Forall₂ (Extension.Stands buf buf') hello.extensions hello'.extensions

/-- The extensions that are kept show what the supported ones say. -/
theorem map_extensions (front back : Bytes) (wire : HelloWire) :
    (ofWire front.length wire).extensions.map (Extension.view (front ++ (wire.write ++ back))) =
      (wire.extensions.getD []).filter fun ext => keepsExtension ext.tag := by
  have shown : (keptOf Extension.ofTagged (fun ext => ext.extensionType.isSupported)
      (front ++ wire.head).length wire.extensions).map
        (Extension.view ((front ++ wire.head) ++ (writeBlock wire.extensions ++ back))) =
      (wire.extensions.getD []).filter fun ext => keepsExtension ext.tag :=
    map_keptOf Extension.shows Extension.sees _ _ _
  rw [List.length_append] at shown
  rw [← shown, HelloWire.write]
  simp only [List.append_assoc]
  rfl

theorem stands_of_widens {wire wire' : HelloWire} (fits : wire'.Fits)
    (widens : wire.Widens supports wire') (front back back' : Bytes) :
    Stands (front ++ (wire.write ++ back)) (front ++ (wire'.write ++ back'))
      (ofWire front.length wire) (ofWire front.length wire') where
  clientVersion := congrArg ProtocolVersion.mk widens.version
  random := congrArg Random.mk widens.random
  sessionId := widens.sessionId
  cookie := widens.cookie
  cipherSuites := by
    simp only [ofWire, List.filter_map]
    exact congrArg _ (widens.suites.filter_eq fun _ isNew => isNew)
  compressionMethods := by
    simp only [ofWire, List.filter_map]
    exact congrArg _ (widens.methods.filter_eq fun _ isNew => isNew)
  extensions := by
    have kept : List.Forall₂ _
        ((wire.extensions.getD []).filter fun ext => keepsExtension ext.tag)
        ((wire'.extensions.getD []).filter fun ext => keepsExtension ext.tag) :=
      (widens.extensions.with_mem fits.extension).forall₂_filter
        (fun _ _ both => congrArg keepsExtension both.1.tag) fun _ isNew => isNew
    rw [← map_extensions front back wire, ← map_extensions front back' wire',
      List.forall₂_map_left_iff, List.forall₂_map_right_iff] at kept
    exact kept.imp fun _ _ both => Extension.stands_of_widens both.1.1 both.1.2 both.2

variable {buf buf' : Bytes} {hello hello' : ClientHello}

theorem Stands.types (stands : Stands buf buf' hello hello') :
    hello'.extensions.map Extension.extensionType = hello.extensions.map Extension.extensionType := by
  have types : List.Forall₂ Eq (hello.extensions.map Extension.extensionType)
      (hello'.extensions.map Extension.extensionType) := by
    rw [List.forall₂_map_left_iff, List.forall₂_map_right_iff]
    exact stands.extensions.imp fun _ _ both => both.type.symm
  rw [List.forall₂_eq_eq_eq] at types
  exact types.symm

theorem Stands.admits (stands : Stands buf buf' hello hello') (admits : hello.Admits) :
    hello'.Admits := by
  constructor
  · rw [stands.cipherSuites]
    exact admits.suites
  · rw [stands.cipherSuites]
    exact admits.someSuite
  · rw [stands.compressionMethods]
    exact admits.methods
  · rw [stands.compressionMethods]
    exact admits.someMethod
  · have lengths := stands.extensions.length_eq
    constructor
    · exact stands.types ▸ admits.extensions.1
    · rw [← lengths]
      exact admits.extensions.2

/-- A ClientHello with more elements that are not supported is accepted too, and says the same. -/
theorem parse_widened {wire wire' : HelloWire} {front rest : Bytes} (fits : wire.Fits)
    (fits' : wire'.Fits) (widens : wire.Widens supports wire')
    (ends : wire.extensions = none → rest = []) (ends' : wire'.extensions = none → rest = [])
    (parsed : parse front.length (wire.write ++ rest) = .ok (hello, rest)) (back back' : Bytes) :
    ∃ hello', parse front.length (wire'.write ++ rest) = .ok (hello', rest) ∧
      Stands (front ++ (wire.write ++ back)) (front ++ (wire'.write ++ back')) hello hello' ∧
      (hello.extensions.map Extension.extensionType).Nodup := by
  obtain ⟨read, fitsRead, endsRead, same, rfl, admits⟩ := parse_iff.mp parsed
  obtain ⟨rfl, -⟩ := HelloWire.write_inj fits fitsRead ends endsRead same
  have stands := stands_of_widens fits' widens front back back'
  refine ⟨ofWire front.length wire', ?_, stands, admits.extensions.1⟩
  exact parse_iff.mpr ⟨wire', fits', ends', rfl, rfl, stands.admits admits⟩

end ClientHello

namespace Server

section Offering

variable {buf buf' : Bytes} {ext ext' : Extension} {offers offers' next : Offers}

theorem parse_some {α : Type} {parser : Parser α} {data : Bytes} {value : α}
    (isListed : listed parser data = some value) :
    ∃ rest, Nom.parse parser data = .ok (value, rest) := listed_eq_some.mp isListed

theorem parse_none {α : Type} {parser : Parser α} {data : Bytes}
    (notListed : listed parser data = none) : ∃ err, Nom.parse parser data = .error err := by
  cases parsed : Nom.parse parser data with
  | error err => exact ⟨err, rfl⟩
  | ok found =>
      have isListed := listed_eq_some.mpr ⟨found.2, parsed⟩
      cases notListed.symm.trans isListed

/-- No list of signature algorithms is as good as an empty one. -/
def Offers.settled (offers : Offers) : Offers :=
  { offers with signatureAlgorithms := some (offers.signatureAlgorithms.getD []) }

theorem Offers.settled_eq_iff : offers'.settled = offers.settled ↔
    offers'.extendedMasterSecret = offers.extendedMasterSecret ∧
      offers'.srtpProfiles = offers.srtpProfiles ∧
      offers'.supportedGroups = offers.supportedGroups ∧
      offers'.signatureAlgorithms.getD [] = offers.signatureAlgorithms.getD [] := by
  simp only [Offers.settled, Offers.mk.injEq, Option.some.injEq]

/-- What an extension offers is what one offers that says the same, where no algorithms were
offered before them. -/
theorem Offers.add_both (same : offers'.settled = offers.settled)
    (stands : Extension.Stands buf buf' ext ext')
    (fresh : ext.extensionType = .signatureAlgorithms → offers.signatureAlgorithms = none) :
    Both (fun next next' => Offers.settled next' = next.settled) (offers.add ext buf)
      (offers'.add ext' buf') := by
  obtain ⟨secret, profiles, groups, algorithms⟩ := Offers.settled_eq_iff.mp same
  unfold Offers.add
  dsimp only
  rw [stands.type]
  by_cases isSrtp : ext.extensionType = .useSrtp
  · rw [if_pos isSrtp, if_pos isSrtp]
    have listed_eq := stands.profiles isSrtp
    cases isListed : listed UseSrtpExtension.parse (ext.extensionData buf) with
    | none =>
        obtain ⟨err, failed⟩ := parse_none isListed
        obtain ⟨err', failed'⟩ := parse_none (listed_eq.trans isListed)
        rw [failed, failed']
        trivial
    | some found =>
        obtain ⟨rest, parsed⟩ := parse_some isListed
        obtain ⟨rest', parsed'⟩ := parse_some (listed_eq.trans isListed)
        rw [parsed, parsed']
        exact Offers.settled_eq_iff.mpr ⟨secret, rfl, groups, algorithms⟩
  rw [if_neg isSrtp, if_neg isSrtp]
  by_cases isSecret : ext.extensionType = .extendedMasterSecret
  · rw [if_pos isSecret, if_pos isSecret]
    exact Offers.settled_eq_iff.mpr ⟨rfl, profiles, groups, algorithms⟩
  rw [if_neg isSecret, if_neg isSecret]
  by_cases isGroups : ext.extensionType = .supportedGroups
  · rw [if_pos isGroups, if_pos isGroups]
    have listed_eq := stands.groups isGroups
    cases isListed : listed parseSupportedGroups (ext.extensionData buf) with
    | none =>
        obtain ⟨err, failed⟩ := parse_none isListed
        obtain ⟨err', failed'⟩ := parse_none (listed_eq.trans isListed)
        rw [failed, failed']
        trivial
    | some found =>
        obtain ⟨rest, parsed⟩ := parse_some isListed
        obtain ⟨rest', parsed'⟩ := parse_some (listed_eq.trans isListed)
        rw [parsed, parsed']
        exact Offers.settled_eq_iff.mpr ⟨secret, profiles, rfl, algorithms⟩
  rw [if_neg isGroups, if_neg isGroups]
  by_cases isFormats : ext.extensionType = .ecPointFormats
  · rw [if_pos isFormats, if_pos isFormats]
    have data : ext'.extensionData buf' = ext.extensionData buf := by
      apply stands.data
      rw [isFormats]
      decide
    rw [data]
    cases Nom.parse parseEcPointFormats (ext.extensionData buf) with
    | error err => trivial
    | ok found => exact same
  rw [if_neg isFormats, if_neg isFormats]
  by_cases isAlgorithms : ext.extensionType = .signatureAlgorithms
  · rw [if_pos isAlgorithms, if_pos isAlgorithms]
    rw [fresh isAlgorithms] at algorithms
    rcases stands.algorithms isAlgorithms with kept | ⟨refused, empty⟩
    · cases isListed : listed parseSignatureAlgorithms (ext.extensionData buf) with
      | none =>
          obtain ⟨err, failed⟩ := parse_none isListed
          obtain ⟨err', failed'⟩ := parse_none (kept.trans isListed)
          rw [failed, failed']
          exact same
      | some found =>
          obtain ⟨rest, parsed⟩ := parse_some isListed
          obtain ⟨rest', parsed'⟩ := parse_some (kept.trans isListed)
          rw [parsed, parsed']
          exact Offers.settled_eq_iff.mpr ⟨secret, profiles, groups, rfl⟩
    · obtain ⟨err, failed⟩ := parse_none refused
      obtain ⟨rest', parsed'⟩ := parse_some empty
      rw [failed, parsed']
      apply Offers.settled_eq_iff.mpr
      rw [fresh isAlgorithms]
      exact ⟨secret, profiles, groups, rfl⟩
  rw [if_neg isAlgorithms, if_neg isAlgorithms]
  exact same

/-- Only an extension with signature algorithms offers some. -/
theorem Offers.add_signatureAlgorithms (added : offers.add ext buf = .ok next)
    (other : ext.extensionType ≠ .signatureAlgorithms) :
    next.signatureAlgorithms = offers.signatureAlgorithms := by
  unfold Offers.add at added
  dsimp only at added
  rw [if_neg other] at added
  split_ifs at added
  · obtain ⟨_, _, made⟩ := eq_ok_of_bind added
    cases made
    rfl
  · cases added
    rfl
  · obtain ⟨_, _, made⟩ := eq_ok_of_bind added
    cases made
    rfl
  · obtain ⟨_, _, made⟩ := eq_ok_of_bind added
    cases made
    rfl
  · cases added
    rfl

/-- The same is offered in extensions that say the same. -/
theorem Offers.collect_both {extensions extensions' : List Extension}
    (stands : List.Forall₂ (Extension.Stands buf buf') extensions extensions')
    (distinct : (extensions.map Extension.extensionType).Nodup) :
    Both (fun offers offers' => Offers.settled offers' = offers.settled)
      (Offers.collect buf extensions) (Offers.collect buf' extensions') := by
  -- The types left are distinct, and no algorithms are offered before those that are left.
  have both : Both _ (Offers.collect buf extensions) (Offers.collect buf' extensions') :=
    Both.foldlM (fun rest (offers offers' : Offers) =>
      (rest.map Extension.extensionType).Nodup ∧
        ((∃ ext ∈ rest, ext.extensionType = .signatureAlgorithms) →
          offers.signatureAlgorithms = none) ∧ offers'.settled = offers.settled)
      ?_ stands ⟨distinct, fun _ => rfl, rfl⟩
  · exact both.mono fun _ _ related => related.2.2
  · intro ext rest ext' offers offers' first
    rintro ⟨distinct, fresh, same⟩
    rw [List.map_cons, List.nodup_cons] at distinct
    have freshFirst : ext.extensionType = .signatureAlgorithms →
        offers.signatureAlgorithms = none :=
      fun isFirst => fresh ⟨ext, List.mem_cons_self, isFirst⟩
    apply (Offers.add_both same first freshFirst).returned.mono
    rintro next next' ⟨added, same⟩
    refine ⟨distinct.2, ?_, same⟩
    rintro ⟨other, member, isAlgorithms⟩
    have different : ext.extensionType ≠ .signatureAlgorithms := by
      intro isFirst
      apply distinct.1
      rw [isFirst, ← isAlgorithms]
      exact List.mem_map_of_mem member
    rw [Offers.add_signatureAlgorithms added different]
    exact fresh ⟨other, List.mem_cons_of_mem _ member, isAlgorithms⟩

end Offering

section Handling

variable {buf buf' : Bytes} {hello hello' : ClientHello}

/-- A server without a list of signature algorithms of its client goes by an empty one. -/
def settled (s : Server) : Server :=
  { s with clientSignatureAlgorithms := some (s.clientSignatureAlgorithms.getD []) }

theorem acceptClientHello_same (stands : ClientHello.Stands buf buf' hello hello')
    (distinct : (hello.extensions.map Extension.extensionType).Nodup) :
    Alike settled (acceptClientHello hello' buf') (acceptClientHello hello buf) := by
  have both := Offers.collect_both stands.extensions distinct
  unfold acceptClientHello
  rw [stands.cipherSuites, stands.random]
  apply Alike.bind
  intro s
  apply Alike.bind
  intro suite
  apply Alike.bind
  intro _
  apply Alike.bind
  intro _
  cases collected : Offers.collect buf hello.extensions with
  | error err =>
      rw [collected] at both
      cases collected' : Offers.collect buf' hello'.extensions with
      | error err' => exact Alike.throw _ _
      | ok offers' =>
          rw [collected'] at both
          exact absurd both not_false
  | ok offers =>
      rw [collected] at both
      cases collected' : Offers.collect buf' hello'.extensions with
      | error err' =>
          rw [collected'] at both
          exact absurd both not_false
      | ok offers' =>
          rw [collected'] at both
          obtain ⟨secret, profiles, groups, algorithms⟩ := Offers.settled_eq_iff.mp both
          dsimp only
          rw [secret, profiles, groups]
          by_cases hasSecret : (!offers.extendedMasterSecret) = true
          · rw [if_pos hasSecret, if_pos hasSecret]
            exact Alike.throw _ _
          · rw [if_neg hasSecret, if_neg hasSecret]
            intro s
            refine ⟨rfl, ?_⟩
            simp only [finalState, run_modify, bind, EStateM.bind, pure, EStateM.pure, settled, algorithms]

/-- The server does with a ClientHello what it does with one that says the same. -/
theorem handleClientHello_same (stands : ClientHello.Stands buf buf' hello hello')
    (distinct : (hello.extensions.map Extension.extensionType).Nodup) :
    Alike settled (handleClientHello hello' buf') (handleClientHello hello buf) := by
  unfold handleClientHello
  rw [stands.clientVersion, stands.compressionMethods, stands.random, stands.cookie]
  apply Alike.bind
  intro s
  split_ifs
  · exact Alike.refl _
  · exact Alike.refl _
  · exact Alike.refl _
  · exact acceptClientHello_same stands distinct

/-- The algorithm a server signs with, and those it asks a client for, are the same. -/
theorem choices_same {s s' : Server} (same : s'.settled = s.settled) (sig : SignatureAlgorithm)
    (hash : HashAlgorithm) (hashes : List HashAlgorithm) :
    selectSkeSignatureAlgorithm s'.clientSignatureAlgorithms sig hash hashes =
        selectSkeSignatureAlgorithm s.clientSignatureAlgorithms sig hash hashes ∧
      selectCertificateRequestSigAlgs s'.clientSignatureAlgorithms =
        selectCertificateRequestSigAlgs s.clientSignatureAlgorithms := by
  have algorithms : s'.clientSignatureAlgorithms.getD [] = s.clientSignatureAlgorithms.getD [] :=
    Option.some.inj (congrArg Server.clientSignatureAlgorithms same)
  unfold selectSkeSignatureAlgorithm selectCertificateRequestSigAlgs
  rw [algorithms]
  exact ⟨rfl, rfl⟩

end Handling

end Server

end Dimpl.Dtls12
