import Dimpl.Dtls13.Codec
import Dimpl.Wire.Srtp

/-!
# The DTLS 1.3 codecs are inverse to each other

What is written of a message is read as the same message, and what is read of bytes that only say
supported things is written as the same bytes.
-/

namespace Dimpl.Dtls13

open Nom

/-- Whether an extension code point is kept. -/
def keepsExtension (tag : Nat) : Bool := ExtensionType.isSupported ⟨tag⟩

/-- Whether a suite code point is kept. -/
def keepsSuite (code : Nat) : Bool := Dtls13CipherSuite.isSupported ⟨code⟩

namespace Extension

/-- What an extension says. -/
def view (buf : Bytes) (ext : Extension) : Tagged := ⟨ext.extensionType.asU16, ext.extensionData buf⟩

theorem shows : Shows view Tagged.write ofTagged := by
  intro front tagged back
  exact congrArg (Tagged.mk tagged.tag) (Tagged.slice_data front tagged back)

theorem serialize_eq (ext : Extension) (buf : Bytes) : ext.serialize buf = (ext.view buf).write := by
  simp only [serialize, Tagged.write, vector16, view, List.append_assoc]

theorem serializeAll_eq (extensions : List Extension) (buf : Bytes) :
    serializeAll extensions buf = writeBlock (some (extensions.map (view buf))) :=
  writeBlock_map extensions (fun _ => rfl) fun ext => ext.serialize_eq buf

theorem sees (buf : Bytes) (ext : Extension) :
    ext.extensionType.isSupported = keepsExtension (ext.view buf).tag :=
  rfl

/-- What the extensions of a block are admitted for does not depend on where it stands. -/
theorem admits_keptOf {capacity base : Nat} {block : Option (List Tagged)} :
    Admits capacity
        (keptOf ofTagged (fun ext => ext.extensionType.isSupported) base block) ↔
      (keptTags keepsExtension block).Nodup ∧ (keptTags keepsExtension block).length ≤ capacity := by
  have injective : Function.Injective ExtensionType.asU16 := by
    rintro ⟨first⟩ ⟨second⟩ rfl
    rfl
  apply distinct_keptOf injective
  · intro offset tagged
    rfl
  · intro ext
    rfl

theorem admits_of_plain {block : Option (List Tagged)} {capacity base : Nat}
    (plain : BlockPlain keepsExtension block) (distinct : BlockDistinct block)
    (few : (block.getD []).length ≤ capacity) :
    Admits capacity
      (keptOf ofTagged (fun ext => ext.extensionType.isSupported) base block) := by
  rw [admits_keptOf, plain.keptTags, List.length_map]
  exact ⟨distinct, few⟩

theorem length_le_supported {block : Option (List Tagged)} (plain : BlockPlain keepsExtension block)
    (distinct : BlockDistinct block) :
    (block.getD []).length ≤ ExtensionType.supported.length :=
  plain.length_le ExtensionType.asU16 (fun _ => rfl) (fun _ => rfl) distinct

end Extension

namespace ClientHello

/-- The messages of the parser and the serializer. -/
def codec (allowUnknownSuites : Bool) : Codec ClientHello HelloWire where
  parse base := parseWithOptions base allowUnknownSuites
  serialize := serialize
  view buf hello :=
    { version := hello.legacyVersion.asU16
      random := hello.random.bytes
      sessionId := hello.legacySessionId
      cookie := hello.legacyCookie
      suites := hello.cipherSuites.map fun suite => suite.asU16
      methods := hello.legacyCompressionMethods.map fun method => method.asU8
      extensions := viewBlock Extension.view buf hello.extensions }

/-- How ClientHellos are written. -/
def grammar : Grammar HelloWire := ⟨HelloWire.Fits, HelloWire.write⟩

theorem serialize_eq (allowUnknownSuites : Bool) (hello : ClientHello) (buf : Bytes) :
    hello.serialize buf = ((codec allowUnknownSuites).view buf hello).write := by
  have block : writeBlock (viewBlock Extension.view buf hello.extensions) =
      if hello.extensions.isEmpty then [] else Extension.serializeAll hello.extensions buf := by
    unfold viewBlock
    split
    · rfl
    · exact (Extension.serializeAll_eq hello.extensions buf).symm
  simp only [serialize, codec, HelloWire.write, HelloWire.head, vector16_codes, vector8, block,
    List.length_map, List.append_assoc, List.cons_append]

theorem shows {wire : HelloWire} (plain : wire.Plain keepsSuite keepsExtension)
    (allowUnknownSuites : Bool) (front back : Bytes) :
    (codec allowUnknownSuites).view (front ++ (wire.write ++ back)) (ofWire front.length wire) =
      wire := by
  have suites : ((wire.suites.map Dtls13CipherSuite.mk).filter Dtls13CipherSuite.isSupported).map
      (fun suite => suite.asU16) = wire.suites := map_filter_made (fun _ => rfl) plain.suites
  have methods : ((wire.methods.map CompressionMethod.mk).filter CompressionMethod.isSupported).map
      (fun method => method.asU8) = wire.methods := map_filter_made (fun _ => rfl) plain.methods
  have split : front ++ (wire.write ++ back) =
      (front ++ wire.head) ++ (writeBlock wire.extensions ++ back) := by
    simp only [HelloWire.write, List.append_assoc]
  have extensions := viewBlock_plain Extension.shows Extension.sees plain.extensions (front ++ wire.head) back
  rw [← split, List.length_append] at extensions
  unfold codec ofWire
  simp only [suites, methods, extensions]

theorem accepts {allowUnknownSuites : Bool} {wire : HelloWire} {base : Nat}
    (holds : wire.Holds keepsSuite keepsExtension) :
    (ofWire base wire).Admits allowUnknownSuites where
  suites := length_made_le Dtls13CipherSuite.asU16 (fun _ => rfl) (fun _ => rfl) holds.suites
  someSuite := .inr (filter_made_ne_nil holds.plain.suites holds.someSuite)
  methods := length_made_le CompressionMethod.asU8 (fun _ => rfl) (fun _ => rfl) holds.methods
  someMethod := filter_made_ne_nil holds.plain.methods holds.someMethod
  extensions := by
    apply Extension.admits_of_plain holds.plain.extensions holds.extensions
    exact Nat.le_trans (Extension.length_le_supported holds.plain.extensions holds.extensions)
      (by decide)

theorem admits_base {allowUnknownSuites : Bool} {wire : HelloWire} {base base' : Nat}
    (admits : (ofWire base wire).Admits allowUnknownSuites) :
    (ofWire base' wire).Admits allowUnknownSuites where
  suites := admits.suites
  someSuite := admits.someSuite
  methods := admits.methods
  someMethod := admits.someMethod
  extensions := Extension.admits_keptOf.mpr (Extension.admits_keptOf.mp admits.extensions)

/-- What stands in the ClientHellos that are accepted. -/
def Accepted (allowUnknownSuites : Bool) (wire : HelloWire) : Prop :=
  wire.Fits ∧ wire.suites ≠ [] ∧ (ofWire 0 wire).Admits allowUnknownSuites

theorem reads (allowUnknownSuites : Bool) (offset : Nat) (x : Bytes) (hello : ClientHello) :
    (codec allowUnknownSuites).parse offset x = .ok (hello, []) ↔
      ∃ wire, Accepted allowUnknownSuites wire ∧ hello = ofWire offset wire ∧
        x = grammar.write wire := by
  refine parseWithOptions_iff.trans ?_
  constructor
  · rintro ⟨_, wire, fits, some, rfl, rfl, admits⟩
    exact ⟨wire, ⟨fits, some, admits_base admits⟩, rfl, rfl⟩
  · rintro ⟨wire, ⟨fits, some, admits⟩, rfl, rfl⟩
    exact ⟨rfl, wire, fits, some, rfl, rfl, admits_base admits⟩

/-- The ClientHello codec. -/
theorem inverse (allowUnknownSuites : Bool) :
    (codec allowUnknownSuites).Inverse grammar (HelloWire.Holds keepsSuite keepsExtension)
      (HelloWire.Plain keepsSuite keepsExtension) := by
  apply Codec.inverse (reads allowUnknownSuites) (serialize_eq allowUnknownSuites)
  · exact fun front wire back _ plain => shows plain allowUnknownSuites front back
  · exact fun wire accepted => accepted.1
  · exact fun wire holds => ⟨⟨holds.fits, holds.someSuite, accepts holds⟩, holds.plain⟩

end ClientHello

namespace ServerHello

/-- The messages of the parser and the serializer. -/
def codec : Codec ServerHello ServerHelloWire where
  parse := parse
  serialize := serialize
  view buf hello :=
    { version := hello.legacyVersion.asU16
      random := hello.random.bytes
      sessionId := hello.legacySessionId
      suite := hello.cipherSuite.asU16
      method := hello.legacyCompressionMethod.asU8
      extensions := hello.extensions.map fun extensions => extensions.map (Extension.view buf) }

/-- How ServerHellos are written. -/
def grammar : Grammar ServerHelloWire := ⟨ServerHelloWire.Fits, ServerHelloWire.write⟩

theorem serialize_eq (hello : ServerHello) (buf : Bytes) :
    hello.serialize buf = (codec.view buf hello).write := by
  cases isBlock : hello.extensions with
  | none =>
      simp only [serialize, codec, ServerHelloWire.write, ServerHelloWire.head, vector8, isBlock,
        Option.map_none, writeBlock, List.append_assoc, List.cons_append, List.nil_append]
  | some extensions =>
      simp only [serialize, codec, ServerHelloWire.write, ServerHelloWire.head, vector8, isBlock,
        Option.map_some, Extension.serializeAll_eq, List.append_assoc, List.cons_append]

theorem shows {wire : ServerHelloWire} (plain : wire.Plain keepsExtension) (front back : Bytes) :
    codec.view (front ++ (wire.write ++ back)) (ofWire front.length wire) = wire := by
  have split : front ++ (wire.write ++ back) =
      (front ++ wire.head) ++ (writeBlock wire.extensions ++ back) := by
    simp only [ServerHelloWire.write, List.append_assoc]
  have shown := map_keptOf_plain Extension.shows Extension.sees plain (front ++ wire.head) back
  rw [← split, List.length_append] at shown
  obtain ⟨version, random, sessionId, suite, method, block⟩ := wire
  cases block with
  | none => rfl
  | some extensions =>
      have kept : (ofWire front.length ⟨version, random, sessionId, suite, method,
          some extensions⟩).extensions = some (keptOf Extension.ofTagged
            (fun ext => ext.extensionType.isSupported) _ (some extensions)) :=
        keptSome_of_ne_nil (plain extensions rfl).1
      unfold codec
      simp only [kept, Option.map_some]
      rw [shown]
      rfl

/-- What stands in the ServerHellos that are accepted. -/
def Accepted (wire : ServerHelloWire) : Prop :=
  wire.Fits ∧ Extension.Admits 5 (keptOf Extension.ofTagged
    (fun ext => ext.extensionType.isSupported) 0 wire.extensions)

theorem reads (offset : Nat) (x : Bytes) (hello : ServerHello) :
    codec.parse offset x = .ok (hello, []) ↔
      ∃ wire, Accepted wire ∧ hello = ofWire offset wire ∧ x = grammar.write wire := by
  refine parse_iff.trans ?_
  constructor
  · rintro ⟨wire, fits, _, rfl, rfl, admits⟩
    refine ⟨wire, ⟨fits, ?_⟩, rfl, List.append_nil _⟩
    exact Extension.admits_keptOf.mpr (Extension.admits_keptOf.mp admits)
  · rintro ⟨wire, ⟨fits, admits⟩, rfl, rfl⟩
    refine ⟨wire, fits, fun _ => rfl, (List.append_nil _).symm, rfl, ?_⟩
    exact Extension.admits_keptOf.mpr (Extension.admits_keptOf.mp admits)

/-- The ServerHello codec. -/
theorem inverse :
    codec.Inverse grammar (ServerHelloWire.Holds keepsExtension 5)
      (ServerHelloWire.Plain keepsExtension) := by
  apply Codec.inverse reads serialize_eq
  · exact fun front wire back _ plain => shows plain front back
  · exact fun wire accepted => accepted.1
  · intro wire holds
    exact ⟨⟨holds.fits, Extension.admits_of_plain holds.plain holds.extensions holds.capacity⟩,
      holds.plain⟩

end ServerHello

namespace Certificate

/-- What an entry says. -/
def entryView (buf : Bytes) (entry : CertificateEntry) : EntryWire :=
  ⟨slice buf entry.cert, slice buf entry.extensionsRange⟩

theorem entry_shows : Shows entryView EntryWire.write entryOfWire := by
  intro front entry back
  have cert : slice (front ++ (entry.write ++ back))
      ⟨front.length + 3, front.length + 3 + entry.cert.length⟩ = entry.cert := by
    have split : front ++ (entry.write ++ back) = (front ++ be24 entry.cert.length) ++
        (entry.cert ++ (vector16 entry.extensions ++ back)) := by
      simp only [EntryWire.write, vector24, List.append_assoc]
    have length : (front ++ be24 entry.cert.length).length = front.length + 3 := by
      rw [List.length_append, length_be24]
    rw [split, ← length]
    exact slice_between _ _ _
  have extensions : slice (front ++ (entry.write ++ back))
      ⟨front.length + 3 + entry.cert.length + 2,
        front.length + 3 + entry.cert.length + 2 + entry.extensions.length⟩ = entry.extensions := by
    have split : front ++ (entry.write ++ back) =
        (front ++ (vector24 entry.cert ++ be16 entry.extensions.length)) ++
          (entry.extensions ++ back) := by
      simp only [EntryWire.write, vector16, List.append_assoc]
    have length : (front ++ (vector24 entry.cert ++ be16 entry.extensions.length)).length =
        front.length + 3 + entry.cert.length + 2 := by
      simp only [List.length_append, length_vector24, length_be16]
      omega
    rw [split, ← length]
    exact slice_between _ _ _
  unfold entryView entryOfWire
  rw [cert, extensions]

/-- The messages of the parser and the serializer. -/
def codec : Codec Certificate CertificateWire where
  parse := parse
  serialize := serialize
  view buf certificate :=
    ⟨slice buf certificate.contextRange, certificate.certificateList.map (entryView buf)⟩

/-- How Certificates are written. -/
def grammar : Grammar CertificateWire := ⟨CertificateWire.Fits, CertificateWire.write⟩

/-- A message that fits, with as many certificates as there is room for. -/
structure Holds (wire : CertificateWire) : Prop where
  fits : wire.Fits
  capacity : wire.entries.length ≤ 32

theorem serialize_eq (certificate : Certificate) (buf : Bytes) :
    certificate.serialize buf = (codec.view buf certificate).write := by
  have entries (all : List CertificateEntry) : (all.map (entryView buf)).flatMap EntryWire.write =
      all.flatMap fun entry => be24 (slice buf entry.cert).length ++ slice buf entry.cert ++
        be16 (slice buf entry.extensionsRange).length ++ slice buf entry.extensionsRange := by
    rw [List.flatMap_map]
    apply List.flatMap_congr
    intro entry _
    simp only [EntryWire.write, entryView, vector24, vector16, List.append_assoc]
  have length (all : List CertificateEntry) :
      ((all.map (entryView buf)).flatMap EntryWire.write).length = (all.map fun entry =>
        5 + (slice buf entry.cert).length + (slice buf entry.extensionsRange).length).sum := by
    rw [List.length_flatMap, List.map_map]
    congr 1
    apply List.map_congr_left
    intro entry _
    simp only [EntryWire.write, entryView, Function.comp, List.length_append, length_vector24,
      length_vector16]
    omega
  simp only [serialize, codec, CertificateWire.write, vector8, vector24, length]
  simp only [entries, List.append_assoc, List.cons_append]

theorem shows (wire : CertificateWire) (front back : Bytes) :
    codec.view (front ++ (wire.write ++ back)) (ofWire front.length wire) = wire := by
  have context : slice (front ++ (wire.write ++ back))
      ⟨front.length + 1, front.length + 1 + wire.context.length⟩ = wire.context := by
    have split : front ++ (wire.write ++ back) = (front ++ [UInt8.ofNat wire.context.length]) ++
        (wire.context ++ (vector24 (wire.entries.flatMap EntryWire.write) ++ back)) := by
      simp only [CertificateWire.write, vector8, List.append_assoc, List.cons_append,
        List.nil_append]
    have length : (front ++ [UInt8.ofNat wire.context.length]).length = front.length + 1 := by
      rw [List.length_append, List.length_singleton]
    rw [split, ← length]
    exact slice_between _ _ _
  have entries : (place entryOfWire EntryWire.write (front.length + (4 + wire.context.length))
      wire.entries).map (entryView (front ++ (wire.write ++ back))) = wire.entries := by
    have split : front ++ (wire.write ++ back) = (front ++ (vector8 wire.context ++
        be24 (wire.entries.flatMap EntryWire.write).length)) ++
          (wire.entries.flatMap EntryWire.write ++ back) := by
      simp only [CertificateWire.write, vector24, List.append_assoc]
    have length : (front ++ (vector8 wire.context ++
        be24 (wire.entries.flatMap EntryWire.write).length)).length =
        front.length + (4 + wire.context.length) := by
      simp only [List.length_append, length_vector8, length_be24]
      omega
    rw [split, ← length]
    exact map_place entry_shows _ _ _
  unfold codec ofWire
  simp only [context, entries]

/-- The Certificate codec. -/
theorem inverse : codec.Inverse grammar Holds fun _ => True := by
  refine Codec.inverse (fun offset x certificate => ?_) serialize_eq
    (fun front wire back _ _ => shows wire front back) (fun wire (accepted : Holds wire) => accepted.fits)
    (fun wire holds => ⟨holds, trivial⟩)
  refine parse_iff.trans ?_
  constructor
  · rintro ⟨wire, fits, few, rfl, rfl⟩
    exact ⟨wire, ⟨fits, few⟩, rfl, List.append_nil _⟩
  · rintro ⟨wire, ⟨fits, few⟩, rfl, rfl⟩
    exact ⟨wire, fits, few, (List.append_nil _).symm, rfl⟩

end Certificate

/-- The extension container. -/
def Extension.codec : Codec Extension Tagged where
  parse := Extension.parse
  serialize := Extension.serialize
  view := Extension.view

theorem Extension.inverse : codec.Inverse Tagged.grammar Tagged.Fits fun _ => True := by
  apply Tagged.inverse _ Extension.serialize_eq Extension.shows
  intro offset x ext
  rw [show codec.parse offset x = Extension.parse offset x from rfl, Extension.readsAt]
  simp only [List.append_nil]

namespace KeyShareEntry

/-- What a key share says. -/
def view (buf : Bytes) (entry : KeyShareEntry) : Tagged := ⟨entry.group.asU16, entry.keyExchange buf⟩

theorem shows : Shows view Tagged.write ofTagged := by
  intro front tagged back
  exact congrArg (Tagged.mk tagged.tag) (Tagged.slice_data front tagged back)

theorem serialize_eq (entry : KeyShareEntry) (buf : Bytes) :
    entry.serialize buf = (entry.view buf).write := by
  simp only [serialize, Tagged.write, vector16, view, List.append_assoc]

/-- The share of a ServerHello. -/
def codec : Codec KeyShareEntry Tagged where
  parse := parseKeyShareServerHello
  serialize := serializeKeyShareServerHello
  view := view

theorem inverse : codec.Inverse Tagged.grammar Tagged.Fits fun _ => True := by
  apply Tagged.inverse _ serialize_eq shows
  intro offset x entry
  refine parseKeyShareServerHello_iff.trans ?_
  constructor
  · rintro ⟨_, share, fits, rfl, rfl⟩
    exact ⟨share, fits, rfl, rfl⟩
  · rintro ⟨share, fits, rfl, rfl⟩
    exact ⟨rfl, share, fits, rfl, rfl⟩

end KeyShareEntry

/-- Whether a group code point is kept. -/
def keepsGroup (code : Nat) : Bool := NamedGroup.isSupported ⟨code⟩

namespace KeyShares

/-- The shares of a ClientHello. -/
def codec : Codec (List KeyShareEntry) (List Tagged) where
  parse := parseKeyShareClientHello
  serialize := serializeKeyShareClientHello
  view buf entries := entries.map (KeyShareEntry.view buf)

/-- How the shares of a ClientHello are written. -/
def grammar : Grammar (List Tagged) where
  fits shares := (∀ share ∈ shares, share.Fits) ∧ (shares.flatMap Tagged.write).length < 65536
  write shares := vector16 (shares.flatMap Tagged.write)

/-- Only shares of supported groups. -/
def Plain (shares : List Tagged) : Prop := ∀ share ∈ shares, keepsGroup share.tag = true

/-- Shares that fit, of distinct and supported groups. -/
structure Holds (shares : List Tagged) : Prop where
  fits : grammar.fits shares
  plain : Plain shares
  distinct : (shares.map Tagged.tag).Nodup

theorem serialize_eq (entries : List KeyShareEntry) (buf : Bytes) :
    codec.serialize entries buf = grammar.write (codec.view buf entries) := by
  have written : (entries.map (KeyShareEntry.view buf)).flatMap Tagged.write =
      entries.flatMap fun entry => entry.serialize buf := by
    rw [List.flatMap_map]
    exact List.flatMap_congr fun entry _ => (entry.serialize_eq buf).symm
  have length : ((entries.map (KeyShareEntry.view buf)).flatMap Tagged.write).length =
      (entries.map fun entry => 4 + (entry.keyExchange buf).length).sum := by
    rw [Tagged.length_flatMap_write, List.map_map]
    rfl
  simp only [codec, grammar, serializeKeyShareClientHello, vector16, length]
  rw [written]

theorem length_kept (offset : Nat) (shares : List Tagged) :
    ((place KeyShareEntry.ofTagged Tagged.write offset shares).filter
      (fun entry => entry.group.isSupported)).length =
      (((shares.map Tagged.tag).map NamedGroup.mk).filter NamedGroup.isSupported).length := by
  have same : (fun entry : KeyShareEntry => entry.group.isSupported) =
      NamedGroup.isSupported ∘ fun entry => entry.group := rfl
  have groups : (place KeyShareEntry.ofTagged Tagged.write offset shares).map
      (fun entry => entry.group) = (shares.map Tagged.tag).map NamedGroup.mk := by
    rw [List.map_map]
    exact map_place_of _ _ fun _ _ => rfl
  rw [same, ← groups, List.filter_map, List.length_map]

/-- The entries that are kept show the shares of supported groups. -/
theorem shows_kept (shares : List Tagged) (front back : Bytes) :
    ((place KeyShareEntry.ofTagged Tagged.write (front.length + 2) shares).filter
      (fun entry => entry.group.isSupported)).map
      (KeyShareEntry.view (front ++ (grammar.write shares ++ back))) =
        shares.filter fun share => keepsGroup share.tag := by
  have split : front ++ (grammar.write shares ++ back) =
      (front ++ be16 (shares.flatMap Tagged.write).length) ++
        (shares.flatMap Tagged.write ++ back) := by
    simp only [grammar, vector16, List.append_assoc]
  have length : (front ++ be16 (shares.flatMap Tagged.write).length).length = front.length + 2 := by
    rw [List.length_append, length_be16]
  rw [split, ← length]
  exact map_filter_place KeyShareEntry.shows _ _ _ fun _ => rfl

theorem shows {shares : List Tagged} (plain : Plain shares) (front back : Bytes) :
    ((place KeyShareEntry.ofTagged Tagged.write (front.length + 2) shares).filter
      (fun entry => entry.group.isSupported)).map
      (KeyShareEntry.view (front ++ (grammar.write shares ++ back))) = shares := by
  rw [shows_kept]
  exact List.filter_eq_self.mpr plain

/-- What stands in the lists of shares that are accepted. -/
def Accepted (shares : List Tagged) : Prop :=
  grammar.fits shares ∧
    (((shares.map Tagged.tag).map NamedGroup.mk).filter NamedGroup.isSupported).length ≤ 4

theorem reads (offset : Nat) (x : Bytes) (entries : List KeyShareEntry) :
    codec.parse offset x = .ok (entries, []) ↔
      ∃ shares, Accepted shares ∧ entries = (place KeyShareEntry.ofTagged Tagged.write (offset + 2)
        shares).filter (fun entry => entry.group.isSupported) ∧ x = grammar.write shares := by
  refine parseKeyShareClientHello_iff.trans ?_
  constructor
  · rintro ⟨_, shares, fit, small, rfl, rfl, few⟩
    rw [length_kept] at few
    exact ⟨shares, ⟨⟨fit, small⟩, few⟩, rfl, rfl⟩
  · rintro ⟨shares, ⟨⟨fit, small⟩, few⟩, rfl, rfl⟩
    rw [← length_kept (offset + 2)] at few
    exact ⟨rfl, shares, fit, small, rfl, rfl, few⟩

/-- The codec of the shares of a ClientHello. -/
theorem inverse : codec.Inverse grammar Holds Plain := by
  apply Codec.inverse reads serialize_eq
  · exact fun front shares back _ plain => shows plain front back
  · exact fun shares accepted => accepted.1
  · intro shares holds
    refine ⟨⟨holds.fits, ?_⟩, holds.plain⟩
    exact length_made_le NamedGroup.asU16 (fun _ => rfl) (fun _ => rfl) holds.distinct

end KeyShares

/-- The group of a HelloRetryRequest. -/
def retryGroupCodec : Codec NamedGroup Nat where
  parse _ := parseKeyShareHelloRetryRequest
  serialize group _ := serializeKeyShareHelloRetryRequest group
  view _ group := group.asU16

theorem retryGroup_inverse : retryGroupCodec.Inverse codeGrammar (fun code => code < 65536)
    fun _ => True := by
  apply code_inverse _ (fun _ _ => rfl) (fun _ _ => rfl) (fun _ => rfl) (fun _ => rfl)
  · intro offset x group
    exact parseKeyShareHelloRetryRequest_iff.trans (and_iff_right rfl)

/-- The version of a ServerHello. -/
def selectedVersionCodec : Codec ProtocolVersion Nat where
  parse _ := parseSupportedVersionsServerHello
  serialize version _ := serializeSupportedVersionsServerHello version
  view _ version := version.asU16

theorem selectedVersion_inverse : selectedVersionCodec.Inverse codeGrammar (fun code => code < 65536)
    fun _ => True := by
  apply code_inverse _ (fun _ _ => rfl) (fun _ _ => rfl) (fun _ => rfl) (fun _ => rfl)
  · intro offset x version
    exact parseSupportedVersionsServerHello_iff.trans (and_iff_right rfl)

/-- The versions of a ClientHello. -/
def versionsCodec : Codec (List ProtocolVersion) (List Nat) where
  parse _ := parseSupportedVersionsClientHello
  serialize versions _ := serializeSupportedVersionsClientHello versions
  view _ versions := versions.map fun version => version.asU16

/-- Whether a version is a known one. -/
def keepsVersion (code : Nat) : Bool := !ProtocolVersion.isUnknown ⟨code⟩

theorem versions_inverse : versionsCodec.Inverse (codesGrammar 256 vector8)
    (CodesHold 256 (fun codes => codes ≠ []) keepsVersion)
    (fun codes => ∀ code ∈ codes, keepsVersion code = true) := by
  have known (version : ProtocolVersion) : (!version.isUnknown) =
      [ProtocolVersion.dtls10, .dtls12, .dtls13].contains version := Bool.not_not _
  apply codes_inverse _ _ (fun _ _ => rfl) (fun _ => rfl) known
  · intro offset x versions
    refine parseSupportedVersionsClientHello_iff.trans ?_
    constructor
    · rintro ⟨_, codes, fit, small, some, rfl, rfl, few⟩
      exact ⟨codes, ⟨⟨fit, small⟩, some, few⟩, rfl, rfl⟩
    · rintro ⟨codes, ⟨⟨fit, small⟩, some, few⟩, rfl, rfl⟩
      exact ⟨rfl, codes, fit, small, some, rfl, rfl, few⟩
  · intro versions buf
    have length : (writeCodes (versions.map fun version => version.asU16)).length =
        versions.length * 2 := by
      rw [length_writeCodes, List.length_map]
    have written : writeCodes (versions.map fun version => version.asU16) =
        versions.flatMap ProtocolVersion.serialize := List.flatMap_map _ _ _
    simp only [versionsCodec, codesGrammar, serializeSupportedVersionsClientHello, vector8, length]
    rw [written]

/-- The groups of either hello. -/
def groupsCodec : Codec (List NamedGroup) (List Nat) where
  parse _ := parseSupportedGroups
  serialize groups _ := serializeSupportedGroups groups
  view _ groups := groups.map fun group => group.asU16

theorem groups_inverse : groupsCodec.Inverse (codesGrammar 65536 vector16)
    (CodesHold 65536 (fun _ => True) keepsGroup)
    (fun codes => ∀ code ∈ codes, keepsGroup code = true) := by
  apply codes_inverse _ _ (fun _ _ => rfl) (fun _ => rfl) (fun _ => rfl)
  · intro offset x groups
    refine parseSupportedGroups_iff.trans ?_
    constructor
    · rintro ⟨_, codes, fit, small, _, rfl, rfl, few⟩
      exact ⟨codes, ⟨⟨fit, small⟩, trivial, few⟩, rfl, rfl⟩
    · rintro ⟨codes, ⟨⟨fit, small⟩, _, few⟩, rfl, rfl⟩
      exact ⟨rfl, codes, fit, small, decide_eq_true (by omega), rfl, rfl, few⟩
  · intro groups buf
    exact (vector16_codes NamedGroup.asU16 groups).symm

/-- The schemes of a ClientHello. -/
def schemesCodec : Codec (List SignatureScheme) (List Nat) where
  parse _ := parseSignatureAlgorithms
  serialize schemes _ := serializeSignatureAlgorithms schemes
  view _ schemes := schemes.map fun scheme => scheme.asU16

/-- Whether a scheme is kept. -/
def keepsScheme (code : Nat) : Bool := SignatureScheme.isSupported ⟨code⟩

theorem schemes_inverse : schemesCodec.Inverse (codesGrammar 65536 vector16)
    (CodesHold 65536 (fun codes => codes ≠ []) keepsScheme)
    (fun codes => ∀ code ∈ codes, keepsScheme code = true) := by
  apply codes_inverse _ _ (fun _ _ => rfl) (fun _ => rfl) (fun _ => rfl)
  · intro offset x schemes
    refine parseSignatureAlgorithms_iff.trans ?_
    constructor
    · rintro ⟨_, codes, fit, small, wanted, rfl, rfl, few⟩
      refine ⟨codes, ⟨⟨fit, small⟩, ?_, few⟩, rfl, rfl⟩
      rintro rfl
      exact (of_decide_eq_true wanted).1 rfl
    · rintro ⟨codes, ⟨⟨fit, small⟩, wanted, few⟩, rfl, rfl⟩
      have positive := List.length_pos_iff.mpr wanted
      exact ⟨rfl, codes, fit, small, decide_eq_true ⟨by omega, by omega⟩, rfl, rfl, few⟩
  · intro schemes buf
    exact (vector16_codes SignatureScheme.asU16 schemes).symm

/-- The codecs of the hellos, the Certificate, the extension container and the extensions are inverse
to each other, wherever in its buffer a message stands. -/
theorem codecs_inverse :
    (∀ allowUnknownSuites, (ClientHello.codec allowUnknownSuites).Inverse ClientHello.grammar
      (HelloWire.Holds keepsSuite keepsExtension) (HelloWire.Plain keepsSuite keepsExtension)) ∧
    ServerHello.codec.Inverse ServerHello.grammar (ServerHelloWire.Holds keepsExtension 5)
      (ServerHelloWire.Plain keepsExtension) ∧
    Certificate.codec.Inverse Certificate.grammar Certificate.Holds (fun _ => True) ∧
    Extension.codec.Inverse Tagged.grammar Tagged.Fits (fun _ => True) ∧
    KeyShares.codec.Inverse KeyShares.grammar KeyShares.Holds KeyShares.Plain ∧
    KeyShareEntry.codec.Inverse Tagged.grammar Tagged.Fits (fun _ => True) ∧
    retryGroupCodec.Inverse codeGrammar (fun code => code < 65536) (fun _ => True) ∧
    groupsCodec.Inverse (codesGrammar 65536 vector16) (CodesHold 65536 (fun _ => True) keepsGroup)
      (fun codes => ∀ code ∈ codes, keepsGroup code = true) ∧
    versionsCodec.Inverse (codesGrammar 256 vector8)
      (CodesHold 256 (fun codes => codes ≠ []) keepsVersion)
      (fun codes => ∀ code ∈ codes, keepsVersion code = true) ∧
    selectedVersionCodec.Inverse codeGrammar (fun code => code < 65536) (fun _ => True) ∧
    schemesCodec.Inverse (codesGrammar 65536 vector16)
      (CodesHold 65536 (fun codes => codes ≠ []) keepsScheme)
      (fun codes => ∀ code ∈ codes, keepsScheme code = true) ∧
    UseSrtpExtension.codec.Inverse SrtpWire.grammar SrtpWire.Holds SrtpWire.Plain :=
  ⟨ClientHello.inverse, ServerHello.inverse, Certificate.inverse, Extension.inverse,
    KeyShares.inverse, KeyShareEntry.inverse, retryGroup_inverse, groups_inverse, versions_inverse,
    selectedVersion_inverse, schemes_inverse, UseSrtpExtension.inverse⟩

end Dimpl.Dtls13
