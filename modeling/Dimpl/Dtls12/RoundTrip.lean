import Dimpl.Dtls12.Codec

/-!
# The DTLS 1.2 codecs are inverse to each other

What is written of a message is read as the same message, and what is read of bytes that only say
supported things is written as the same bytes. A record is read back only when its version and its
content type are such as its epoch may have.
-/

namespace Dimpl.Dtls12

open Nom

/-- Whether an extension code point is kept. -/
def keepsExtension (tag : Nat) : Bool := ExtensionType.isSupported ⟨tag⟩

/-- Whether a suite code point is kept. -/
def keepsSuite (code : Nat) : Bool := Dtls12CipherSuite.isSupported ⟨code⟩

namespace Extension

/-- What an extension says. -/
def view (buf : Bytes) (ext : Extension) : Tagged := ⟨ext.extensionType.asU16, ext.extensionData buf⟩

theorem shows : Shows view Tagged.write ofTagged := by
  intro front tagged back
  exact congrArg (Tagged.mk tagged.tag) (Tagged.slice_data front tagged back)

theorem serialize_eq (ext : Extension) (buf : Bytes) : ext.serialize buf = (ext.view buf).write := by
  simp only [serialize, Tagged.write, vector16, view, List.append_assoc]

theorem serializeAll_eq (extensions : List Extension) (buf : Bytes) :
    serializeAll extensions buf = writeBlock (some (extensions.map (view buf))) :=
  writeBlock_map extensions (fun _ => rfl) fun ext => ext.serialize_eq buf

theorem sees (buf : Bytes) (ext : Extension) :
    ext.extensionType.isSupported = keepsExtension (ext.view buf).tag :=
  rfl

/-- What the extensions of a block are admitted for does not depend on where it stands. -/
theorem admits_keptOf {base : Nat} {block : Option (List Tagged)} :
    Admits (keptOf ofTagged (fun ext => ext.extensionType.isSupported) base block) ↔
      (keptTags keepsExtension block).Nodup ∧
        (keptTags keepsExtension block).length ≤ ExtensionType.supported.length := by
  have injective : Function.Injective ExtensionType.asU16 := by
    rintro ⟨first⟩ ⟨second⟩ rfl
    rfl
  apply distinct_keptOf injective
  · intro offset tagged
    rfl
  · intro ext
    rfl

theorem admits_of_plain {block : Option (List Tagged)} {base : Nat}
    (plain : BlockPlain keepsExtension block) (distinct : BlockDistinct block) :
    Admits (keptOf ofTagged (fun ext => ext.extensionType.isSupported) base block) := by
  rw [admits_keptOf, plain.keptTags, List.length_map]
  exact ⟨distinct, plain.length_le ExtensionType.asU16 (fun _ => rfl) (fun _ => rfl) distinct⟩

end Extension

namespace ClientHello

/-- The messages of the parser and the serializer. -/
def codec : Codec ClientHello HelloWire where
  parse := parse
  serialize := serialize
  view buf hello :=
    { version := hello.clientVersion.asU16
      random := hello.random.bytes
      sessionId := hello.sessionId
      cookie := hello.cookie
      suites := hello.cipherSuites.map fun suite => suite.asU16
      methods := hello.compressionMethods.map fun method => method.asU8
      extensions := viewBlock Extension.view buf hello.extensions }

/-- How ClientHellos are written. -/
def grammar : Grammar HelloWire := ⟨HelloWire.Fits, HelloWire.write⟩

theorem serialize_eq (hello : ClientHello) (buf : Bytes) :
    hello.serialize buf = (codec.view buf hello).write := by
  have block : writeBlock (viewBlock Extension.view buf hello.extensions) =
      if hello.extensions.isEmpty then [] else Extension.serializeAll hello.extensions buf := by
    unfold viewBlock
    split
    · rfl
    · exact (Extension.serializeAll_eq hello.extensions buf).symm
  simp only [serialize, codec, HelloWire.write, HelloWire.head, vector16_codes, vector8, block,
    List.length_map, List.append_assoc, List.cons_append]

theorem shows {wire : HelloWire} (plain : wire.Plain keepsSuite keepsExtension)
    (front back : Bytes) :
    codec.view (front ++ (wire.write ++ back)) (ofWire front.length wire) = wire := by
  have suites : ((wire.suites.map Dtls12CipherSuite.mk).filter Dtls12CipherSuite.isSupported).map
      (fun suite => suite.asU16) = wire.suites := map_filter_made (fun _ => rfl) plain.suites
  have methods : ((wire.methods.map CompressionMethod.mk).filter CompressionMethod.isSupported).map
      (fun method => method.asU8) = wire.methods := map_filter_made (fun _ => rfl) plain.methods
  have split : front ++ (wire.write ++ back) =
      (front ++ wire.head) ++ (writeBlock wire.extensions ++ back) := by
    simp only [HelloWire.write, List.append_assoc]
  have extensions := viewBlock_plain Extension.shows Extension.sees plain.extensions
    (front ++ wire.head) back
  rw [← split, List.length_append] at extensions
  unfold codec ofWire
  simp only [suites, methods, extensions]

theorem accepts {wire : HelloWire} {base : Nat} (holds : wire.Holds keepsSuite keepsExtension) :
    (ofWire base wire).Admits where
  suites := length_made_le Dtls12CipherSuite.asU16 (fun _ => rfl) (fun _ => rfl) holds.suites
  someSuite := filter_made_ne_nil holds.plain.suites holds.someSuite
  methods := length_made_le CompressionMethod.asU8 (fun _ => rfl) (fun _ => rfl) holds.methods
  someMethod := filter_made_ne_nil holds.plain.methods holds.someMethod
  extensions := Extension.admits_of_plain holds.plain.extensions holds.extensions

theorem admits_base {wire : HelloWire} {base base' : Nat} (admits : (ofWire base wire).Admits) :
    (ofWire base' wire).Admits where
  suites := admits.suites
  someSuite := admits.someSuite
  methods := admits.methods
  someMethod := admits.someMethod
  extensions := Extension.admits_keptOf.mpr (Extension.admits_keptOf.mp admits.extensions)

/-- What stands in the ClientHellos that are accepted. -/
def Accepted (wire : HelloWire) : Prop := wire.Fits ∧ (ofWire 0 wire).Admits

theorem reads (offset : Nat) (x : Bytes) (hello : ClientHello) :
    codec.parse offset x = .ok (hello, []) ↔
      ∃ wire, Accepted wire ∧ hello = ofWire offset wire ∧ x = grammar.write wire := by
  refine parse_iff.trans ?_
  constructor
  · rintro ⟨wire, fits, _, rfl, rfl, admits⟩
    exact ⟨wire, ⟨fits, admits_base admits⟩, rfl, List.append_nil _⟩
  · rintro ⟨wire, ⟨fits, admits⟩, rfl, rfl⟩
    exact ⟨wire, fits, fun _ => rfl, (List.append_nil _).symm, rfl, admits_base admits⟩

/-- The ClientHello codec. -/
theorem inverse :
    codec.Inverse grammar (HelloWire.Holds keepsSuite keepsExtension)
      (HelloWire.Plain keepsSuite keepsExtension) := by
  apply Codec.inverse reads serialize_eq
  · exact fun front wire back _ plain => shows plain front back
  · exact fun wire accepted => accepted.1
  · exact fun wire holds => ⟨⟨holds.fits, accepts holds⟩, holds.plain⟩

end ClientHello

namespace ServerHello

/-- The messages of the parser and the serializer. -/
def codec : Codec ServerHello ServerHelloWire where
  parse := parse
  serialize := serialize
  view buf hello :=
    { version := hello.serverVersion.asU16
      random := hello.random.bytes
      sessionId := hello.sessionId
      suite := hello.cipherSuite.asU16
      method := hello.compressionMethod.asU8
      extensions := hello.extensions.map fun extensions => extensions.map (Extension.view buf) }

/-- How ServerHellos are written. -/
def grammar : Grammar ServerHelloWire := ⟨ServerHelloWire.Fits, ServerHelloWire.write⟩

theorem serialize_eq (hello : ServerHello) (buf : Bytes) :
    hello.serialize buf = (codec.view buf hello).write := by
  cases isBlock : hello.extensions with
  | none =>
      simp only [serialize, codec, ServerHelloWire.write, ServerHelloWire.head, vector8, isBlock,
        Option.map_none, writeBlock, List.append_assoc, List.cons_append, List.nil_append]
  | some extensions =>
      simp only [serialize, codec, ServerHelloWire.write, ServerHelloWire.head, vector8, isBlock,
        Option.map_some, Extension.serializeAll_eq, List.append_assoc, List.cons_append]

theorem shows {wire : ServerHelloWire} (plain : wire.Plain keepsExtension) (front back : Bytes) :
    codec.view (front ++ (wire.write ++ back)) (ofWire front.length wire) = wire := by
  have split : front ++ (wire.write ++ back) =
      (front ++ wire.head) ++ (writeBlock wire.extensions ++ back) := by
    simp only [ServerHelloWire.write, List.append_assoc]
  have shown := map_keptOf_plain Extension.shows Extension.sees plain (front ++ wire.head) back
  rw [← split, List.length_append] at shown
  obtain ⟨version, random, sessionId, suite, method, block⟩ := wire
  cases block with
  | none => rfl
  | some extensions =>
      have kept : (ofWire front.length ⟨version, random, sessionId, suite, method,
          some extensions⟩).extensions = some (keptOf Extension.ofTagged
            (fun ext => ext.extensionType.isSupported) _ (some extensions)) :=
        keptSome_of_ne_nil (plain extensions rfl).1
      unfold codec
      simp only [kept, Option.map_some]
      rw [shown]
      rfl

/-- What stands in the ServerHellos that are accepted. -/
def Accepted (wire : ServerHelloWire) : Prop :=
  wire.Fits ∧ Extension.Admits (keptOf Extension.ofTagged
    (fun ext => ext.extensionType.isSupported) 0 wire.extensions)

theorem reads (offset : Nat) (x : Bytes) (hello : ServerHello) :
    codec.parse offset x = .ok (hello, []) ↔
      ∃ wire, Accepted wire ∧ hello = ofWire offset wire ∧ x = grammar.write wire := by
  refine parse_iff.trans ?_
  constructor
  · rintro ⟨wire, fits, _, rfl, rfl, admits⟩
    refine ⟨wire, ⟨fits, ?_⟩, rfl, List.append_nil _⟩
    exact Extension.admits_keptOf.mpr (Extension.admits_keptOf.mp admits)
  · rintro ⟨wire, ⟨fits, admits⟩, rfl, rfl⟩
    refine ⟨wire, fits, fun _ => rfl, (List.append_nil _).symm, rfl, ?_⟩
    exact Extension.admits_keptOf.mpr (Extension.admits_keptOf.mp admits)

/-- The ServerHello codec. -/
theorem inverse :
    codec.Inverse grammar (ServerHelloWire.Holds keepsExtension 8)
      (ServerHelloWire.Plain keepsExtension) := by
  apply Codec.inverse reads serialize_eq
  · exact fun front wire back _ plain => shows plain front back
  · exact fun wire accepted => accepted.1
  · intro wire holds
    exact ⟨⟨holds.fits, Extension.admits_of_plain holds.plain holds.extensions⟩, holds.plain⟩

end ServerHello

/-- The certificates of a Certificate. -/
def certificateCodec : Codec (List Range) (List Bytes) where
  parse := parseCertificate
  serialize := serializeCertificateList
  view buf ranges := ranges.map (slice buf)

/-- Certificates that fit, as many as there is room for. -/
structure CertificatesHold (certificates : List Bytes) : Prop where
  fits : certificatesGrammar.fits certificates
  capacity : certificates.length ≤ 32

theorem certificate_inverse :
    certificateCodec.Inverse certificatesGrammar CertificatesHold fun _ => True := by
  have reads (offset : Nat) (x : Bytes) (ranges : List Range) :
      certificateCodec.parse offset x = .ok (ranges, []) ↔
        ∃ certificates, CertificatesHold certificates ∧
          ranges = place (fun offset data => ⟨offset + 3, offset + 3 + data.length⟩) vector24
            (offset + 3) certificates ∧ x = certificatesGrammar.write certificates := by
    refine parseCertificate_iff.trans ?_
    constructor
    · rintro ⟨certificates, fits, few, rfl, rfl⟩
      exact ⟨certificates, ⟨fits, few⟩, rfl, List.append_nil _⟩
    · rintro ⟨certificates, ⟨fits, few⟩, rfl, rfl⟩
      exact ⟨certificates, fits, few, (List.append_nil _).symm, rfl⟩
  apply Codec.inverse reads
  · intro ranges buf
    have length : ((ranges.map (slice buf)).flatMap vector24).length =
        ((ranges.map (slice buf)).map fun cert => 3 + cert.length).sum := by
      rw [List.length_flatMap]
      congr 1
      exact List.map_congr_left fun cert _ => length_vector24 cert
    simp only [certificateCodec, certificatesGrammar, serializeCertificateList, serializeCertificate]
    rw [vector24, length]
    rfl
  · intro front certificates back _ _
    have split : front ++ (certificatesGrammar.write certificates ++ back) =
        (front ++ be24 (certificates.flatMap vector24).length) ++
          (certificates.flatMap vector24 ++ back) := by
      simp only [certificatesGrammar]
      rw [vector24]
      simp only [List.append_assoc]
    have length : (front ++ be24 (certificates.flatMap vector24).length).length =
        front.length + 3 := by
      rw [List.length_append, length_be24]
    have shows : Shows slice vector24
        (fun offset data => ⟨offset + 3, offset + 3 + data.length⟩) := slice_vector24
    rw [split, ← length]
    exact map_place shows _ _ _
  · exact fun certificates accepted => accepted.fits
  · exact fun certificates holds => ⟨holds, trivial⟩

namespace DigitallySigned

/-- What a signature says. -/
def view (buf : Bytes) (signed : DigitallySigned) : Tagged :=
  ⟨signed.algorithm.asU16, signed.signature buf⟩

theorem serialize_eq (signed : DigitallySigned) (buf : Bytes) :
    signed.serialize buf = (signed.view buf).write := by
  simp only [serialize, serializeBytes, Tagged.write, vector16, view, List.append_assoc]

theorem shows {signed : Tagged} (fits : signed.Fits) (front back : Bytes) :
    view (front ++ (signed.write ++ back)) (ofTagged front.length signed) = signed := by
  have tag : (ofTagged front.length signed).algorithm.asU16 = signed.tag :=
    SignatureAndHashAlgorithm.asU16_ofU16 fits.1
  rw [view, tag]
  exact congrArg (Tagged.mk signed.tag) (Tagged.slice_data front signed back)

end DigitallySigned

namespace ServerKeyExchange

/-- The messages for an algorithm, with their signatures. -/
def codec (algorithm : KeyExchangeAlgorithm) : Codec ServerKeyExchange ExchangeWire where
  parse base := parse base algorithm
  serialize exchange buf := exchange.serialize buf true
  view buf exchange :=
    match exchange with
    | .ecdh params =>
        .ecdh params.curveType params.namedGroup.asU16 (params.publicKey buf)
          (params.signature.map (DigitallySigned.view buf))
    | .psk hintRange => .psk (slice buf hintRange)

/-- How ServerKeyExchanges are written. -/
def grammar : Grammar ExchangeWire := ⟨ExchangeWire.Fits, ExchangeWire.write⟩

/-- A message of the algorithm that fits. -/
structure Holds (algorithm : KeyExchangeAlgorithm) (wire : ExchangeWire) : Prop where
  fits : wire.Fits
  isFor : exchangeAlgorithm wire = algorithm

theorem serialize_eq (algorithm : KeyExchangeAlgorithm) (exchange : ServerKeyExchange) (buf : Bytes) :
    exchange.serialize buf true = ((codec algorithm).view buf exchange).write := by
  cases exchange with
  | ecdh params =>
      cases isSigned : params.signature with
      | none =>
          simp only [serialize, EcdhParams.serialize, EcdhParams.serializeBytes, codec, isSigned,
            if_true, Option.map_none, ExchangeWire.write, ExchangeWire.writeSignature, vector8,
            List.append_assoc, List.cons_append]
      | some signed =>
          simp only [serialize, EcdhParams.serialize, EcdhParams.serializeBytes, codec, isSigned,
            if_true, Option.map_some, ExchangeWire.write, ExchangeWire.writeSignature, vector8,
            DigitallySigned.serialize_eq, List.append_assoc, List.cons_append]
  | psk hintRange => rfl

theorem shows (algorithm : KeyExchangeAlgorithm) {wire : ExchangeWire} (fits : wire.Fits)
    (front back : Bytes) :
    (codec algorithm).view (front ++ (wire.write ++ back)) (ofWire front.length wire) = wire := by
  cases wire with
  | psk hint => exact congrArg ExchangeWire.psk (slice_vector16 front hint back)
  | ecdh curveType group publicKey signature =>
      have key : slice (front ++ ((ExchangeWire.ecdh curveType group publicKey signature).write ++ back))
          ⟨front.length + 4, front.length + 4 + publicKey.length⟩ = publicKey := by
        have split : front ++ ((ExchangeWire.ecdh curveType group publicKey signature).write ++ back) =
            (front ++ (curveType :: be16 group)) ++ (vector8 publicKey ++
              (ExchangeWire.writeSignature signature ++ back)) := by
          simp only [ExchangeWire.write, List.append_assoc, List.cons_append]
        have shown := slice_vector8 (front ++ (curveType :: be16 group)) publicKey
          (ExchangeWire.writeSignature signature ++ back)
        rw [List.length_append, List.length_cons, length_be16] at shown
        rw [split]
        exact shown
      have signed : (signature.map (DigitallySigned.ofTagged
          (front.length + (4 + publicKey.length)))).map (DigitallySigned.view (front ++
            ((ExchangeWire.ecdh curveType group publicKey signature).write ++ back))) = signature := by
        cases signature with
        | none => rfl
        | some signed =>
            have split : front ++ ((ExchangeWire.ecdh curveType group publicKey
                (some signed)).write ++ back) =
                (front ++ (curveType :: (be16 group ++ vector8 publicKey))) ++
                  (signed.write ++ back) := by
              simp only [ExchangeWire.write, ExchangeWire.writeSignature, List.append_assoc,
                List.cons_append]
            have shown := DigitallySigned.shows (fits.2.2 signed rfl)
              (front ++ (curveType :: (be16 group ++ vector8 publicKey))) back
            have length : (front ++ (curveType :: (be16 group ++ vector8 publicKey))).length =
                front.length + (4 + publicKey.length) := by
              simp only [List.length_append, List.length_cons, length_be16, length_vector8]
              omega
            rw [split, Option.map_some, Option.map_some, ← length, shown]
      simp only [codec, ofWire, EcdhParams.ofWire, EcdhParams.publicKey]
      rw [key, signed]

/-- The ServerKeyExchange codec of an algorithm. -/
theorem inverse (algorithm : KeyExchangeAlgorithm) :
    (codec algorithm).Inverse grammar (Holds algorithm) fun _ => True := by
  have reads (offset : Nat) (x : Bytes) (exchange : ServerKeyExchange) :
      (codec algorithm).parse offset x = .ok (exchange, []) ↔
        ∃ wire, Holds algorithm wire ∧ exchange = ofWire offset wire ∧ x = grammar.write wire := by
    refine parse_iff.trans ?_
    constructor
    · rintro ⟨wire, fits, isFor, _, rfl, rfl⟩
      exact ⟨wire, ⟨fits, isFor⟩, rfl, List.append_nil _⟩
    · rintro ⟨wire, ⟨fits, isFor⟩, rfl, rfl⟩
      exact ⟨wire, fits, isFor, fun _ => rfl, (List.append_nil _).symm, rfl⟩
  apply Codec.inverse reads (serialize_eq algorithm)
  · exact fun front wire back accepted _ => shows algorithm accepted.fits front back
  · exact fun wire accepted => accepted.fits
  · exact fun wire holds => ⟨holds, trivial⟩

end ServerKeyExchange

namespace ClientKeyExchange

/-- The messages for an algorithm. -/
def codec (algorithm : KeyExchangeAlgorithm) : Codec ClientKeyExchange ClientKeyWire where
  parse base := parse base algorithm
  serialize := serialize
  view buf exchange :=
    match exchange with
    | .ecdh publicKeyRange => .ecdh (slice buf publicKeyRange)
    | .psk identityRange => .psk (slice buf identityRange)

/-- How ClientKeyExchanges are written. -/
def grammar : Grammar ClientKeyWire := ⟨ClientKeyWire.Fits, ClientKeyWire.write⟩

/-- A message of the algorithm that fits. -/
structure Holds (algorithm : KeyExchangeAlgorithm) (wire : ClientKeyWire) : Prop where
  fits : wire.Fits
  isFor : clientKeyAlgorithm wire = algorithm

/-- The ClientKeyExchange codec of an algorithm. -/
theorem inverse (algorithm : KeyExchangeAlgorithm) :
    (codec algorithm).Inverse grammar (Holds algorithm) fun _ => True := by
  have reads (offset : Nat) (x : Bytes) (exchange : ClientKeyExchange) :
      (codec algorithm).parse offset x = .ok (exchange, []) ↔
        ∃ wire, Holds algorithm wire ∧ exchange = ofWire offset wire ∧ x = grammar.write wire := by
    refine parse_iff.trans ?_
    constructor
    · rintro ⟨wire, fits, isFor, rfl, rfl⟩
      exact ⟨wire, ⟨fits, isFor⟩, rfl, List.append_nil _⟩
    · rintro ⟨wire, ⟨fits, isFor⟩, rfl, rfl⟩
      exact ⟨wire, fits, isFor, (List.append_nil _).symm, rfl⟩
  apply Codec.inverse reads
  · intro exchange buf
    cases exchange with
    | ecdh publicKeyRange => rfl
    | psk identityRange => rfl
  · intro front wire back _ _
    cases wire with
    | ecdh publicKey => exact congrArg ClientKeyWire.ecdh (slice_vector8 front publicKey back)
    | psk identity => exact congrArg ClientKeyWire.psk (slice_vector16 front identity back)
  · exact fun wire accepted => accepted.fits
  · exact fun wire holds => ⟨holds, trivial⟩

end ClientKeyExchange

/-- Whether a signature algorithm is kept. -/
def keepsAlgorithm (code : Nat) : Bool :=
  SignatureAndHashAlgorithm.isSupported (SignatureAndHashAlgorithm.ofU16 code)

namespace CertificateRequest

/-- The messages of the parser and the serializer. -/
def codec : Codec CertificateRequest RequestWire where
  parse := parse
  serialize := serialize
  view buf request :=
    { types := request.certificateTypes
      algorithms := request.supportedSignatureAlgorithms.map fun algorithm => algorithm.asU16
      authorities := request.certificateAuthorities.map (slice buf) }

/-- How CertificateRequests are written. -/
def grammar : Grammar RequestWire := ⟨RequestWire.Fits, RequestWire.write⟩

/-- Only supported certificate types and algorithms. -/
structure Plain (wire : RequestWire) : Prop where
  types : ∀ type ∈ wire.types, type = ecdsaSign
  algorithms : ∀ code ∈ wire.algorithms, keepsAlgorithm code = true

/-- A message that fits, with supported and distinct elements, a certificate type among them, and as
many authorities as there is room for. -/
structure Holds (wire : RequestWire) : Prop where
  fits : wire.Fits
  plain : Plain wire
  types : wire.types.Nodup
  someType : wire.types ≠ []
  algorithms : wire.algorithms.Nodup
  authorities : wire.authorities.length ≤ 32

theorem serialize_eq (request : CertificateRequest) (buf : Bytes) :
    request.serialize buf = (codec.view buf request).write := by
  have written : (request.certificateAuthorities.map (slice buf)).flatMap vector16 =
      request.certificateAuthorities.flatMap fun name =>
        be16 (slice buf name).length ++ slice buf name := List.flatMap_map _ _ _
  have length : ((request.certificateAuthorities.map (slice buf)).flatMap vector16).length =
      (request.certificateAuthorities.map fun name => 2 + (slice buf name).length).sum := by
    rw [List.length_flatMap, List.map_map]
    congr 1
    exact List.map_congr_left fun name _ => length_vector16 _
  have authorities : vector16 ((request.certificateAuthorities.map (slice buf)).flatMap vector16) =
      be16 ((request.certificateAuthorities.map fun name => 2 + (slice buf name).length).sum) ++
        request.certificateAuthorities.flatMap fun name =>
          be16 (slice buf name).length ++ slice buf name := by
    rw [vector16, length, written]
  simp only [serialize, codec, RequestWire.write, vector8, vector16_codes, authorities,
    List.append_assoc, List.cons_append]

/-- All types and algorithms of a plain message are kept. -/
theorem filter_types {wire : RequestWire} (plain : Plain wire) :
    wire.types.filter (fun type => type = ecdsaSign) = wire.types := by
  rw [List.filter_eq_self]
  exact fun type member => decide_eq_true (plain.types type member)

theorem filter_algorithms {wire : RequestWire} (plain : Plain wire) :
    (wire.algorithms.map SignatureAndHashAlgorithm.ofU16).filter
      SignatureAndHashAlgorithm.isSupported =
      wire.algorithms.map SignatureAndHashAlgorithm.ofU16 := by
  apply filter_made
  exact plain.algorithms

theorem shows {wire : RequestWire} (fits : wire.Fits) (plain : Plain wire) (front back : Bytes) :
    codec.view (front ++ (wire.write ++ back)) (ofWire front.length wire) = wire := by
  have algorithms : ((wire.algorithms.map SignatureAndHashAlgorithm.ofU16).filter
      SignatureAndHashAlgorithm.isSupported).map (fun algorithm => algorithm.asU16) =
      wire.algorithms := by
    rw [filter_algorithms plain, List.map_map]
    conv_rhs => rw [← List.map_id wire.algorithms]
    exact List.map_congr_left fun code member =>
      SignatureAndHashAlgorithm.asU16_ofU16 (fits.algorithm code member)
  have authorities : (place (fun offset data => (⟨offset + 2, offset + 2 + data.length⟩ : Range))
      vector16 (front.length + (5 + wire.types.length + wire.algorithms.length * 2))
      wire.authorities).map (slice (front ++ (wire.write ++ back))) = wire.authorities := by
    have split : front ++ (wire.write ++ back) = (front ++ (vector8 wire.types ++
        (vector16 (writeCodes wire.algorithms) ++
          be16 (wire.authorities.flatMap vector16).length))) ++
            (wire.authorities.flatMap vector16 ++ back) := by
      have names : vector16 (wire.authorities.flatMap vector16) =
          be16 (wire.authorities.flatMap vector16).length ++ wire.authorities.flatMap vector16 := rfl
      simp only [RequestWire.write, names, List.append_assoc]
    have length : (front ++ (vector8 wire.types ++ (vector16 (writeCodes wire.algorithms) ++
        be16 (wire.authorities.flatMap vector16).length))).length =
        front.length + (5 + wire.types.length + wire.algorithms.length * 2) := by
      simp only [List.length_append, length_vector8, length_vector16, length_writeCodes, length_be16]
      omega
    have shows : Shows slice vector16
        (fun offset data => ⟨offset + 2, offset + 2 + data.length⟩) := slice_vector16
    rw [split, ← length]
    exact map_place shows _ _ _
  simp only [codec, ofWire, filter_types plain, algorithms, authorities]

theorem accepts {wire : RequestWire} {base : Nat} (holds : Holds wire) :
    (ofWire base wire).Admits where
  types := by
    have members : wire.types ⊆ [ecdsaSign] := by
      intro type member
      rw [holds.plain.types type member]
      exact List.mem_cons_self
    simp only [ofWire, filter_types holds.plain]
    exact (holds.types.subperm members).length_le
  someType := by
    simp only [ofWire, filter_types holds.plain]
    exact holds.someType
  algorithms := by
    have members : wire.algorithms ⊆
        SignatureAndHashAlgorithm.supported.map fun algorithm => algorithm.asU16 := by
      intro code member
      have kept := holds.plain.algorithms code member
      rw [← SignatureAndHashAlgorithm.asU16_ofU16 (holds.fits.algorithm code member)]
      exact List.mem_map_of_mem (List.contains_iff_mem.mp kept)
    simp only [ofWire, filter_algorithms holds.plain, List.length_map]
    exact (holds.algorithms.subperm members).length_le
  authorities := by
    simp only [ofWire, length_place]
    exact holds.authorities

theorem admits_base {wire : RequestWire} {base base' : Nat} (admits : (ofWire base wire).Admits) :
    (ofWire base' wire).Admits where
  types := admits.types
  someType := admits.someType
  algorithms := admits.algorithms
  authorities := by
    have few := admits.authorities
    simp only [ofWire, length_place] at few ⊢
    exact few

/-- What stands in the CertificateRequests that are accepted. -/
def Accepted (wire : RequestWire) : Prop := wire.Fits ∧ (ofWire 0 wire).Admits

theorem reads (offset : Nat) (x : Bytes) (request : CertificateRequest) :
    codec.parse offset x = .ok (request, []) ↔
      ∃ wire, Accepted wire ∧ request = ofWire offset wire ∧ x = grammar.write wire := by
  refine parse_iff.trans ?_
  constructor
  · rintro ⟨wire, fits, rfl, rfl, admits⟩
    exact ⟨wire, ⟨fits, admits_base admits⟩, rfl, List.append_nil _⟩
  · rintro ⟨wire, ⟨fits, admits⟩, rfl, rfl⟩
    exact ⟨wire, fits, (List.append_nil _).symm, rfl, admits_base admits⟩

/-- The CertificateRequest codec. -/
theorem inverse : codec.Inverse grammar Holds Plain := by
  apply Codec.inverse reads serialize_eq
  · exact fun front wire back accepted plain => shows accepted.1 plain front back
  · exact fun wire accepted => accepted.1
  · exact fun wire holds => ⟨⟨holds.fits, accepts holds⟩, holds.plain⟩

end CertificateRequest

namespace DTLSRecord

/-- The records of the parser and the serializer, protected or not. -/
def codec : Codec DTLSRecord RecordWire where
  parse base := parse base 0
  serialize := serializeRecord
  view buf record :=
    { contentType := record.contentType.asU8
      version := record.version.asU16
      epoch := record.sequence.epoch
      sequenceNumber := record.sequence.sequenceNumber
      length := record.length
      fragment := record.fragment buf }

/-- How records are written. -/
def grammar : Grammar RecordWire := ⟨RecordWire.Fits, RecordWire.write⟩

/-- A record that fits, with a version and a content type that its epoch may have. -/
structure Holds (wire : RecordWire) : Prop where
  fits : wire.Fits
  allowed : wire.Allowed

theorem reads (offset : Nat) (x : Bytes) (record : DTLSRecord) :
    codec.parse offset x = .ok (record, []) ↔
      ∃ wire, Holds wire ∧ record = ofWire offset wire ∧ x = grammar.write wire := by
  refine parse_iff.trans ?_
  constructor
  · rintro ⟨wire, fits, allowed, rfl, rfl⟩
    exact ⟨wire, ⟨fits, allowed⟩, rfl, List.append_nil _⟩
  · rintro ⟨wire, ⟨fits, allowed⟩, rfl, rfl⟩
    exact ⟨wire, fits, allowed, (List.append_nil _).symm, rfl⟩

theorem serialize_eq (record : DTLSRecord) (buf : Bytes) :
    record.serializeRecord buf = (codec.view buf record).write := by
  simp only [serializeRecord, codec, RecordWire.write, ProtocolVersion.serialize, List.append_assoc,
    List.cons_append]

/-- The record codec. -/
theorem inverse : codec.Inverse grammar Holds fun _ => True := by
  apply Codec.inverse reads serialize_eq
  · intro front wire back holds _
    have split : front ++ (wire.write ++ back) = (front ++ (wire.contentType ::
        (be16 wire.version ++ (be16 wire.epoch ++ (be48 wire.sequenceNumber ++
          be16 wire.length))))) ++ (wire.fragment ++ back) := by
      simp only [RecordWire.write, List.append_assoc, List.cons_append]
    have length : (front ++ (wire.contentType :: (be16 wire.version ++ (be16 wire.epoch ++
        (be48 wire.sequenceNumber ++ be16 wire.length))))).length = front.length + 13 := by
      simp only [List.length_append, List.length_cons, length_be16, length_be48]
    have fragment : slice (front ++ (wire.write ++ back))
        ⟨front.length + 13, front.length + 13 + wire.length⟩ = wire.fragment := by
      rw [split, ← length, ← holds.fits.fragment]
      exact slice_between _ _ _
    simp only [codec, grammar, ofWire, DTLSRecord.fragment, fragment]
  · exact fun wire holds => holds.fits
  · exact fun wire holds => ⟨holds, trivial⟩

end DTLSRecord

/-- A record of another version is written but not read. -/
theorem not_record_inverse :
    ¬DTLSRecord.codec.Inverse DTLSRecord.grammar RecordWire.Fits fun _ => True := by
  intro inverse
  have fits : (DTLSRecord.codec.view [] ⟨.handshake, .dtls13, ⟨0, 0⟩, 0, ⟨0, 0⟩⟩).Fits :=
    ⟨by decide, by decide, by decide, by decide, rfl⟩
  obtain ⟨record, parsed, _⟩ := inverse.parse_serialize _ [] [] [] fits
  obtain ⟨wire, holds, _, written⟩ := (DTLSRecord.reads _ _ _).mp parsed
  -- The version stands in the second and third byte.
  have version := congrArg (fun bytes => bytes.getD 2 0) written
  rcases holds.allowed.version with isVersion | isVersion
  · simp only [DTLSRecord.grammar, RecordWire.write, isVersion] at version
    have same : (0xFC : UInt8) = 0xFF := version
    exact absurd same (by decide)
  · simp only [DTLSRecord.grammar, RecordWire.write, isVersion] at version
    have same : (0xFC : UInt8) = 0xFD := version
    exact absurd same (by decide)

/-- The codecs of the hellos, the key exchanges, the CertificateRequest, the Certificate and the record
header are inverse to each other, wherever in its buffer a message stands. -/
theorem codecs_inverse12 :
    ClientHello.codec.Inverse ClientHello.grammar (HelloWire.Holds keepsSuite keepsExtension)
      (HelloWire.Plain keepsSuite keepsExtension) ∧
    ServerHello.codec.Inverse ServerHello.grammar (ServerHelloWire.Holds keepsExtension 8)
      (ServerHelloWire.Plain keepsExtension) ∧
    (∀ algorithm, (ServerKeyExchange.codec algorithm).Inverse ServerKeyExchange.grammar
      (ServerKeyExchange.Holds algorithm) (fun _ => True)) ∧
    CertificateRequest.codec.Inverse CertificateRequest.grammar CertificateRequest.Holds
      CertificateRequest.Plain ∧
    (∀ algorithm, (ClientKeyExchange.codec algorithm).Inverse ClientKeyExchange.grammar
      (ClientKeyExchange.Holds algorithm) (fun _ => True)) ∧
    certificateCodec.Inverse certificatesGrammar CertificatesHold (fun _ => True) ∧
    DTLSRecord.codec.Inverse DTLSRecord.grammar DTLSRecord.Holds (fun _ => True) :=
  ⟨ClientHello.inverse, ServerHello.inverse, ServerKeyExchange.inverse, CertificateRequest.inverse,
    ClientKeyExchange.inverse, certificate_inverse, DTLSRecord.inverse⟩

end Dimpl.Dtls12
