import Dimpl.Dtls12.Record
import Dimpl.Wire.Messages

/-!
# What the DTLS 1.2 parsers read

For each message the inputs its parser accepts and what it keeps of them.
-/

namespace Dimpl.Dtls12

open Nom

namespace Extension

/-- The value of an extension. -/
def ofTagged (offset : Nat) (tagged : Tagged) : Extension :=
  ⟨⟨tagged.tag⟩, ⟨offset + 4, offset + 4 + tagged.data.length⟩⟩

theorem readsAt : ReadsAt parse Tagged.Fits Tagged.write ofTagged :=
  Tagged.readsAt (fun (code : Nat) (range : Range) => (⟨⟨code⟩, range⟩ : Extension)) readsAt_beU16

/-- The extensions that are kept are few and of different types. -/
def Admits (extensions : List Extension) : Prop :=
  (extensions.map fun ext => ext.extensionType).Nodup ∧
    extensions.length ≤ ExtensionType.supported.length

theorem collects : Collects push (fun ext => ext.extensionType.isSupported) Admits := by
  apply collects_distinct
  intro extensions ext
  unfold push
  cases ext.extensionType.isSupported with
  | true => rfl
  | false => rfl

theorem readsAll : ReadsExtensions parseAll ofTagged (fun ext => ext.extensionType.isSupported)
    Admits := by
  intro offset input result rest
  exact foldItems_collects_iff readsAt Tagged.write_ne_nil collects ⟨List.nodup_nil, Nat.zero_le _⟩

end Extension

theorem suite_parse_iff {suite : Dtls12CipherSuite} {input rest : Bytes} :
    Dtls12CipherSuite.parse input = .ok (suite, rest) ↔
      suite.asU16 < 65536 ∧ input = be16 suite.asU16 ++ rest :=
  code_iff (fun _ => rfl) (fun _ => rfl)

theorem suite_readsAt :
    ReadsAt (fun _ => Dtls12CipherSuite.parse) (fun code => code < 65536) be16
      (fun _ => Dtls12CipherSuite.mk) :=
  readsAt_code Dtls12CipherSuite.mk

namespace ClientHello

/-- What is kept of a ClientHello that starts at `base`. -/
def ofWire (base : Nat) (wire : HelloWire) : ClientHello where
  clientVersion := ⟨wire.version⟩
  random := ⟨wire.random⟩
  sessionId := wire.sessionId
  cookie := wire.cookie
  cipherSuites := (wire.suites.map Dtls12CipherSuite.mk).filter Dtls12CipherSuite.isSupported
  compressionMethods :=
    (wire.methods.map CompressionMethod.mk).filter CompressionMethod.isSupported
  extensions := keptOf Extension.ofTagged (fun ext => ext.extensionType.isSupported)
    (base + wire.head.length) wire.extensions

/-- What the parser wants of the elements it keeps. -/
structure Admits (hello : ClientHello) : Prop where
  suites : hello.cipherSuites.length ≤ 4
  someSuite : hello.cipherSuites ≠ []
  methods : hello.compressionMethods.length ≤ 1
  someMethod : hello.compressionMethods ≠ []
  extensions : Extension.Admits hello.extensions

theorem parseExtensions_iff {base : Nat} {input rest : Bytes} {result : List Extension} :
    parseExtensions base input = .ok (result, rest) ↔
      ∃ block, BlockFits block ∧ (block = none → rest = []) ∧ input = writeBlock block ++ rest ∧
        result = keptOf Extension.ofTagged (fun ext => ext.extensionType.isSupported) base block ∧
        Extension.Admits result :=
  openBlock_iff Extension.readsAll ⟨List.nodup_nil, Nat.zero_le _⟩

/-- The suites that are kept of a list that is read to its end. -/
theorem parseSuites_iff {input : Bytes} {suites : List Dtls12CipherSuite} :
    many1 Dtls12CipherSuite.parse Dtls12CipherSuite.isSupported 4 input = .ok (suites, []) ↔
      (∃ codes : List Nat, (∀ code ∈ codes, code < 65536) ∧ input = writeCodes codes ∧
        suites = (codes.map Dtls12CipherSuite.mk).filter Dtls12CipherSuite.isSupported ∧
        suites.length ≤ 4) ∧ suites ≠ [] :=
  many1_iff suite_readsAt be16_ne_nil

/-- Exactly the ClientHellos are accepted whose numbers and lengths fit and of which something is
kept. Anything may be left over behind a block of extensions. -/
theorem parse_iff {base : Nat} {input rest : Bytes} {hello : ClientHello} :
    parse base input = .ok (hello, rest) ↔
      ∃ wire : HelloWire, wire.Fits ∧ (wire.extensions = none → rest = []) ∧
        input = wire.write ++ rest ∧ hello = ofWire base wire ∧ hello.Admits := by
  unfold parse
  simp only [bind_iff, remaining_iff, Prod.exists, ProtocolVersion.parse_iff, Random.parse_iff,
    parseSessionId, parseCookie, parseVarArray_iff, beU16_iff, require_iff, take_iff, within_iff,
    beU8_iff, consumedFrom_iff, parseExtensions_iff, pure_iff, List.isEmpty_iff]
  constructor
  · rintro ⟨_, _, ⟨rfl, rfl⟩, ⟨version⟩, _, ⟨isVersion, rfl⟩, ⟨random⟩, _, ⟨isRandom, rfl⟩,
      sessionId, _, ⟨isSession, rfl⟩, cookie, _, ⟨isCookie, rfl⟩, lists⟩
    obtain ⟨_, _, ⟨small, rfl⟩, data, _, ⟨rfl, rfl⟩, suites, _, _, ⟨isSuites, rfl⟩, _, _, ⟨rfl, rfl⟩,
      lists⟩ := lists
    obtain ⟨count, _, rfl, methods, _, ⟨isCount, rfl⟩, kept, _, _, ⟨isKept, rfl⟩, _, _, ⟨rfl, rfl⟩,
      trailer⟩ := lists
    obtain ⟨_, _, ⟨rfl, rfl⟩, _, _, ⟨block, fits, ends, rfl, rfl, admitted⟩, rfl, rfl⟩ := trailer
    obtain ⟨⟨codes, fit, rfl, rfl, few⟩, someSuite⟩ := parseSuites_iff.mp isSuites
    obtain ⟨⟨rfl, single⟩, someMethod⟩ := parseMethods_iff.mp isKept
    have listed := length_writeCodes codes
    let wire : HelloWire :=
      { version, random, sessionId, cookie, suites := codes, methods, extensions := block }
    have written : wire.write ++ rest = be16 version ++ (random ++ (vector8 sessionId ++
        (vector8 cookie ++ (be16 (writeCodes codes).length ++ (writeCodes codes ++
          count :: (methods ++ (writeBlock block ++ rest))))))) := by
      simp only [wire, HelloWire.write, HelloWire.head, vector16, vector8_of_length isCount,
        List.append_assoc, List.cons_append]
    have start : (wire.write ++ rest).length - (writeBlock block ++ rest).length =
        wire.head.length := by
      rw [HelloWire.write, List.append_assoc, List.length_append, Nat.add_sub_cancel]
    rw [← written, start] at admitted ⊢
    refine ⟨wire, ?_, ends, rfl, rfl, few, someSuite, single, someMethod, admitted⟩
    exact ⟨isVersion, isRandom, isSession, isCookie, fit, listed ▸ small, isCount ▸ count.toNat_lt,
      fits⟩
  · rintro ⟨wire, fits, ends, rfl, rfl, admits⟩
    have listed := length_writeCodes wire.suites
    have written : wire.write ++ rest = be16 wire.version ++ (wire.random ++
        (vector8 wire.sessionId ++ (vector8 wire.cookie ++ (be16 (writeCodes wire.suites).length ++
          (writeCodes wire.suites ++ UInt8.ofNat wire.methods.length :: (wire.methods ++
            (writeBlock wire.extensions ++ rest))))))) := by
      simp only [HelloWire.write, HelloWire.head, vector16, vector8, List.append_assoc,
        List.cons_append]
    have start : (wire.write ++ rest).length - (writeBlock wire.extensions ++ rest).length =
        wire.head.length := by
      rw [HelloWire.write, List.append_assoc, List.length_append, Nat.add_sub_cancel]
    have isSuites := parseSuites_iff.mpr
      ⟨⟨wire.suites, fits.suite, rfl, rfl, admits.suites⟩, admits.someSuite⟩
    have isMethods := parseMethods_iff.mpr ⟨⟨rfl, admits.methods⟩, admits.someMethod⟩
    refine ⟨_, _, ⟨rfl, rfl⟩, ⟨wire.version⟩, _, ⟨fits.version, written⟩, ⟨wire.random⟩, _,
      ⟨fits.random, rfl⟩, wire.sessionId, _, ⟨fits.sessionId, rfl⟩, wire.cookie, _,
      ⟨fits.cookie, rfl⟩, _, _, ⟨listed ▸ fits.suites, rfl⟩, writeCodes wire.suites, _, ⟨rfl, rfl⟩,
      _, _, _, ⟨isSuites, rfl⟩, (), _, ⟨rfl, rfl⟩, _, _, rfl, wire.methods, _,
      ⟨(toNat_length fits.methods).symm, rfl⟩, _, _, _, ⟨isMethods, rfl⟩, (), _, ⟨rfl, rfl⟩, _, _,
      ⟨rfl, rfl⟩, _, _, ⟨wire.extensions, fits.extensions, ends, rfl, rfl, ?_⟩, ?_, rfl⟩
    · rw [start]
      exact admits.extensions
    · rw [start]
      rfl

end ClientHello

theorem HelloVerifyRequest.parse_iff {input rest : Bytes} {request : HelloVerifyRequest} :
    HelloVerifyRequest.parse input = .ok (request, rest) ↔
      request.serverVersion.asU16 < 65536 ∧ request.cookie.length ≤ 255 ∧ request.cookie ≠ [] ∧
        input = be16 request.serverVersion.asU16 ++ vector8 request.cookie ++ rest := by
  unfold HelloVerifyRequest.parse
  simp only [bind_iff, ProtocolVersion.parse_iff, parseCookie, parseVarArray_iff, require_iff, pure_iff,
    Bool.not_eq_true', List.isEmpty_eq_false_iff]
  constructor
  · rintro ⟨version, _, ⟨isVersion, rfl⟩, cookie, _, ⟨isCookie, rfl⟩, _, _, ⟨some, rfl⟩, rfl, rfl⟩
    exact ⟨isVersion, isCookie, some, (List.append_assoc _ _ _).symm⟩
  · rintro ⟨isVersion, isCookie, some, rfl⟩
    exact ⟨_, _, ⟨isVersion, List.append_assoc _ _ _⟩, _, _, ⟨isCookie, rfl⟩, (), _, ⟨some, rfl⟩, rfl,
      rfl⟩

namespace ServerHello

/-- What is kept of a ServerHello that starts at `base`. -/
def ofWire (base : Nat) (wire : ServerHelloWire) : ServerHello where
  serverVersion := ⟨wire.version⟩
  random := ⟨wire.random⟩
  sessionId := wire.sessionId
  cipherSuite := ⟨wire.suite⟩
  compressionMethod := ⟨wire.method⟩
  extensions := keptSome Extension.ofTagged (fun ext => ext.extensionType.isSupported)
    (base + wire.head.length) wire.extensions

theorem parseExtensions_iff {base : Nat} {original input rest : Bytes}
    {result : Option (List Extension)} (enough : input.length ≤ original.length) :
    parseExtensions original base input = .ok (result, rest) ↔
      ∃ block, BlockFits block ∧ (block ≠ some [] → rest = []) ∧ input = writeBlock block ++ rest ∧
        result = keptSome Extension.ofTagged (fun ext => ext.extensionType.isSupported)
          (base + (original.length - input.length)) block ∧
        Extension.Admits (keptOf Extension.ofTagged (fun ext => ext.extensionType.isSupported)
          (base + (original.length - input.length)) block) :=
  fullBlock_iff Extension.readsAll ⟨List.nodup_nil, Nat.zero_le _⟩ enough

/-- Something may be left over behind an empty block only. -/
theorem parse_iff {base : Nat} {input rest : Bytes} {hello : ServerHello} :
    parse base input = .ok (hello, rest) ↔
      ∃ wire : ServerHelloWire, wire.Fits ∧ (wire.extensions ≠ some [] → rest = []) ∧
        input = wire.write ++ rest ∧ hello = ofWire base wire ∧
        Extension.Admits (keptOf Extension.ofTagged (fun ext => ext.extensionType.isSupported)
          (base + wire.head.length) wire.extensions) := by
  unfold parse
  simp only [bind_iff, remaining_iff, ProtocolVersion.parse_iff, Random.parse_iff, parseSessionId,
    parseVarArray_iff, suite_parse_iff, CompressionMethod.parse_iff, pure_iff]
  constructor
  · rintro ⟨_, _, ⟨rfl, rfl⟩, ⟨version⟩, _, ⟨isVersion, rfl⟩, ⟨random⟩, _, ⟨isRandom, rfl⟩,
      sessionId, _, ⟨isSession, rfl⟩, ⟨suite⟩, _, ⟨isSuite, rfl⟩, ⟨method⟩, tail, rfl, _, _, parsed,
      rfl, rfl⟩
    have enough : tail.length ≤ (be16 version ++ (random ++ (vector8 sessionId ++ (be16 suite ++
        method :: tail)))).length := by
      simp only [List.length_append, List.length_cons]
      omega
    obtain ⟨block, fits, ends, rfl, rfl, admitted⟩ := (parseExtensions_iff enough).mp parsed
    let wire : ServerHelloWire := { version, random, sessionId, suite, method, extensions := block }
    have written : wire.write ++ rest = be16 version ++ (random ++ (vector8 sessionId ++
        (be16 suite ++ method :: (writeBlock block ++ rest)))) := by
      simp only [wire, ServerHelloWire.write, ServerHelloWire.head, List.append_assoc,
        List.cons_append, List.nil_append]
    have start : (wire.write ++ rest).length - (writeBlock block ++ rest).length =
        wire.head.length := by
      rw [ServerHelloWire.write, List.append_assoc, List.length_append, Nat.add_sub_cancel]
    rw [← written, start] at admitted ⊢
    exact ⟨wire, ⟨isVersion, isRandom, isSession, isSuite, fits⟩, ends, rfl, rfl, admitted⟩
  · rintro ⟨wire, fits, ends, rfl, rfl, admitted⟩
    have written : wire.write ++ rest = be16 wire.version ++ (wire.random ++
        (vector8 wire.sessionId ++ (be16 wire.suite ++ wire.method ::
          (writeBlock wire.extensions ++ rest)))) := by
      simp only [ServerHelloWire.write, ServerHelloWire.head, List.append_assoc, List.cons_append,
        List.nil_append]
    have start : (wire.write ++ rest).length - (writeBlock wire.extensions ++ rest).length =
        wire.head.length := by
      rw [ServerHelloWire.write, List.append_assoc, List.length_append, Nat.add_sub_cancel]
    have enough : (writeBlock wire.extensions ++ rest).length ≤ (wire.write ++ rest).length := by
      simp only [ServerHelloWire.write, List.length_append]
      omega
    refine ⟨_, _, ⟨rfl, rfl⟩, ⟨wire.version⟩, _, ⟨fits.version, written⟩, ⟨wire.random⟩, _,
      ⟨fits.random, rfl⟩, wire.sessionId, _, ⟨fits.sessionId, rfl⟩, ⟨wire.suite⟩, _,
      ⟨fits.suite, rfl⟩, ⟨wire.method⟩, _, rfl, _, _, (parseExtensions_iff enough).mpr
      ⟨wire.extensions, fits.extensions, ends, rfl, rfl, ?_⟩, ?_, rfl⟩
    · rw [start]
      exact admitted
    · rw [start]
      rfl

end ServerHello

theorem parseAsn1Cert_readsAt :
    ReadsAt parseAsn1Cert (fun data => data.length < 16777216) vector24
      (fun offset data => ⟨offset + 3, offset + 3 + data.length⟩) :=
  readsAt_vector24

theorem parseDistinguishedName_readsAt :
    ReadsAt parseDistinguishedName RequestWire.NameFits vector16
      (fun offset data => ⟨offset + 2, offset + 2 + data.length⟩) :=
  readsAt_vector16 1

theorem parseClientEcdhKeys_readsAt :
    ReadsAt parseClientEcdhKeys (fun data => data.length < 256) vector8
      (fun offset data => ⟨offset + 1, offset + 1 + data.length⟩) :=
  readsAt_vector8

theorem parseOpaque16_readsAt :
    ReadsAt parseOpaque16 (fun data => data.length < 65536) vector16
      (fun offset data => ⟨offset + 2, offset + 2 + data.length⟩) := by
  intro offset input range rest
  have same : parseOpaque16 offset = (do
      let original ← remaining
      let len ← beU16
      require (0 ≤ len) .lengthValue
      takeRange original offset len) := by
    simp [parseOpaque16, require]
  rw [same, readsAt_vector16 0 offset input range rest]
  simp only [Nat.zero_le, true_and]

/-- What a list of certificates on the wire is and how it is written. -/
def certificatesGrammar : Grammar (List Bytes) where
  fits certificates := (∀ cert ∈ certificates, cert.length < 16777216) ∧
    (certificates.flatMap vector24).length < 16777216
  write certificates := vector24 (certificates.flatMap vector24)

theorem parseCertificate_iff {base : Nat} {input rest : Bytes} {ranges : List Range} :
    parseCertificate base input = .ok (ranges, rest) ↔
      ∃ certificates, certificatesGrammar.fits certificates ∧ certificates.length ≤ 32 ∧
        input = certificatesGrammar.write certificates ++ rest ∧
        ranges = place (fun offset data => ⟨offset + 3, offset + 3 + data.length⟩) vector24 (base + 3)
          certificates := by
  unfold parseCertificate
  simp only [bind_iff, remaining_iff, beU24_iff, consumedFrom_iff, take_iff, within_iff, Prod.exists,
    foldItems_pushBounded_iff parseAsn1Cert_readsAt fun data _ => vector24_ne_nil data, pure_iff]
  constructor
  · rintro ⟨_, _, ⟨rfl, rfl⟩, _, _, ⟨small, rfl⟩, _, _, ⟨rfl, rfl⟩, data, _, ⟨rfl, rfl⟩, list⟩
    obtain ⟨_, _, _, ⟨⟨rfl, certificates, fit, rfl, rfl, few⟩, rfl⟩, rfl, rfl⟩ := list
    have start : (be24 (certificates.flatMap vector24).length ++
        (certificates.flatMap vector24 ++ rest)).length -
          (certificates.flatMap vector24 ++ rest).length = 3 := by
      rw [List.length_append, length_be24]
      omega
    rw [start]
    refine ⟨certificates, ⟨fit, small⟩, few, ?_, rfl⟩
    simp only [certificatesGrammar]
    rw [vector24, List.append_assoc]
  · rintro ⟨certificates, ⟨fit, small⟩, few, rfl, rfl⟩
    have written : certificatesGrammar.write certificates ++ rest =
        be24 (certificates.flatMap vector24).length ++
          (certificates.flatMap vector24 ++ rest) := by
      simp only [certificatesGrammar]
      rw [vector24, List.append_assoc]
    have start : (certificatesGrammar.write certificates ++ rest).length -
        (certificates.flatMap vector24 ++ rest).length = 3 := by
      rw [written, List.length_append, length_be24]
      omega
    refine ⟨_, _, ⟨rfl, rfl⟩, _, _, ⟨small, written⟩, _, _, ⟨rfl, rfl⟩, _, _, ⟨rfl, rfl⟩, _, _, _,
      ⟨⟨rfl, certificates, fit, rfl, rfl, few⟩, rfl⟩, ?_, rfl⟩
    rw [start]

namespace SignatureAndHashAlgorithm

/-- `SignatureAndHashAlgorithm::from_u16`. -/
def ofU16 (value : Nat) : SignatureAndHashAlgorithm :=
  ⟨⟨UInt8.ofNat (value / 256)⟩, ⟨UInt8.ofNat value⟩⟩

theorem asU16_lt (algorithm : SignatureAndHashAlgorithm) : algorithm.asU16 < 65536 := by
  have hash := algorithm.hash.asU8.toNat_lt
  have signature := algorithm.signature.asU8.toNat_lt
  unfold asU16
  omega

theorem ofU16_asU16 (algorithm : SignatureAndHashAlgorithm) : ofU16 algorithm.asU16 = algorithm := by
  obtain ⟨⟨hash⟩, ⟨signature⟩⟩ := algorithm
  have small := signature.toNat_lt
  have first : UInt8.ofNat ((hash.toNat * 256 + signature.toNat) / 256) = hash := by
    have quotient : (hash.toNat * 256 + signature.toNat) / 256 = hash.toNat := by omega
    rw [quotient, UInt8.ofNat_toNat]
  have second : UInt8.ofNat (hash.toNat * 256 + signature.toNat) = signature := by
    apply UInt8.toNat_inj.mp
    rw [UInt8.toNat_ofNat']
    omega
  simp only [asU16, ofU16, first, second]

theorem asU16_ofU16 {value : Nat} (small : value < 65536) : (ofU16 value).asU16 = value := by
  unfold ofU16 asU16
  simp only [UInt8.toNat_ofNat']
  omega

theorem readsAt :
    ReadsAt (fun _ => parse) (fun code => code < 65536) be16 (fun _ => ofU16) :=
  readsAt_code ofU16

end SignatureAndHashAlgorithm

/-- The value of a signature. -/
def DigitallySigned.ofTagged (offset : Nat) (signed : Tagged) : DigitallySigned :=
  ⟨.ofU16 signed.tag, ⟨offset + 4, offset + 4 + signed.data.length⟩⟩

theorem DigitallySigned.readsAt :
    ReadsAt DigitallySigned.parse Tagged.Fits Tagged.write DigitallySigned.ofTagged :=
  Tagged.readsAt DigitallySigned.mk SignatureAndHashAlgorithm.readsAt

namespace EcdhParams

/-- What is kept of the parameters that start at `base`. -/
def ofWire (base : Nat) (curveType : UInt8) (group : Nat) (publicKey : Bytes)
    (signature : Option Tagged) : EcdhParams where
  curveType := curveType
  namedGroup := ⟨group⟩
  publicKeyRange := ⟨base + 4, base + 4 + publicKey.length⟩
  signature := signature.map (DigitallySigned.ofTagged (base + (4 + publicKey.length)))

theorem parseSignature_iff {original input rest : Bytes} {base : Nat}
    {result : Option DigitallySigned} :
    parseSignature original base input = .ok (result, rest) ↔
      ∃ signature : Option Tagged, (∀ signed ∈ signature, signed.Fits) ∧
        (signature = none → rest = []) ∧
        input = ExchangeWire.writeSignature signature ++ rest ∧
        result = signature.map (DigitallySigned.ofTagged
          (base + (original.length - input.length))) := by
  unfold parseSignature
  rw [bind_iff]
  simp only [remaining_iff]
  constructor
  · rintro ⟨_, _, ⟨rfl, rfl⟩, parsed⟩
    split at parsed
    · rename_i isEmpty
      obtain ⟨rfl, rfl⟩ := pure_ok parsed
      obtain rfl := List.isEmpty_iff.mp isEmpty
      exact ⟨none, fun _ absent => (nomatch absent), fun _ => rfl, rfl, rfl⟩
    · simp only [bind_iff, consumedFrom_iff, DigitallySigned.readsAt _ _ _ _, pure_iff] at parsed
      obtain ⟨_, _, ⟨rfl, rfl⟩, _, _, ⟨signed, fits, rfl, rfl⟩, rfl, rfl⟩ := parsed
      refine ⟨some signed, ?_, ?_, rfl, rfl⟩
      · rintro _ ⟨⟩
        exact fits
      · intro absent
        cases absent
  · rintro ⟨signature, fits, ends, rfl, rfl⟩
    refine ⟨_, _, ⟨rfl, rfl⟩, ?_⟩
    cases signature with
    | none =>
        obtain rfl := ends rfl
        rfl
    | some signed =>
        rw [if_neg]
        · simp only [bind_iff, consumedFrom_iff, DigitallySigned.readsAt _ _ _ _, pure_iff]
          exact ⟨_, _, ⟨rfl, rfl⟩, _, _, ⟨signed, fits signed rfl, rfl, rfl⟩, rfl, rfl⟩
        · exact Bool.false_ne_true

theorem parse_iff {base : Nat} {input rest : Bytes} {params : EcdhParams} :
    parse base input = .ok (params, rest) ↔
      ∃ curveType group publicKey signature,
        (ExchangeWire.ecdh curveType group publicKey signature).Fits ∧
        (signature = none → rest = []) ∧
        input = (ExchangeWire.ecdh curveType group publicKey signature).write ++ rest ∧
        params = ofWire base curveType group publicKey signature := by
  unfold parse
  have isGroup {input rest : Bytes} {group : NamedGroup} :
      NamedGroup.parse input = .ok (group, rest) ↔
        group.asU16 < 65536 ∧ input = be16 group.asU16 ++ rest :=
    code_iff (fun _ => rfl) (fun _ => rfl)
  simp only [bind_iff, remaining_iff, beU8_iff, isGroup, takeRange_iff, parseSignature_iff, pure_iff]
  constructor
  · rintro ⟨_, _, ⟨rfl, rfl⟩, curveType, _, rfl, ⟨group⟩, _, ⟨small, rfl⟩, count, _, rfl, _, _,
      ⟨publicKey, isCount, rfl, rfl⟩, signed⟩
    obtain ⟨_, _, ⟨signature, fits, ends, rfl, rfl⟩, rfl, rfl⟩ := signed
    refine ⟨curveType, group, publicKey, signature, ⟨small, isCount ▸ count.toNat_lt, fits⟩, ends, ?_,
      ?_⟩
    · simp only [ExchangeWire.write, vector8_of_length isCount, List.append_assoc, List.cons_append]
    · have key : (curveType :: (be16 group ++ count :: (publicKey ++
          (ExchangeWire.writeSignature signature ++ rest)))).length -
            (publicKey ++ (ExchangeWire.writeSignature signature ++ rest)).length = 4 := by
        simp only [List.length_append, List.length_cons, length_be16]
        omega
      have behind : (curveType :: (be16 group ++ count :: (publicKey ++
          (ExchangeWire.writeSignature signature ++ rest)))).length -
            (ExchangeWire.writeSignature signature ++ rest).length = 4 + publicKey.length := by
        simp only [List.length_append, List.length_cons, length_be16]
        omega
      rw [key, behind, ← isCount]
      rfl
  · rintro ⟨curveType, group, publicKey, signature, ⟨small, short, fits⟩, ends, rfl, rfl⟩
    have written : (ExchangeWire.ecdh curveType group publicKey signature).write ++ rest =
        curveType :: (be16 group ++ (UInt8.ofNat publicKey.length :: (publicKey ++
          (ExchangeWire.writeSignature signature ++ rest)))) := by
      simp only [ExchangeWire.write, vector8, List.append_assoc, List.cons_append]
    refine ⟨_, _, ⟨rfl, rfl⟩, _, _, written, ⟨group⟩, _, ⟨small, rfl⟩, _, _, rfl, _, _,
      ⟨publicKey, (toNat_length short).symm, rfl, rfl⟩, _, _, ⟨signature, fits, ends, rfl, rfl⟩, ?_,
      rfl⟩
    have key : ((ExchangeWire.ecdh curveType group publicKey signature).write ++ rest).length -
        (publicKey ++ (ExchangeWire.writeSignature signature ++ rest)).length = 4 := by
      rw [written]
      simp only [List.length_append, List.length_cons, length_be16]
      omega
    have behind : ((ExchangeWire.ecdh curveType group publicKey signature).write ++ rest).length -
        (ExchangeWire.writeSignature signature ++ rest).length = 4 + publicKey.length := by
      rw [written]
      simp only [List.length_append, List.length_cons, length_be16]
      omega
    rw [key, behind, toNat_length short]
    rfl

end EcdhParams

/-- The algorithm a ServerKeyExchange is for. -/
def exchangeAlgorithm : ExchangeWire → KeyExchangeAlgorithm
  | .ecdh .. => .eecdh
  | .psk _ => .psk

/-- Whether a ServerKeyExchange ends with its key. -/
def unsigned : ExchangeWire → Prop
  | .ecdh _ _ _ signature => signature = none
  | .psk _ => False

namespace ServerKeyExchange

/-- What is kept of a ServerKeyExchange that starts at `base`. -/
def ofWire (base : Nat) : ExchangeWire → ServerKeyExchange
  | .ecdh curveType group publicKey signature =>
      .ecdh (EcdhParams.ofWire base curveType group publicKey signature)
  | .psk hint => .psk ⟨base + 2, base + 2 + hint.length⟩

/-- Something may be left over behind a signature or a hint. -/
theorem parse_iff {base : Nat} {algorithm : KeyExchangeAlgorithm} {input rest : Bytes}
    {exchange : ServerKeyExchange} :
    parse base algorithm input = .ok (exchange, rest) ↔
      ∃ wire : ExchangeWire, wire.Fits ∧ exchangeAlgorithm wire = algorithm ∧
        (unsigned wire → rest = []) ∧ input = wire.write ++ rest ∧ exchange = ofWire base wire := by
  cases algorithm with
  | eecdh =>
      simp only [parse, bind_iff, EcdhParams.parse_iff, pure_iff]
      constructor
      · rintro ⟨_, _, ⟨curveType, group, publicKey, signature, fits, ends, rfl, rfl⟩, rfl, rfl⟩
        exact ⟨_, fits, rfl, ends, rfl, rfl⟩
      · rintro ⟨wire, fits, isFor, ends, rfl, rfl⟩
        cases wire with
        | ecdh curveType group publicKey signature =>
            exact ⟨_, _, ⟨curveType, group, publicKey, signature, fits, ends, rfl, rfl⟩, rfl, rfl⟩
        | psk hint => cases isFor
  | psk =>
      simp only [parse, bind_iff, parseOpaque16_readsAt _ _ _ _, pure_iff]
      constructor
      · rintro ⟨_, _, ⟨hint, small, rfl, rfl⟩, rfl, rfl⟩
        exact ⟨.psk hint, small, rfl, False.elim, rfl, rfl⟩
      · rintro ⟨wire, fits, isFor, ends, rfl, rfl⟩
        cases wire with
        | ecdh curveType group publicKey signature => cases isFor
        | psk hint => exact ⟨_, _, ⟨hint, fits, rfl, rfl⟩, rfl, rfl⟩
  | unknown =>
      constructor
      · intro parsed
        cases parsed
      · rintro ⟨wire, _, isFor, _⟩
        cases wire <;> cases isFor

end ServerKeyExchange

/-- The algorithm a ClientKeyExchange is for. -/
def clientKeyAlgorithm : ClientKeyWire → KeyExchangeAlgorithm
  | .ecdh _ => .eecdh
  | .psk _ => .psk

namespace ClientKeyExchange

/-- What is kept of a ClientKeyExchange that starts at `base`. -/
def ofWire (base : Nat) : ClientKeyWire → ClientKeyExchange
  | .ecdh publicKey => .ecdh ⟨base + 1, base + 1 + publicKey.length⟩
  | .psk identity => .psk ⟨base + 2, base + 2 + identity.length⟩

theorem parse_iff {base : Nat} {algorithm : KeyExchangeAlgorithm} {input rest : Bytes}
    {exchange : ClientKeyExchange} :
    parse base algorithm input = .ok (exchange, rest) ↔
      ∃ wire : ClientKeyWire, wire.Fits ∧ clientKeyAlgorithm wire = algorithm ∧
        input = wire.write ++ rest ∧ exchange = ofWire base wire := by
  cases algorithm with
  | eecdh =>
      simp only [parse, bind_iff, parseClientEcdhKeys_readsAt _ _ _ _, pure_iff]
      constructor
      · rintro ⟨_, _, ⟨publicKey, small, rfl, rfl⟩, rfl, rfl⟩
        exact ⟨.ecdh publicKey, small, rfl, rfl, rfl⟩
      · rintro ⟨wire, fits, isFor, rfl, rfl⟩
        cases wire with
        | ecdh publicKey => exact ⟨_, _, ⟨publicKey, fits, rfl, rfl⟩, rfl, rfl⟩
        | psk identity => cases isFor
  | psk =>
      simp only [parse, bind_iff, parseOpaque16_readsAt _ _ _ _, pure_iff]
      constructor
      · rintro ⟨_, _, ⟨identity, small, rfl, rfl⟩, rfl, rfl⟩
        exact ⟨.psk identity, small, rfl, rfl, rfl⟩
      · rintro ⟨wire, fits, isFor, rfl, rfl⟩
        cases wire with
        | ecdh publicKey => cases isFor
        | psk identity => exact ⟨_, _, ⟨identity, fits, rfl, rfl⟩, rfl, rfl⟩
  | unknown =>
      constructor
      · intro parsed
        cases parsed
      · rintro ⟨wire, _, isFor, _⟩
        cases wire <;> cases isFor

end ClientKeyExchange

namespace CertificateRequest

/-- What is kept of a CertificateRequest that starts at `base`. -/
def ofWire (base : Nat) (wire : RequestWire) : CertificateRequest where
  certificateTypes := wire.types.filter fun type => type = ecdsaSign
  supportedSignatureAlgorithms :=
    (wire.algorithms.map SignatureAndHashAlgorithm.ofU16).filter SignatureAndHashAlgorithm.isSupported
  certificateAuthorities :=
    place (fun offset data => ⟨offset + 2, offset + 2 + data.length⟩) vector16
      (base + (5 + wire.types.length + wire.algorithms.length * 2)) wire.authorities

/-- What the parser wants of the elements it keeps. -/
structure Admits (request : CertificateRequest) : Prop where
  types : request.certificateTypes.length ≤ 1
  someType : request.certificateTypes ≠ []
  algorithms : request.supportedSignatureAlgorithms.length ≤ 4
  authorities : request.certificateAuthorities.length ≤ 32

theorem parseTypes_iff {input types : Bytes} :
    many1 beU8 (fun type => type = ecdsaSign) 1 input = .ok (types, []) ↔
      (types = input.filter (fun type => type = ecdsaSign) ∧ types.length ≤ 1) ∧ types ≠ [] := by
  rw [many1_iff readsAt_beU8 fun _ _ => List.cons_ne_nil _ _]
  have flat (bytes : Bytes) : bytes.flatMap (fun byte => [byte]) = bytes := List.flatMap_singleton' _
  constructor
  · rintro ⟨⟨bytes, _, rfl, kept, bounded⟩, some⟩
    rw [List.map_id] at kept
    rw [flat]
    exact ⟨⟨kept, bounded⟩, some⟩
  · rintro ⟨⟨kept, bounded⟩, some⟩
    refine ⟨⟨input, fun _ _ => trivial, (flat input).symm, ?_, bounded⟩, some⟩
    rw [List.map_id]
    exact kept

theorem parse_iff {base : Nat} {input rest : Bytes} {request : CertificateRequest} :
    parse base input = .ok (request, rest) ↔
      ∃ wire : RequestWire, wire.Fits ∧ input = wire.write ++ rest ∧ request = ofWire base wire ∧
        request.Admits := by
  unfold parse
  simp only [bind_iff, remaining_iff, beU8_iff, take_iff, within_iff, Prod.exists, require_iff,
    List.isEmpty_iff, beU16_iff, consumedFrom_iff,
    foldItems_pushBounded_iff parseDistinguishedName_readsAt fun data _ => vector16_ne_nil data,
    pure_iff]
  constructor
  · rintro ⟨_, _, ⟨rfl, rfl⟩, count, _, rfl, types, _, ⟨isCount, rfl⟩, keptTypes, _, _, ⟨isTypes, rfl⟩,
      _, _, ⟨rfl, rfl⟩, lists⟩
    obtain ⟨_, _, ⟨small, rfl⟩, data, _, ⟨rfl, rfl⟩, kept, _, _, ⟨isKept, rfl⟩, _, _, ⟨rfl, rfl⟩,
      lists⟩ := lists
    obtain ⟨_, _, ⟨short, rfl⟩, _, _, ⟨rfl, rfl⟩, names, _, ⟨rfl, rfl⟩, _, _, _,
      ⟨⟨rfl, authorities, fit, rfl, rfl, few⟩, rfl⟩, rfl, rfl⟩ := lists
    obtain ⟨⟨rfl, single⟩, someType⟩ := parseTypes_iff.mp isTypes
    obtain ⟨codes, codesFit, rfl, rfl, limited⟩ :=
      (many0_iff SignatureAndHashAlgorithm.readsAt be16_ne_nil).mp isKept
    have listed : (codes.flatMap be16).length = codes.length * 2 := length_writeCodes codes
    let wire : RequestWire := ⟨types, codes, authorities⟩
    have written : wire.write ++ rest = count :: (types ++ (be16 (codes.flatMap be16).length ++
        (codes.flatMap be16 ++ (be16 (authorities.flatMap vector16).length ++
          (authorities.flatMap vector16 ++ rest))))) := by
      simp only [wire, RequestWire.write, vector8_of_length isCount, writeCodes, List.append_assoc,
        List.cons_append]
      rw [vector16, vector16]
      simp only [List.append_assoc]
    have start : (wire.write ++ rest).length - (authorities.flatMap vector16 ++ rest).length =
        5 + types.length + codes.length * 2 := by
      rw [written]
      simp only [List.length_append, List.length_cons, length_be16, listed]
      omega
    rw [← written, start]
    refine ⟨wire, ?_, rfl, rfl, single, someType, limited, ?_⟩
    · exact ⟨isCount ▸ count.toNat_lt, codesFit, listed ▸ small, fit, short⟩
    · rwa [length_place]
  · rintro ⟨wire, fits, rfl, rfl, admits⟩
    have listed := length_writeCodes wire.algorithms
    have written : wire.write ++ rest = UInt8.ofNat wire.types.length :: (wire.types ++
        (be16 (writeCodes wire.algorithms).length ++ (writeCodes wire.algorithms ++
          (be16 (wire.authorities.flatMap vector16).length ++
            (wire.authorities.flatMap vector16 ++ rest))))) := by
      simp only [RequestWire.write, vector8, List.append_assoc, List.cons_append]
      rw [vector16, vector16]
      simp only [List.append_assoc]
    have start : (wire.write ++ rest).length - (wire.authorities.flatMap vector16 ++ rest).length =
        5 + wire.types.length + wire.algorithms.length * 2 := by
      rw [written]
      simp only [List.length_append, List.length_cons, length_be16, listed]
      omega
    have few := admits.authorities
    simp only [ofWire, length_place] at few
    have isTypes := parseTypes_iff.mpr ⟨⟨rfl, admits.types⟩, admits.someType⟩
    have isKept := (many0_iff SignatureAndHashAlgorithm.readsAt be16_ne_nil).mpr
      ⟨wire.algorithms, fits.algorithm, rfl, rfl, admits.algorithms⟩
    refine ⟨_, _, ⟨rfl, rfl⟩, _, _, written, wire.types, _, ⟨(toNat_length fits.types).symm, rfl⟩, _, _,
      _, ⟨isTypes, rfl⟩, (), _, ⟨rfl, rfl⟩, _, _, ⟨listed ▸ fits.algorithms, rfl⟩, _, _, ⟨rfl, rfl⟩, _,
      _, _, ⟨isKept, rfl⟩, (), _, ⟨rfl, rfl⟩, _, _, ⟨fits.authorities, rfl⟩, _, _, ⟨rfl, rfl⟩, _, _,
      ⟨rfl, rfl⟩, _, _, _, ⟨⟨rfl, wire.authorities, fits.authority, rfl, rfl, few⟩, rfl⟩, ?_, rfl⟩
    rw [start]
    rfl

end CertificateRequest

/-- What stands in a record. -/
structure RecordWire where
  contentType : UInt8
  version : Nat
  epoch : Nat
  sequenceNumber : Nat
  length : Nat
  fragment : Bytes
  deriving DecidableEq, Repr

namespace RecordWire

/-- Every number and the length fit their fields. -/
structure Fits (record : RecordWire) : Prop where
  version : record.version < 65536
  epoch : record.epoch < 65536
  sequenceNumber : record.sequenceNumber < 2 ^ 48
  length : record.length < 65536
  fragment : record.fragment.length = record.length

/-- The version and the content type are such as a record of this epoch may have. -/
structure Allowed (record : RecordWire) : Prop where
  version : record.version = ProtocolVersion.dtls10.asU16 ∨
    record.version = ProtocolVersion.dtls12.asU16
  contentType : record.epoch = 0 → (⟨record.contentType⟩ : ContentType) ∈ DTLSRecord.plaintextTypes

/-- The bytes of a record. -/
def write (record : RecordWire) : Bytes :=
  record.contentType :: (be16 record.version ++ (be16 record.epoch ++ (be48 record.sequenceNumber ++
    (be16 record.length ++ record.fragment))))

end RecordWire

namespace DTLSRecord

/-- What is kept of a record that starts at `base`. -/
def ofWire (base : Nat) (wire : RecordWire) : DTLSRecord where
  contentType := ⟨wire.contentType⟩
  version := ⟨wire.version⟩
  sequence := ⟨wire.epoch, wire.sequenceNumber⟩
  length := wire.length
  fragmentRange := ⟨base + 13, base + 13 + wire.length⟩

theorem allowed_iff {wire : RecordWire} : wire.Allowed ↔
    [ProtocolVersion.dtls10, .dtls12].contains ⟨wire.version⟩ = true ∧
      (decide (wire.epoch ≠ 0) || plaintextTypes.contains ⟨wire.contentType⟩) = true := by
  rw [List.contains_iff_mem, Bool.or_eq_true, decide_eq_true_eq, List.contains_iff_mem]
  constructor
  · intro allowed
    refine ⟨?_, ?_⟩
    · rcases allowed.version with first | second
      · rw [first]
        exact List.mem_cons_self
      · rw [second]
        exact List.mem_cons_of_mem _ List.mem_cons_self
    · by_cases isZero : wire.epoch = 0
      · exact .inr (allowed.contentType isZero)
      · exact .inl isZero
  · rintro ⟨isKnown, isPlain⟩
    refine ⟨?_, fun isZero => isPlain.resolve_left fun notZero => notZero isZero⟩
    simp only [List.mem_cons, List.not_mem_nil, or_false] at isKnown
    exact isKnown.imp (congrArg ProtocolVersion.asU16) (congrArg ProtocolVersion.asU16)

theorem parse_iff {base : Nat} {input rest : Bytes} {record : DTLSRecord} :
    parse base 0 input = .ok (record, rest) ↔
      ∃ wire : RecordWire, wire.Fits ∧ wire.Allowed ∧ input = wire.write ++ rest ∧
        record = ofWire base wire := by
  have isType {input rest : Bytes} {contentType : ContentType} :
      ContentType.parse input = .ok (contentType, rest) ↔ input = contentType.asU8 :: rest := by
    unfold ContentType.parse
    simp only [bind_iff, beU8_iff, pure_iff]
    constructor
    · rintro ⟨byte, _, rfl, rfl, rfl⟩
      rfl
    · rintro rfl
      exact ⟨_, _, rfl, rfl, rfl⟩
  unfold parse
  simp only [bind_iff, remaining_iff, isType, ProtocolVersion.parse_iff, require_iff, beU16_iff,
    beU48_iff, take_iff, takeRange_iff, pure_iff, List.length_eq_zero_iff]
  constructor
  · rintro ⟨_, _, ⟨rfl, rfl⟩, ⟨contentType⟩, _, rfl, ⟨version⟩, _, ⟨isVersion, rfl⟩, _, _,
      ⟨isKnown, rfl⟩, epoch, _, ⟨isEpoch, rfl⟩, _, _, ⟨isPlain, rfl⟩, numbers⟩
    obtain ⟨number, _, ⟨isNumber, rfl⟩, _, _, ⟨small, rfl⟩, _, _, ⟨rfl, rfl⟩, _, _,
      ⟨fragment, rfl, rfl, rfl⟩, rfl, rfl⟩ := numbers
    let wire : RecordWire := ⟨contentType, version, epoch, number, fragment.length, fragment⟩
    have written : wire.write ++ rest = contentType :: (be16 version ++ (be16 epoch ++
        (be48 number ++ (be16 fragment.length ++ (fragment ++ rest))))) := by
      simp only [wire, RecordWire.write, List.append_assoc, List.cons_append]
    have start : (wire.write ++ rest).length - (fragment ++ rest).length = 13 := by
      rw [written]
      simp only [List.length_append, List.length_cons, length_be16, length_be48]
      omega
    rw [← written, start]
    exact ⟨wire, ⟨isVersion, isEpoch, isNumber, small, rfl⟩, allowed_iff.mpr ⟨isKnown, isPlain⟩, rfl, rfl⟩
  · rintro ⟨wire, fits, allowed, rfl, rfl⟩
    obtain ⟨isKnown, isPlain⟩ := allowed_iff.mp allowed
    have written : wire.write ++ rest = wire.contentType :: (be16 wire.version ++ (be16 wire.epoch ++
        (be48 wire.sequenceNumber ++ (be16 wire.length ++ ([] ++ (wire.fragment ++ rest)))))) := by
      simp only [RecordWire.write, List.append_assoc, List.cons_append, List.nil_append]
    have start : (wire.write ++ rest).length - (wire.fragment ++ rest).length = 13 := by
      rw [written]
      simp only [List.length_append, List.length_cons, List.length_nil, length_be16, length_be48]
      omega
    refine ⟨_, _, ⟨rfl, rfl⟩, ⟨wire.contentType⟩, _, written, ⟨wire.version⟩, _, ⟨fits.version, rfl⟩,
      (), _, ⟨isKnown, rfl⟩, _, _, ⟨fits.epoch, rfl⟩, (), _, ⟨isPlain, rfl⟩, _, _,
      ⟨fits.sequenceNumber, rfl⟩, _, _, ⟨fits.length, rfl⟩, _, _, ⟨rfl, rfl⟩, _, _,
      ⟨wire.fragment, fits.fragment, rfl, rfl⟩, ?_, rfl⟩
    rw [start]
    rfl

end DTLSRecord

end Dimpl.Dtls12
