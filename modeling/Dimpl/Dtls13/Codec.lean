import Dimpl.Dtls13.Message
import Dimpl.Wire.Messages

/-!
# What the DTLS 1.3 parsers read

For each message the inputs its parser accepts and what it keeps of them.
-/

namespace Dimpl.Dtls13

open Nom

theorem suite_parse_iff {suite : Dtls13CipherSuite} {input rest : Bytes} :
    Dtls13CipherSuite.parse input = .ok (suite, rest) ↔
      suite.asU16 < 65536 ∧ input = be16 suite.asU16 ++ rest :=
  code_iff (fun _ => rfl) (fun _ => rfl)

theorem suite_readsAt :
    ReadsAt (fun _ => Dtls13CipherSuite.parse) (fun code => code < 65536) be16
      (fun _ => Dtls13CipherSuite.mk) :=
  readsAt_code Dtls13CipherSuite.mk

/-- The value of an extension. -/
def Extension.ofTagged (offset : Nat) (tagged : Tagged) : Extension :=
  ⟨⟨tagged.tag⟩, ⟨offset + 4, offset + 4 + tagged.data.length⟩⟩

theorem Extension.readsAt : ReadsAt Extension.parse Tagged.Fits Tagged.write Extension.ofTagged :=
  Tagged.readsAt Extension.mk (readsAt_code ExtensionType.mk)

/-- The extensions that are kept are few and of different types. -/
def Extension.Admits (capacity : Nat) (extensions : List Extension) : Prop :=
  (extensions.map fun ext => ext.extensionType).Nodup ∧ extensions.length ≤ capacity

theorem Extension.collects (capacity : Nat) :
    Collects (Extension.push capacity) (fun ext => ext.extensionType.isSupported)
      (Extension.Admits capacity) :=
  collects_distinct fun _ _ => rfl

theorem Extension.readsAll (capacity : Nat) :
    ReadsExtensions (Extension.parseAll capacity) Extension.ofTagged
      (fun ext => ext.extensionType.isSupported) (Extension.Admits capacity) := by
  intro offset input result rest
  exact foldItems_collects_iff Extension.readsAt Tagged.write_ne_nil (Extension.collects capacity)
    ⟨List.nodup_nil, Nat.zero_le _⟩

namespace ClientHello

/-- What is kept of a ClientHello that starts at `base`. -/
def ofWire (base : Nat) (wire : HelloWire) : ClientHello where
  legacyVersion := ⟨wire.version⟩
  random := ⟨wire.random⟩
  legacySessionId := wire.sessionId
  legacyCookie := wire.cookie
  cipherSuites := (wire.suites.map Dtls13CipherSuite.mk).filter Dtls13CipherSuite.isSupported
  legacyCompressionMethods :=
    (wire.methods.map CompressionMethod.mk).filter CompressionMethod.isSupported
  extensions := keptOf Extension.ofTagged (fun ext => ext.extensionType.isSupported)
    (base + wire.head.length) wire.extensions

/-- What the parser wants of the elements it keeps. -/
structure Admits (allowUnknownSuites : Bool) (hello : ClientHello) : Prop where
  suites : hello.cipherSuites.length ≤ 3
  someSuite : allowUnknownSuites = true ∨ hello.cipherSuites ≠ []
  methods : hello.legacyCompressionMethods.length ≤ 1
  someMethod : hello.legacyCompressionMethods ≠ []
  extensions : Extension.Admits 8 hello.extensions

theorem parseExtensions_iff {base : Nat} {input rest : Bytes} {result : List Extension} :
    parseExtensions base input = .ok (result, rest) ↔
      rest = [] ∧ ∃ block, BlockFits block ∧ input = writeBlock block ∧
        result = keptOf Extension.ofTagged (fun ext => ext.extensionType.isSupported) base block ∧
        Extension.Admits 8 result :=
  wholeBlock_iff (Extension.readsAll 8) ⟨List.nodup_nil, Nat.zero_le _⟩

/-- The suites that are kept of a list that is read to its end. -/
theorem parseSuites_iff {allowUnknownSuites : Bool} {input : Bytes} {suites : List Dtls13CipherSuite} :
    (if allowUnknownSuites then many0 Dtls13CipherSuite.parse Dtls13CipherSuite.isSupported 3
      else many1 Dtls13CipherSuite.parse Dtls13CipherSuite.isSupported 3) input = .ok (suites, []) ↔
      (∃ codes : List Nat, (∀ code ∈ codes, code < 65536) ∧ input = writeCodes codes ∧
        suites = (codes.map Dtls13CipherSuite.mk).filter Dtls13CipherSuite.isSupported ∧
        suites.length ≤ 3) ∧ (allowUnknownSuites = true ∨ suites ≠ []) := by
  cases allowUnknownSuites with
  | true =>
      rw [if_pos rfl, many0_iff suite_readsAt be16_ne_nil]
      simp only [true_or, and_true]
      rfl
  | false =>
      rw [if_neg Bool.false_ne_true, many1_iff suite_readsAt be16_ne_nil]
      simp only [Bool.false_eq_true, false_or]
      rfl

/-- Exactly the ClientHellos are accepted whose numbers and lengths fit and of which something is
kept, and nothing is left over. -/
theorem parseWithOptions_iff {base : Nat} {allowUnknownSuites : Bool} {input rest : Bytes}
    {hello : ClientHello} :
    parseWithOptions base allowUnknownSuites input = .ok (hello, rest) ↔
      rest = [] ∧ ∃ wire : HelloWire, wire.Fits ∧ wire.suites ≠ [] ∧ input = wire.write ∧
        hello = ofWire base wire ∧ hello.Admits allowUnknownSuites := by
  unfold parseWithOptions
  simp only [bind_iff, remaining_iff, Prod.exists, ProtocolVersion.parse_iff, Random.parse_iff,
    parseSessionId, parseCookie, parseVarArray_iff, beU16_iff, require_iff, take_iff, within_iff,
    beU8_iff, consumedFrom_iff, parseExtensions_iff, pure_iff, List.isEmpty_iff, decide_eq_true_eq]
  constructor
  · rintro ⟨_, _, ⟨rfl, rfl⟩, ⟨version⟩, _, ⟨isVersion, rfl⟩, ⟨random⟩, _, ⟨isRandom, rfl⟩,
      sessionId, _, ⟨isSession, rfl⟩, cookie, _, ⟨isCookie, rfl⟩, lists⟩
    obtain ⟨_, _, ⟨small, rfl⟩, _, _, ⟨⟨isSome, _⟩, rfl⟩, data, _, ⟨rfl, rfl⟩, suites, _, _,
      ⟨isSuites, rfl⟩, _, _, ⟨rfl, rfl⟩, lists⟩ := lists
    obtain ⟨count, _, rfl, methods, _, ⟨isCount, rfl⟩, kept, _, _, ⟨isKept, rfl⟩, _, _, ⟨rfl, rfl⟩,
      trailer⟩ := lists
    obtain ⟨_, _, ⟨rfl, rfl⟩, _, _, ⟨rfl, block, fits, rfl, rfl, admitted⟩, rfl, rfl⟩ := trailer
    obtain ⟨⟨codes, fit, rfl, rfl, few⟩, someSuite⟩ := parseSuites_iff.mp isSuites
    obtain ⟨⟨rfl, single⟩, someMethod⟩ := parseMethods_iff.mp isKept
    have listed := length_writeCodes codes
    let wire : HelloWire :=
      { version, random, sessionId, cookie, suites := codes, methods, extensions := block }
    have written : wire.write = be16 version ++ (random ++ (vector8 sessionId ++ (vector8 cookie ++
        (be16 (writeCodes codes).length ++ (writeCodes codes ++
          count :: (methods ++ writeBlock block)))))) := by
      simp only [wire, HelloWire.write, HelloWire.head, vector16, vector8_of_length isCount,
        List.append_assoc, List.cons_append]
    have start : wire.write.length - (writeBlock block).length = wire.head.length := by
      rw [HelloWire.write, List.length_append, Nat.add_sub_cancel]
    rw [← written, start] at admitted ⊢
    refine ⟨rfl, wire, ?_, ?_, rfl, rfl, few, someSuite, single, someMethod, admitted⟩
    · exact ⟨isVersion, isRandom, isSession, isCookie, fit, listed ▸ small,
        isCount ▸ count.toNat_lt, fits⟩
    · rintro rfl
      exact isSome rfl
  · rintro ⟨rfl, wire, fits, some, rfl, rfl, admits⟩
    have listed := length_writeCodes wire.suites
    have written : wire.write = be16 wire.version ++ (wire.random ++ (vector8 wire.sessionId ++
        (vector8 wire.cookie ++ (be16 (writeCodes wire.suites).length ++ (writeCodes wire.suites ++
          UInt8.ofNat wire.methods.length :: (wire.methods ++ writeBlock wire.extensions)))))) := by
      simp only [HelloWire.write, HelloWire.head, vector16, vector8, List.append_assoc,
        List.cons_append]
    have start : wire.write.length - (writeBlock wire.extensions).length = wire.head.length := by
      rw [HelloWire.write, List.length_append, Nat.add_sub_cancel]
    have isSuites := parseSuites_iff.mpr
      ⟨⟨wire.suites, fits.suite, rfl, rfl, admits.suites⟩, admits.someSuite⟩
    have isMethods := parseMethods_iff.mpr ⟨⟨rfl, admits.methods⟩, admits.someMethod⟩
    refine ⟨_, _, ⟨rfl, rfl⟩, ⟨wire.version⟩, _, ⟨fits.version, written⟩, ⟨wire.random⟩, _,
      ⟨fits.random, rfl⟩, wire.sessionId, _, ⟨fits.sessionId, rfl⟩, wire.cookie, _,
      ⟨fits.cookie, rfl⟩, _, _, ⟨listed ▸ fits.suites, rfl⟩, (), _, ⟨⟨?_, ?_⟩, rfl⟩,
      writeCodes wire.suites, _, ⟨rfl, rfl⟩, _, _, _, ⟨isSuites, rfl⟩, (), _, ⟨rfl, rfl⟩, _, _, rfl,
      wire.methods, _, ⟨(toNat_length fits.methods).symm, rfl⟩, _, _, _, ⟨isMethods, rfl⟩, (), _,
      ⟨rfl, rfl⟩, _, _, ⟨rfl, rfl⟩, _, _,
      ⟨rfl, wire.extensions, fits.extensions, rfl, rfl, ?_⟩, ?_, rfl⟩
    · intro isNil
      rw [listed] at isNil
      exact some (List.length_eq_zero_iff.mp (by omega))
    · omega
    · rw [start]
      exact admits.extensions
    · rw [start]
      rfl

end ClientHello

namespace ServerHello

/-- What is kept of a ServerHello that starts at `base`. -/
def ofWire (base : Nat) (wire : ServerHelloWire) : ServerHello where
  legacyVersion := ⟨wire.version⟩
  random := ⟨wire.random⟩
  legacySessionId := wire.sessionId
  cipherSuite := ⟨wire.suite⟩
  legacyCompressionMethod := ⟨wire.method⟩
  extensions := keptSome Extension.ofTagged (fun ext => ext.extensionType.isSupported)
    (base + wire.head.length) wire.extensions

theorem parseExtensions_iff {base : Nat} {original input rest : Bytes}
    {result : Option (List Extension)} (enough : input.length ≤ original.length) :
    parseExtensions original base input = .ok (result, rest) ↔
      ∃ block, BlockFits block ∧ (block ≠ some [] → rest = []) ∧ input = writeBlock block ++ rest ∧
        result = keptSome Extension.ofTagged (fun ext => ext.extensionType.isSupported)
          (base + (original.length - input.length)) block ∧
        Extension.Admits 5 (keptOf Extension.ofTagged (fun ext => ext.extensionType.isSupported)
          (base + (original.length - input.length)) block) :=
  fullBlock_iff (Extension.readsAll 5) ⟨List.nodup_nil, Nat.zero_le _⟩ enough

/-- Something may be left over behind an empty block only. -/
theorem parse_iff {base : Nat} {input rest : Bytes} {hello : ServerHello} :
    parse base input = .ok (hello, rest) ↔
      ∃ wire : ServerHelloWire, wire.Fits ∧ (wire.extensions ≠ some [] → rest = []) ∧
        input = wire.write ++ rest ∧ hello = ofWire base wire ∧
        Extension.Admits 5 (keptOf Extension.ofTagged (fun ext => ext.extensionType.isSupported)
          (base + wire.head.length) wire.extensions) := by
  unfold parse
  simp only [bind_iff, remaining_iff, ProtocolVersion.parse_iff, Random.parse_iff, parseSessionId,
    parseVarArray_iff, suite_parse_iff, CompressionMethod.parse_iff, pure_iff]
  constructor
  · rintro ⟨_, _, ⟨rfl, rfl⟩, ⟨version⟩, _, ⟨isVersion, rfl⟩, ⟨random⟩, _, ⟨isRandom, rfl⟩,
      sessionId, _, ⟨isSession, rfl⟩, ⟨suite⟩, _, ⟨isSuite, rfl⟩, ⟨method⟩, tail, rfl, _, _, parsed,
      rfl, rfl⟩
    have enough : tail.length ≤ (be16 version ++ (random ++ (vector8 sessionId ++ (be16 suite ++
        method :: tail)))).length := by
      simp only [List.length_append, List.length_cons]
      omega
    obtain ⟨block, fits, ends, rfl, rfl, admitted⟩ := (parseExtensions_iff enough).mp parsed
    let wire : ServerHelloWire := { version, random, sessionId, suite, method, extensions := block }
    have written : wire.write ++ rest = be16 version ++ (random ++ (vector8 sessionId ++
        (be16 suite ++ method :: (writeBlock block ++ rest)))) := by
      simp only [wire, ServerHelloWire.write, ServerHelloWire.head, List.append_assoc,
        List.cons_append, List.nil_append]
    have start : (wire.write ++ rest).length - (writeBlock block ++ rest).length =
        wire.head.length := by
      rw [ServerHelloWire.write, List.append_assoc, List.length_append, Nat.add_sub_cancel]
    rw [← written, start] at admitted ⊢
    exact ⟨wire, ⟨isVersion, isRandom, isSession, isSuite, fits⟩, ends, rfl, rfl, admitted⟩
  · rintro ⟨wire, fits, ends, rfl, rfl, admitted⟩
    have written : wire.write ++ rest = be16 wire.version ++ (wire.random ++
        (vector8 wire.sessionId ++ (be16 wire.suite ++ wire.method ::
          (writeBlock wire.extensions ++ rest)))) := by
      simp only [ServerHelloWire.write, ServerHelloWire.head, List.append_assoc, List.cons_append,
        List.nil_append]
    have start : (wire.write ++ rest).length - (writeBlock wire.extensions ++ rest).length =
        wire.head.length := by
      rw [ServerHelloWire.write, List.append_assoc, List.length_append, Nat.add_sub_cancel]
    have enough : (writeBlock wire.extensions ++ rest).length ≤ (wire.write ++ rest).length := by
      simp only [ServerHelloWire.write, List.length_append]
      omega
    refine ⟨_, _, ⟨rfl, rfl⟩, ⟨wire.version⟩, _, ⟨fits.version, written⟩, ⟨wire.random⟩, _,
      ⟨fits.random, rfl⟩, wire.sessionId, _, ⟨fits.sessionId, rfl⟩, ⟨wire.suite⟩, _,
      ⟨fits.suite, rfl⟩, ⟨wire.method⟩, _, rfl, _, _, (parseExtensions_iff enough).mpr
      ⟨wire.extensions, fits.extensions, ends, rfl, rfl, ?_⟩, ?_, rfl⟩
    · rw [start]
      exact admitted
    · rw [start]
      rfl

end ServerHello

theorem parseEncryptedExtensions_iff {base : Nat} {input rest : Bytes} {result : List Extension} :
    parseEncryptedExtensions base input = .ok (result, rest) ↔
      ∃ extensions : List Tagged, BlockFits (some extensions) ∧
        input = writeBlock (some extensions) ++ rest ∧
        result = keptOf Extension.ofTagged (fun ext => ext.extensionType.isSupported) base
          (some extensions) ∧ Extension.Admits 5 result := by
  unfold parseEncryptedExtensions
  simp only [bind_iff, remaining_iff, beU16_iff, consumedFrom_iff, take_iff, within_iff, Prod.exists,
    Extension.readsAll 5 _ _ _ _, pure_iff]
  constructor
  · rintro ⟨_, _, ⟨rfl, rfl⟩, _, _, ⟨small, rfl⟩, _, _, ⟨rfl, rfl⟩, data, _, ⟨rfl, rfl⟩, parsed⟩
    obtain ⟨_, _, _, ⟨⟨rfl, extensions, fit, rfl, rfl, admitted⟩, rfl⟩, rfl, rfl⟩ := parsed
    rw [vector_start] at admitted ⊢
    refine ⟨extensions, blockFits_some.mpr ⟨fit, small⟩, ?_, rfl, admitted⟩
    rw [writeBlock, vector16, List.append_assoc]
  · rintro ⟨extensions, fits, rfl, rfl, admitted⟩
    obtain ⟨fit, small⟩ := blockFits_some.mp fits
    have written : writeBlock (some extensions) ++ rest =
        be16 (extensions.flatMap Tagged.write).length ++
          (extensions.flatMap Tagged.write ++ rest) := by
      rw [writeBlock, vector16, List.append_assoc]
    have start := vector_start (extensions.flatMap Tagged.write) rest
    rw [← written] at start
    refine ⟨_, _, ⟨rfl, rfl⟩, _, _, ⟨small, written⟩, _, _, ⟨rfl, rfl⟩, _, _, ⟨rfl, rfl⟩, _, _, _,
      ⟨⟨rfl, extensions, fit, rfl, rfl, ?_⟩, rfl⟩, ?_, rfl⟩
    · rw [start]
      exact admitted
    · rw [start]
      rfl

namespace Certificate

/-- The value of an entry. -/
def entryOfWire (offset : Nat) (entry : EntryWire) : CertificateEntry :=
  ⟨⟨offset + 3, offset + 3 + entry.cert.length⟩,
    ⟨offset + 3 + entry.cert.length + 2,
      offset + 3 + entry.cert.length + 2 + entry.extensions.length⟩⟩

theorem parseEntry_readsAt : ReadsAt parseEntry EntryWire.Fits EntryWire.write entryOfWire := by
  intro offset input result rest
  unfold parseEntry
  simp only [bind_iff, remaining_iff, beU24_iff, beU16_iff, takeRange_iff, pure_iff]
  constructor
  · rintro ⟨_, _, ⟨rfl, rfl⟩, _, _, ⟨small, rfl⟩, _, _, ⟨cert, rfl, rfl, rfl⟩, more⟩
    obtain ⟨_, _, ⟨fits, rfl⟩, _, _, ⟨extensions, rfl, rfl, rfl⟩, rfl, rfl⟩ := more
    refine ⟨⟨cert, extensions⟩, ⟨small, fits⟩, ?_, ?_⟩
    · unfold entryOfWire
      simp only [List.length_append, length_be24, length_be16]
      congr 2 <;> omega
    · simp only [EntryWire.write, vector24, vector16, List.append_assoc]
  · rintro ⟨⟨cert, extensions⟩, ⟨small, fits⟩, rfl, rfl⟩
    have written : EntryWire.write ⟨cert, extensions⟩ ++ rest = be24 cert.length ++ (cert ++
        (be16 extensions.length ++ (extensions ++ rest))) := by
      simp only [EntryWire.write, vector24, vector16, List.append_assoc]
    refine ⟨_, _, ⟨rfl, rfl⟩, _, _, ⟨small, written⟩, _, _, ⟨cert, rfl, rfl, rfl⟩, _, _, ⟨fits, rfl⟩,
      _, _, ⟨extensions, rfl, rfl, rfl⟩, ?_, rfl⟩
    rw [written]
    unfold entryOfWire
    simp only [List.length_append, length_be24, length_be16]
    congr 2 <;> omega

/-- What is kept of a Certificate that starts at `base`. -/
def ofWire (base : Nat) (wire : CertificateWire) : Certificate where
  contextRange := ⟨base + 1, base + 1 + wire.context.length⟩
  certificateList :=
    place entryOfWire EntryWire.write (base + (4 + wire.context.length)) wire.entries

theorem parse_iff {base : Nat} {input rest : Bytes} {certificate : Certificate} :
    parse base input = .ok (certificate, rest) ↔
      ∃ wire : CertificateWire, wire.Fits ∧ wire.entries.length ≤ 32 ∧ input = wire.write ++ rest ∧
        certificate = ofWire base wire := by
  unfold parse
  simp only [bind_iff, remaining_iff, beU8_iff, takeRange_iff, beU24_iff, consumedFrom_iff, take_iff,
    within_iff, Prod.exists, foldItems_pushBounded_iff parseEntry_readsAt EntryWire.write_ne_nil,
    pure_iff]
  constructor
  · rintro ⟨_, _, ⟨rfl, rfl⟩, byte, _, rfl, _, _, ⟨context, isContext, rfl, rfl⟩, _, _,
      ⟨small, rfl⟩, list⟩
    obtain ⟨_, _, ⟨rfl, rfl⟩, data, _, ⟨rfl, rfl⟩, _, _, _, ⟨⟨rfl, entries, fit, rfl, rfl, few⟩, rfl⟩,
      rfl, rfl⟩ := list
    refine ⟨⟨context, entries⟩, ⟨isContext ▸ byte.toNat_lt, fit, small⟩, few, ?_, ?_⟩
    · simp only [CertificateWire.write, vector8_of_length isContext, vector24, List.append_assoc,
        List.cons_append]
    · unfold ofWire
      simp only [List.length_append, List.length_cons, length_be24, ← isContext]
      congr 2 <;> omega
  · rintro ⟨⟨context, entries⟩, ⟨isContext, fit, small⟩, few, rfl, rfl⟩
    have written : CertificateWire.write ⟨context, entries⟩ ++ rest =
        UInt8.ofNat context.length :: (context ++ (be24 (entries.flatMap EntryWire.write).length ++
          (entries.flatMap EntryWire.write ++ rest))) := by
      simp only [CertificateWire.write, vector8, vector24, List.append_assoc, List.cons_append]
    refine ⟨_, _, ⟨rfl, rfl⟩, _, _, written, _, _, ⟨context, (toNat_length isContext).symm, rfl, rfl⟩,
      _, _, ⟨small, rfl⟩, _, _, ⟨rfl, rfl⟩, _, _, ⟨rfl, rfl⟩, _, _, _,
      ⟨⟨rfl, entries, fit, rfl, rfl, few⟩, rfl⟩, ?_, rfl⟩
    rw [written, toNat_length isContext]
    unfold ofWire
    simp only [List.length_append, List.length_cons, length_be24]
    congr 2 <;> omega

end Certificate

theorem DigitallySigned.readsAt :
    ReadsAt DigitallySigned.parse Tagged.Fits Tagged.write (fun offset signed =>
      ⟨⟨signed.tag⟩, ⟨offset + 4, offset + 4 + signed.data.length⟩⟩) :=
  Tagged.readsAt DigitallySigned.mk (readsAt_code SignatureScheme.mk)

/-- The value of a key share. -/
def KeyShareEntry.ofTagged (offset : Nat) (share : Tagged) : KeyShareEntry :=
  ⟨⟨share.tag⟩, ⟨offset + 4, offset + 4 + share.data.length⟩⟩

theorem KeyShareEntry.readsAt :
    ReadsAt KeyShareEntry.parse Tagged.Fits Tagged.write KeyShareEntry.ofTagged :=
  Tagged.readsAt KeyShareEntry.mk (readsAt_code NamedGroup.mk)

theorem parseKeyShareClientHello_iff {base : Nat} {input rest : Bytes}
    {entries : List KeyShareEntry} :
    parseKeyShareClientHello base input = .ok (entries, rest) ↔
      rest = [] ∧ ∃ shares : List Tagged, (∀ share ∈ shares, share.Fits) ∧
        (shares.flatMap Tagged.write).length < 65536 ∧
        input = vector16 (shares.flatMap Tagged.write) ∧
        entries = (place KeyShareEntry.ofTagged Tagged.write (base + 2) shares).filter
          (fun entry => entry.group.isSupported) ∧ entries.length ≤ 4 := by
  unfold parseKeyShareClientHello
  simp only [bind_iff, remaining_iff, beU16_iff, consumedFrom_iff, take_iff, require_iff, within_iff,
    Prod.exists, foldItems_collects_iff KeyShareEntry.readsAt Tagged.write_ne_nil
      collects_pushFiltered (Nat.zero_le NamedGroup.supported.length), pure_iff, List.isEmpty_iff]
  constructor
  · rintro ⟨_, _, ⟨rfl, rfl⟩, _, _, ⟨small, rfl⟩, _, _, ⟨rfl, rfl⟩, data, _, ⟨rfl, rfl⟩, parsed⟩
    obtain ⟨_, _, ⟨rfl, rfl⟩, _, _, ⟨rfl, rfl⟩, _, _, _, ⟨⟨rfl, shares, fit, rfl, rfl, few⟩, rfl⟩,
      rfl, rfl⟩ := parsed
    rw [vector_start] at few ⊢
    refine ⟨rfl, shares, fit, small, ?_, rfl, few⟩
    rw [vector16, List.append_nil]
  · rintro ⟨rfl, shares, fit, small, rfl, rfl, few⟩
    have written : vector16 (shares.flatMap Tagged.write) =
        be16 (shares.flatMap Tagged.write).length ++ (shares.flatMap Tagged.write ++ []) := by
      rw [vector16, List.append_nil]
    have start := vector_start (shares.flatMap Tagged.write) []
    rw [← written] at start
    refine ⟨_, _, ⟨rfl, rfl⟩, _, _, ⟨small, written⟩, _, _, ⟨rfl, rfl⟩, _, _, ⟨rfl, rfl⟩, _, _,
      ⟨rfl, rfl⟩, (), _, ⟨rfl, rfl⟩, _, _, _, ⟨⟨rfl, shares, fit, rfl, rfl, ?_⟩, rfl⟩, ?_, rfl⟩
    · rw [start]
      exact few
    · rw [start]

theorem parseKeyShareServerHello_iff {base : Nat} {input rest : Bytes} {entry : KeyShareEntry} :
    parseKeyShareServerHello base input = .ok (entry, rest) ↔
      rest = [] ∧ ∃ share : Tagged, share.Fits ∧ input = share.write ∧
        entry = KeyShareEntry.ofTagged base share := by
  unfold parseKeyShareServerHello
  simp only [bind_iff, KeyShareEntry.readsAt _ _ _ _, remaining_iff, require_iff, pure_iff,
    List.isEmpty_iff]
  constructor
  · rintro ⟨_, _, ⟨share, fits, rfl, rfl⟩, _, _, ⟨rfl, rfl⟩, _, _, ⟨rfl, rfl⟩, rfl, rfl⟩
    exact ⟨rfl, share, fits, List.append_nil _, rfl⟩
  · rintro ⟨rfl, share, fits, rfl, rfl⟩
    exact ⟨_, [], ⟨share, fits, rfl, (List.append_nil _).symm⟩, _, _, ⟨rfl, rfl⟩, (), _, ⟨rfl, rfl⟩,
      rfl, rfl⟩

/-- A code point that fills the input. -/
theorem wholeCode_iff {α : Type} {make : Nat → α} {code : α → Nat} (codes : ∀ v, make (code v) = v)
    (makes : ∀ n, code (make n) = n) {input rest : Bytes} {result : α} :
    (do
      let found ← (do return make (← beU16) : Parser α)
      require (← remaining).isEmpty .lengthValue
      return found : Parser α) input = .ok (result, rest) ↔
      rest = [] ∧ code result < 65536 ∧ input = be16 (code result) := by
  rw [bind_iff]
  simp only [code_iff codes makes]
  simp only [bind_iff, remaining_iff, require_iff, pure_iff, List.isEmpty_iff]
  constructor
  · rintro ⟨_, _, ⟨small, rfl⟩, _, _, ⟨rfl, rfl⟩, _, _, ⟨rfl, rfl⟩, rfl, rfl⟩
    exact ⟨rfl, small, List.append_nil _⟩
  · rintro ⟨rfl, small, rfl⟩
    exact ⟨_, [], ⟨small, (List.append_nil _).symm⟩, _, _, ⟨rfl, rfl⟩, (), _, ⟨rfl, rfl⟩, rfl, rfl⟩

theorem parseKeyShareHelloRetryRequest_iff {input rest : Bytes} {group : NamedGroup} :
    parseKeyShareHelloRetryRequest input = .ok (group, rest) ↔
      rest = [] ∧ group.asU16 < 65536 ∧ input = be16 group.asU16 :=
  wholeCode_iff (fun _ => rfl) (fun _ => rfl)

theorem parseSupportedVersionsServerHello_iff {input rest : Bytes} {version : ProtocolVersion} :
    parseSupportedVersionsServerHello input = .ok (version, rest) ↔
      rest = [] ∧ version.asU16 < 65536 ∧ input = be16 version.asU16 :=
  wholeCode_iff (fun _ => rfl) (fun _ => rfl)

theorem parseSignatureAlgorithms_iff {input rest : Bytes} {schemes : List SignatureScheme} :
    parseSignatureAlgorithms input = .ok (schemes, rest) ↔
      rest = [] ∧ ∃ codes : List Nat, (∀ code ∈ codes, code < 65536) ∧ codes.length * 2 < 65536 ∧
        decide (codes.length * 2 ≠ 0 ∧ codes.length * 2 % 2 = 0) = true ∧
        input = vector16 (writeCodes codes) ∧
        schemes = (codes.map SignatureScheme.mk).filter SignatureScheme.isSupported ∧
        schemes.length ≤ 2 :=
  codeList_iff (readsAt_code SignatureScheme.mk)

theorem parseSupportedGroups_iff {input rest : Bytes} {groups : List NamedGroup} :
    parseSupportedGroups input = .ok (groups, rest) ↔
      rest = [] ∧ ∃ codes : List Nat, (∀ code ∈ codes, code < 65536) ∧ codes.length * 2 < 65536 ∧
        decide (codes.length * 2 % 2 = 0) = true ∧ input = vector16 (writeCodes codes) ∧
        groups = (codes.map NamedGroup.mk).filter NamedGroup.isSupported ∧ groups.length ≤ 4 :=
  codeList_iff (readsAt_code NamedGroup.mk)

theorem parseSupportedVersionsClientHello_iff {input rest : Bytes}
    {versions : List ProtocolVersion} :
    parseSupportedVersionsClientHello input = .ok (versions, rest) ↔
      rest = [] ∧ ∃ codes : List Nat, (∀ code ∈ codes, code < 65536) ∧ codes.length * 2 < 256 ∧
        codes ≠ [] ∧ input = vector8 (writeCodes codes) ∧
        versions = (codes.map ProtocolVersion.mk).filter (fun version => !version.isUnknown) ∧
        versions.length ≤ 3 :=
  codeList8_iff (readsAt_code ProtocolVersion.mk)

end Dimpl.Dtls13
