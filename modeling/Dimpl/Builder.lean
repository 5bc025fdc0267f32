import Dimpl.Config
import Dimpl.Sample

/-!
# Building a configuration

The checks of `ConfigBuilder::build`. They count suites and groups through filters of their own, and
what they let pass is what the accessors of the configuration hand out.
-/

namespace Dimpl

open Nom

/-- Why a provider does not fit; `vectors` stands for the tests with known answers. -/
inductive CryptoProviderValidationError where
  | noCipherSuites
  | ecdhCipherSuitesWithoutKeyExchangeGroups
  | noDtls13CipherSuites
  | vectors (code : Nat)
  deriving DecidableEq

/-- Why a configuration is refused. -/
inductive ConfigError where
  | mtuTooSmall (mtu minimum : Nat)
  | aeadEncryptionLimitTooSmall
  | noCipherSuitesAfterFiltering
  | pskConfiguredWithoutPskCipherSuite
  | noDtls12KeyExchangeGroupsAfterFiltering
  | noDtls13KeyExchangeGroupsAfterFiltering
  | cryptoProvider (reason : CryptoProviderValidationError)
  deriving DecidableEq

/-- The tests of a provider against known answers: those of hashes, PRF, signatures and HMAC, and those
of HKDF, AEAD, record numbers and key exchange. -/
structure KnownAnswers where
  dtls12 : CryptoProvider → Except CryptoProviderValidationError Unit
  dtls13 : CryptoProvider → Except CryptoProviderValidationError Unit

namespace CryptoProvider

/-- `supported_cipher_suites`. -/
def supportedCipherSuites (provider : CryptoProvider) : List SupportedDtls12CipherSuite :=
  provider.cipherSuites.filter fun cs => cs.suite.isSupported

/-- `validate_cipher_suites`. -/
def validateCipherSuites (provider : CryptoProvider) : Except CryptoProviderValidationError Unit :=
  if provider.supportedCipherSuites.length = 0 then .error .noCipherSuites else .ok ()

/-- `validate_kx_groups`. -/
def validateKxGroups (provider : CryptoProvider) : Except CryptoProviderValidationError Unit :=
  if provider.hasEcdh then
    if provider.supportedKxGroups.length = 0 then .error .ecdhCipherSuitesWithoutKeyExchangeGroups
    else .ok ()
  else .ok ()

/-- `validate_dtls13_cipher_suites`, without the test of HKDF. -/
def validateDtls13CipherSuites (provider : CryptoProvider) : Except CryptoProviderValidationError Unit :=
  if provider.dtls13CipherSuites.isEmpty then .error .noDtls13CipherSuites else .ok ()

/-- `validate`. -/
def validate (provider : CryptoProvider) (answers : KnownAnswers) :
    Except CryptoProviderValidationError Unit := do
  provider.validateCipherSuites
  provider.validateKxGroups
  answers.dtls12 provider
  provider.validateDtls13CipherSuites
  answers.dtls13 provider

end CryptoProvider

/-- The settings of a `ConfigBuilder`. -/
structure ConfigBuilder where
  mtu : Nat
  maxQueueRx : Nat
  maxQueueTx : Nat
  requireClientCertificate : Bool
  useServerCookie : Bool
  flightStartRto : Duration
  flightRetries : Nat
  handshakeTimeout : Duration
  cryptoProvider : Option CryptoProvider
  aeadEncryptionLimit : Nat
  dtls12CipherSuites : Option (List Dtls12CipherSuite)
  dtls13CipherSuites : Option (List Dtls13CipherSuite)
  kxGroups : Option (List NamedGroup)
  psk : Option Psk

/-- `Config::builder`: the defaults. -/
def Config.builder : ConfigBuilder where
  mtu := 1150
  maxQueueRx := 30
  maxQueueTx := 10
  requireClientCertificate := true
  useServerCookie := true
  flightStartRto := 1000000000
  flightRetries := 4
  handshakeTimeout := 40000000000
  cryptoProvider := none
  aeadEncryptionLimit := 2 ^ 23
  dtls12CipherSuites := none
  dtls13CipherSuites := none
  kxGroups := none
  psk := none

namespace ConfigBuilder

/-- The provider of the builder, or the one that is installed. -/
def provider (builder : ConfigBuilder) (installed : CryptoProvider) : CryptoProvider :=
  builder.cryptoProvider.getD installed

/-- The configuration of the settings, checked or not. -/
def config (builder : ConfigBuilder) (installed : CryptoProvider) (dequeSearch : Search.DequeSearch) :
    Config where
  mtu := builder.mtu
  maxQueueRx := builder.maxQueueRx
  maxQueueTx := builder.maxQueueTx
  requireClientCertificate := builder.requireClientCertificate
  useServerCookie := builder.useServerCookie
  flightStartRto := builder.flightStartRto
  flightRetries := builder.flightRetries
  handshakeTimeout := builder.handshakeTimeout
  cryptoProvider := builder.provider installed
  aeadEncryptionLimit := builder.aeadEncryptionLimit
  dtls12CipherSuiteFilter := builder.dtls12CipherSuites
  dtls13CipherSuiteFilter := builder.dtls13CipherSuites
  kxGroupFilter := builder.kxGroups
  psk := builder.psk
  dequeSearch := dequeSearch

/-- The DTLS 1.2 suites that `build` looks at. -/
def dtls12Suites (builder : ConfigBuilder) (provider : CryptoProvider) : List SupportedDtls12CipherSuite :=
  match builder.dtls12CipherSuites with
  | some list =>
    (provider.supportedCipherSuites.filter fun cs => list.contains cs.suite).filter
      fun cs => builder.psk.isSome || !cs.suite.isPsk
  | none => provider.supportedCipherSuites.filter fun cs => builder.psk.isSome || !cs.suite.isPsk

/-- How many DTLS 1.3 suites `build` counts. -/
def dtls13Count (builder : ConfigBuilder) (provider : CryptoProvider) : Nat :=
  match builder.dtls13CipherSuites with
  | some list => (provider.dtls13CipherSuites.filter fun cs => list.contains cs.suite).length
  | none => provider.dtls13CipherSuites.length

/-- The filter of groups that `build` counts through. -/
def filteredKx (builder : ConfigBuilder) (kx : SupportedKxGroup) : Bool :=
  match builder.kxGroups with
  | some list => list.contains kx.name
  | none => true

/-- How many groups `build` counts, for either version. -/
def kxCount (builder : ConfigBuilder) (provider : CryptoProvider) : Nat :=
  (provider.supportedKxGroups.filter builder.filteredKx).length

/-- A check of `build`: an error where it does not hold. -/
def refuse (refused : Bool) (reason : ConfigError) : Except ConfigError Unit :=
  if refused then .error reason else .ok ()

/-- `ConfigBuilder::build`, where some provider is set or installed. -/
def build (builder : ConfigBuilder) (answers : KnownAnswers) (installed : CryptoProvider)
    (dequeSearch : Search.DequeSearch) : Except ConfigError Config := do
  let provider := builder.provider installed
  (provider.validate answers).mapError .cryptoProvider
  refuse (builder.mtu < 64) (.mtuTooSmall (builder.mtu % 65536) 64)
  refuse (builder.aeadEncryptionLimit = 0) .aeadEncryptionLimitTooSmall
  let hasPsk := builder.psk.isSome
  let dtls12Suites := builder.dtls12Suites provider
  let dtls12Count := dtls12Suites.length
  let dtls13Count := builder.dtls13Count provider
  refuse (dtls12Count + dtls13Count = 0) .noCipherSuitesAfterFiltering
  refuse (hasPsk && !dtls12Suites.any fun cs => cs.suite.isPsk) .pskConfiguredWithoutPskCipherSuite
  let hasNonPskDtls12 := dtls12Suites.any fun cs => !cs.suite.isPsk
  refuse (hasNonPskDtls12 && builder.kxCount provider = 0) .noDtls12KeyExchangeGroupsAfterFiltering
  refuse (dtls13Count > 0 && builder.kxCount provider = 0) .noDtls13KeyExchangeGroupsAfterFiltering
  return builder.config installed dequeSearch

end ConfigBuilder

/-- A configuration that can be used: some version has suites, PSK suites are there exactly if there is
a PSK, whatever needs a key exchange has groups, and the limits are not too small. -/
structure Config.Usable (config : Config) : Prop where
  suites : config.dtls12CipherSuites ≠ [] ∨ config.dtls13CipherSuites ≠ []
  onlyPsk : (∃ cs ∈ config.dtls12CipherSuites, cs.suite.isPsk) → config.psk.isSome
  somePsk : config.psk.isSome → ∃ cs ∈ config.dtls12CipherSuites, cs.suite.isPsk
  groups : (config.dtls13CipherSuites ≠ [] ∨ ∃ cs ∈ config.dtls12CipherSuites, ¬cs.suite.isPsk) →
    config.kxGroups ≠ []
  mtu : 64 ≤ config.mtu
  limit : 1 ≤ config.aeadEncryptionLimit

section Building

variable {builder : ConfigBuilder} {answers : KnownAnswers} {installed : CryptoProvider}
  {dequeSearch : Search.DequeSearch}

/-- The suites that are checked are those that are handed out. -/
theorem dtls12Suites_eq : builder.dtls12Suites (builder.provider installed) =
    (builder.config installed dequeSearch).dtls12CipherSuites := by
  unfold ConfigBuilder.dtls12Suites Config.dtls12CipherSuites Config.allowed ConfigBuilder.config
  dsimp only
  cases builder.dtls12CipherSuites <;> simp [CryptoProvider.supportedCipherSuites]

theorem dtls13Count_eq : builder.dtls13Count (builder.provider installed) =
    (builder.config installed dequeSearch).dtls13CipherSuites.length := by
  unfold ConfigBuilder.dtls13Count Config.dtls13CipherSuites Config.allowed ConfigBuilder.config
  dsimp only
  cases builder.dtls13CipherSuites <;> simp

theorem kxCount_eq : builder.kxCount (builder.provider installed) =
    (builder.config installed dequeSearch).kxGroups.length := by
  unfold ConfigBuilder.kxCount Config.kxGroups ConfigBuilder.config
  congr 2
  funext kx
  unfold ConfigBuilder.filteredKx Config.allowed
  cases builder.kxGroups <;> rfl

theorem refuse_eq_ok {refused : Bool} {reason : ConfigError} :
    ConfigBuilder.refuse refused reason = .ok () ↔ refused = false := by
  cases refused <;> simp [ConfigBuilder.refuse]

/-- Checks one after the other succeed where each of them does. -/
theorem bind_eq_ok {ε α : Type} {check : Except ε Unit} {rest : Except ε α} {result : α} :
    (check >>= fun _ => rest) = .ok result ↔ check = .ok () ∧ rest = .ok result := by
  cases check with
  | error err => simp [bind, Except.bind]
  | ok _ => simp [bind, Except.bind]

/-- What `build` returns is the configuration of its settings, where that is usable. -/
theorem build_eq_ok (valid : (builder.provider installed).validate answers = .ok ()) {config : Config} :
    builder.build answers installed dequeSearch = .ok config ↔
      (builder.config installed dequeSearch).Usable ∧ config = builder.config installed dequeSearch := by
  have isMtu : (builder.config installed dequeSearch).mtu = builder.mtu := rfl
  have isLimit : (builder.config installed dequeSearch).aeadEncryptionLimit = builder.aeadEncryptionLimit := rfl
  have isPsk : (builder.config installed dequeSearch).psk = builder.psk := rfl
  -- A PSK suite is handed out only where there is a PSK.
  have onlyPsk : (∃ cs ∈ (builder.config installed dequeSearch).dtls12CipherSuites, cs.suite.isPsk = true) →
      (builder.config installed dequeSearch).psk.isSome := by
    rintro ⟨cs, member, isPsk⟩
    have allowed := (List.mem_filter.mp member).2
    simpa [isPsk] using allowed
  unfold ConfigBuilder.build
  simp only [valid, Except.mapError, bind_eq_ok, refuse_eq_ok, true_and, pure, Except.pure, Except.ok.injEq,
    @dtls12Suites_eq builder installed dequeSearch, @dtls13Count_eq builder installed dequeSearch,
    @kxCount_eq builder installed dequeSearch]
  generalize builder.config installed dequeSearch = built at *
  constructor
  · rintro ⟨mtu, limit, suites, psk, groups12, groups13, rfl⟩
    refine ⟨⟨?_, onlyPsk, ?_, ?_, ?_, ?_⟩, rfl⟩
    · rw [decide_eq_false_iff_not] at suites
      rw [← List.length_pos_iff, ← List.length_pos_iff]
      omega
    · intro isSome
      rw [isPsk] at isSome
      simpa [isSome] using psk
    · rintro (some | ⟨cs, member, notPsk⟩) none
      · rw [none] at groups13
        simp only [List.length_nil, decide_true, Bool.and_true, decide_eq_false_iff_not] at groups13
        exact groups13 (List.length_pos_iff.mpr some)
      · simp only [none, List.length_nil, decide_true, Bool.and_true, List.any_eq_false] at groups12
        exact groups12 cs member (by simpa using notPsk)
    · rw [decide_eq_false_iff_not] at mtu
      omega
    · rw [decide_eq_false_iff_not] at limit
      omega
  · rintro ⟨usable, rfl⟩
    refine ⟨?_, ?_, ?_, ?_, ?_, ?_, rfl⟩
    · have := usable.mtu
      simp
      omega
    · have := usable.limit
      simp
      omega
    · have some := usable.suites
      rw [← List.length_pos_iff, ← List.length_pos_iff] at some
      simp only [decide_eq_false_iff_not]
      omega
    · cases isSome : builder.psk.isSome with
      | false => rfl
      | true =>
          obtain ⟨cs, member, isPsk⟩ := usable.somePsk (by rw [isPsk, isSome])
          simp only [Bool.true_and, Bool.not_eq_false', List.any_eq_true]
          exact ⟨cs, member, isPsk⟩
    · by_cases none : config.kxGroups = []
      · have noSuite := fun cs member notPsk => usable.groups (.inr ⟨cs, member, notPsk⟩) none
        simp only [none, List.length_nil, decide_true, Bool.and_true, List.any_eq_false]
        intro cs member
        have isPsk := noSuite cs member
        simpa using isPsk
      · simp [none]
    · by_cases none : config.kxGroups = []
      · have noSuite : config.dtls13CipherSuites = [] := by
          by_contra some
          exact usable.groups (.inl some) none
        simp [none, noSuite]
      · simp [none]

/-- `build` refuses its settings exactly where what it would return could not be used. -/
theorem build_usable (builder : ConfigBuilder) (answers : KnownAnswers) (installed : CryptoProvider)
    (dequeSearch : Search.DequeSearch) (valid : (builder.provider installed).validate answers = .ok ()) :
    (∀ config, builder.build answers installed dequeSearch = .ok config → config.Usable) ∧
      ((∃ reason, builder.build answers installed dequeSearch = .error reason) ↔
        ¬(builder.config installed dequeSearch).Usable) := by
  refine ⟨fun config built => ?_, ?_⟩
  · obtain ⟨usable, rfl⟩ := (build_eq_ok valid).mp built
    exact usable
  · constructor
    · rintro ⟨reason, refused⟩ usable
      have built := (build_eq_ok valid).mpr ⟨usable, rfl⟩
      cases refused.symm.trans built
    · intro unusable
      cases outcome : builder.build answers installed dequeSearch with
      | error reason => exact ⟨reason, rfl⟩
      | ok config => exact absurd ((build_eq_ok valid).mp outcome).1 unusable

end Building

theorem build_usable_sample :
    (∀ config, Config.builder.build ⟨fun _ => .ok (), fun _ => .ok ()⟩ Sample.provider .linear = .ok config →
      config.Usable) ∧
      ((∃ reason, Config.builder.build ⟨fun _ => .ok (), fun _ => .ok ()⟩ Sample.provider .linear =
          .error reason) ↔
        ¬(Config.builder.config Sample.provider .linear).Usable) :=
  build_usable Config.builder ⟨fun _ => .ok (), fun _ => .ok ()⟩ Sample.provider .linear (by decide)

end Dimpl
