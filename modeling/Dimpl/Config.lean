import Dimpl.Crypto
import Dimpl.Lib.Search

/-!
# Configuration, randomness and timers

Time is counted in nanoseconds. Randomness is a stream of numbers that the
generator consumes in order, so a statement about all streams is one about
every value the generator may return.
-/

namespace Dimpl

open Nom

/-- A duration in nanoseconds. -/
abbrev Duration := Nat

/-- A point in time in nanoseconds. -/
abbrev Instant := Nat

/-- `Psk`: whether this side has an identity to present or a hint to offer,
and how it finds keys. -/
inductive Psk where
  | client (identity : Bytes) (resolve : Bytes → Option Bytes)
  | server (hint : Option Bytes) (resolve : Bytes → Option Bytes)

/-- The settings of `Config`. `dequeSearch` is the standard library's search in
a deque: its answer on an unsorted one is unspecified, so it is a parameter. -/
structure Config where
  mtu : Nat
  maxQueueRx : Nat
  maxQueueTx : Nat
  requireClientCertificate : Bool
  useServerCookie : Bool
  flightStartRto : Duration
  flightRetries : Nat
  handshakeTimeout : Duration
  cryptoProvider : CryptoProvider
  aeadEncryptionLimit : Nat
  dtls12CipherSuiteFilter : Option (List Dtls12CipherSuite)
  dtls13CipherSuiteFilter : Option (List Dtls13CipherSuite)
  kxGroupFilter : Option (List NamedGroup)
  psk : Option Psk
  dequeSearch : Search.DequeSearch

namespace Config

/-- Keeps what an optional filter list allows. -/
def allowed {α : Type} [BEq α] (filter : Option (List α)) (value : α) : Bool :=
  match filter with
  | some list => list.contains value
  | none => true

/-- `Config::dtls12_cipher_suites`. -/
def dtls12CipherSuites (config : Config) : List SupportedDtls12CipherSuite :=
  ((config.cryptoProvider.cipherSuites.filter fun cs => cs.suite.isSupported).filter
    fun cs => allowed config.dtls12CipherSuiteFilter cs.suite).filter
    fun cs => config.psk.isSome || !cs.suite.isPsk

/-- `Config::dtls13_cipher_suites`. -/
def dtls13CipherSuites (config : Config) : List SupportedDtls13CipherSuite :=
  config.cryptoProvider.dtls13CipherSuites.filter
    fun cs => allowed config.dtls13CipherSuiteFilter cs.suite

/-- `Config::kx_groups`. -/
def kxGroups (config : Config) : List SupportedKxGroup :=
  config.cryptoProvider.supportedKxGroups.filter fun kx => allowed config.kxGroupFilter kx.name

/-- `Config::psk_identity`. -/
def pskIdentity (config : Config) : Option Bytes :=
  match config.psk with
  | some (.client identity _) => some identity
  | _ => none

/-- `Config::psk_identity_hint`. -/
def pskIdentityHint (config : Config) : Option Bytes :=
  match config.psk with
  | some (.server hint _) => hint
  | _ => none

/-- `Config::psk_resolver`. -/
def pskResolver (config : Config) : Option (Bytes → Option Bytes) :=
  match config.psk with
  | some (.client _ resolve) => some resolve
  | some (.server _ resolve) => some resolve
  | none => none

end Config

/-- A certificate and the loaded private key. -/
structure DtlsCertificate where
  certificate : Bytes
  signingKey : SigningKey

/-- A generator: the numbers it will return and how many it has returned. -/
structure SeededRng where
  stream : Nat → Nat
  position : Nat

namespace SeededRng

/-- The next number, reduced below the bound. -/
def random (rng : SeededRng) (bound : Nat) : Nat × SeededRng :=
  (rng.stream rng.position % bound, { rng with position := rng.position + 1 })

/-- The next `count` bytes. -/
def randomBytes (rng : SeededRng) (count : Nat) : Bytes × SeededRng :=
  ((List.range count).map fun i => UInt8.ofNat (rng.stream (rng.position + i)),
    { rng with position := rng.position + count })

end SeededRng

/-- `ExponentialBackoff`: the current timeout, its jitter in nanoseconds and the
retries left. -/
structure ExponentialBackoff where
  startRto : Duration
  retries : Nat
  baseRto : Duration
  jitter : Int
  left : Nat

namespace ExponentialBackoff

/-- A draw between minus and plus a quarter of a second. -/
def drawJitter (rng : SeededRng) : Int × SeededRng :=
  let (value, rng) := rng.random 500000000
  ((value : Int) - 250000000, rng)

/-- `ExponentialBackoff::new`. -/
def new (startRto : Duration) (retries : Nat) (rng : SeededRng) : ExponentialBackoff × SeededRng :=
  let (jitter, rng) := drawJitter rng
  ({ startRto, retries, baseRto := startRto, jitter, left := retries }, rng)

/-- `ExponentialBackoff::reset`. -/
def reset (backoff : ExponentialBackoff) (rng : SeededRng) : ExponentialBackoff × SeededRng :=
  let (jitter, rng) := drawJitter rng
  ({ backoff with baseRto := backoff.startRto, jitter, left := backoff.retries }, rng)

/-- The jittered timeout, at least 50 milliseconds. -/
def rto (backoff : ExponentialBackoff) : Duration :=
  max ((backoff.baseRto : Int) + backoff.jitter).toNat 50000000

theorem rto_pos (backoff : ExponentialBackoff) : 0 < backoff.rto :=
  Nat.lt_of_lt_of_le (by decide) (Nat.le_max_right _ _)

/-- `ExponentialBackoff::attempt`: doubles the timeout while retries are left. -/
def attempt (backoff : ExponentialBackoff) (rng : SeededRng) : ExponentialBackoff × SeededRng :=
  if backoff.left = 0 then (backoff, rng)
  else
    let (jitter, rng) := drawJitter rng
    ({ backoff with left := backoff.left - 1, jitter, baseRto := backoff.baseRto * 2 }, rng)

/-- Whether a retry is left. -/
def canRetry (backoff : ExponentialBackoff) : Bool := 0 < backoff.left

end ExponentialBackoff

/-- A timer of the engine. -/
inductive Timeout where
  | disabled
  | unarmed
  | armed (deadline : Instant)
  deriving DecidableEq

/-- Ten years, the timeout reported when no timer is set. -/
def distantFuture : Duration := 10 * 365 * 24 * 60 * 60 * 1000000000

/-- An event a call to `poll_output` reports. -/
inductive Output where
  | packet (data : Bytes)
  | timeout (at_ : Instant)
  | connected
  | peerCert (certificate : Bytes)
  | keyingMaterial (material : Bytes) (profile : SrtpProfile)
  | applicationData (data : Bytes)
  | closeNotify
  deriving DecidableEq

end Dimpl
