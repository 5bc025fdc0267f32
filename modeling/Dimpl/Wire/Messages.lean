import Dimpl.Wire.Blocks

/-!
# Messages on the wire

What stands in the messages both versions share and how it is written. What a parser keeps of a
message is said of these.
-/

namespace Dimpl

open Nom

/-- What stands in a ClientHello. -/
structure HelloWire where
  version : Nat
  random : Bytes
  sessionId : Bytes
  cookie : Bytes
  suites : List Nat
  methods : Bytes
  extensions : Option (List Tagged)
  deriving DecidableEq, Repr

namespace HelloWire

/-- Every number and every length fits its field. -/
structure Fits (hello : HelloWire) : Prop where
  version : hello.version < 65536
  random : hello.random.length = 32
  sessionId : hello.sessionId.length ≤ 32
  cookie : hello.cookie.length ≤ 255
  suite : ∀ suite ∈ hello.suites, suite < 65536
  suites : hello.suites.length * 2 < 65536
  methods : hello.methods.length < 256
  extensions : BlockFits hello.extensions

/-- Only supported elements, and a block that is absent or not empty. -/
structure Plain (suite extension : Nat → Bool) (hello : HelloWire) : Prop where
  suites : ∀ code ∈ hello.suites, suite code = true
  methods : ∀ method ∈ hello.methods, CompressionMethod.isSupported ⟨method⟩ = true
  extensions : BlockPlain extension hello.extensions

/-- A message that fits, with supported and distinct elements, at least one where the grammar wants
one. -/
structure Holds (suite extension : Nat → Bool) (hello : HelloWire) : Prop where
  fits : hello.Fits
  plain : hello.Plain suite extension
  suites : hello.suites.Nodup
  someSuite : hello.suites ≠ []
  methods : hello.methods.Nodup
  someMethod : hello.methods ≠ []
  extensions : BlockDistinct hello.extensions

/-- The fields in front of the extensions. -/
def head (hello : HelloWire) : Bytes :=
  be16 hello.version ++ (hello.random ++ (vector8 hello.sessionId ++ (vector8 hello.cookie ++
    (vector16 (writeCodes hello.suites) ++ vector8 hello.methods))))

/-- The bytes of a ClientHello. -/
def write (hello : HelloWire) : Bytes := hello.head ++ writeBlock hello.extensions

end HelloWire

/-- What stands in a ServerHello. -/
structure ServerHelloWire where
  version : Nat
  random : Bytes
  sessionId : Bytes
  suite : Nat
  method : UInt8
  extensions : Option (List Tagged)
  deriving DecidableEq, Repr

namespace ServerHelloWire

/-- Every number and every length fits its field. -/
structure Fits (hello : ServerHelloWire) : Prop where
  version : hello.version < 65536
  random : hello.random.length = 32
  sessionId : hello.sessionId.length ≤ 32
  suite : hello.suite < 65536
  extensions : BlockFits hello.extensions

/-- Only supported extensions, and a block that is absent or not empty. -/
def Plain (extension : Nat → Bool) (hello : ServerHelloWire) : Prop :=
  BlockPlain extension hello.extensions

/-- A message that fits, with as many distinct and supported extensions as there is room for. -/
structure Holds (extension : Nat → Bool) (capacity : Nat) (hello : ServerHelloWire) : Prop where
  fits : hello.Fits
  plain : hello.Plain extension
  extensions : BlockDistinct hello.extensions
  capacity : (hello.extensions.getD []).length ≤ capacity

/-- The fields in front of the extensions. -/
def head (hello : ServerHelloWire) : Bytes :=
  be16 hello.version ++ (hello.random ++ (vector8 hello.sessionId ++ (be16 hello.suite ++
    [hello.method])))

/-- The bytes of a ServerHello. -/
def write (hello : ServerHelloWire) : Bytes := hello.head ++ writeBlock hello.extensions

end ServerHelloWire

/-- A certificate and the extensions behind it. -/
structure EntryWire where
  cert : Bytes
  extensions : Bytes
  deriving DecidableEq, Repr

namespace EntryWire

/-- Both lengths fit. -/
def Fits (entry : EntryWire) : Prop :=
  entry.cert.length < 16777216 ∧ entry.extensions.length < 65536

/-- The bytes of an entry. -/
def write (entry : EntryWire) : Bytes := vector24 entry.cert ++ vector16 entry.extensions

theorem write_ne_nil (entry : EntryWire) (_ : entry.Fits) : entry.write ≠ [] := List.cons_ne_nil _ _

end EntryWire

/-- What stands in a Certificate with a request context. -/
structure CertificateWire where
  context : Bytes
  entries : List EntryWire
  deriving DecidableEq, Repr

namespace CertificateWire

/-- Every length fits its field. -/
structure Fits (certificate : CertificateWire) : Prop where
  context : certificate.context.length < 256
  entry : ∀ entry ∈ certificate.entries, entry.Fits
  entries : (certificate.entries.flatMap EntryWire.write).length < 16777216

/-- The bytes of a Certificate. -/
def write (certificate : CertificateWire) : Bytes :=
  vector8 certificate.context ++ vector24 (certificate.entries.flatMap EntryWire.write)

end CertificateWire

/-- What stands in a ServerKeyExchange. -/
inductive ExchangeWire where
  | ecdh (curveType : UInt8) (group : Nat) (publicKey : Bytes) (signature : Option Tagged)
  | psk (hint : Bytes)
  deriving DecidableEq, Repr

namespace ExchangeWire

/-- Every number and every length fits its field. -/
def Fits : ExchangeWire → Prop
  | .ecdh _ group publicKey signature =>
      group < 65536 ∧ publicKey.length < 256 ∧ ∀ signed ∈ signature, signed.Fits
  | .psk hint => hint.length < 65536

/-- The bytes of a signature, when there is one. -/
def writeSignature : Option Tagged → Bytes
  | none => []
  | some signed => signed.write

/-- The bytes of a ServerKeyExchange, its signature last. -/
def write : ExchangeWire → Bytes
  | .ecdh curveType group publicKey signature =>
      curveType :: (be16 group ++ (vector8 publicKey ++ writeSignature signature))
  | .psk hint => vector16 hint

end ExchangeWire

/-- What stands in a ClientKeyExchange. -/
inductive ClientKeyWire where
  | ecdh (publicKey : Bytes)
  | psk (identity : Bytes)
  deriving DecidableEq, Repr

namespace ClientKeyWire

/-- The length fits its field. -/
def Fits : ClientKeyWire → Prop
  | .ecdh publicKey => publicKey.length < 256
  | .psk identity => identity.length < 65536

/-- The bytes of a ClientKeyExchange. -/
def write : ClientKeyWire → Bytes
  | .ecdh publicKey => vector8 publicKey
  | .psk identity => vector16 identity

end ClientKeyWire

/-- What stands in a CertificateRequest. -/
structure RequestWire where
  types : Bytes
  algorithms : List Nat
  authorities : List Bytes
  deriving DecidableEq, Repr

namespace RequestWire

/-- A distinguished name is not empty. -/
def NameFits (name : Bytes) : Prop := 1 ≤ name.length ∧ name.length < 65536

/-- Every number and every length fits its field. -/
structure Fits (request : RequestWire) : Prop where
  types : request.types.length < 256
  algorithm : ∀ algorithm ∈ request.algorithms, algorithm < 65536
  algorithms : request.algorithms.length * 2 < 65536
  authority : ∀ name ∈ request.authorities, NameFits name
  authorities : (request.authorities.flatMap vector16).length < 65536

/-- The bytes of a CertificateRequest. -/
def write (request : RequestWire) : Bytes :=
  vector8 request.types ++ (vector16 (writeCodes request.algorithms) ++
    vector16 (request.authorities.flatMap vector16))

end RequestWire

end Dimpl
