import Dimpl.Dtls12.Insertion
import Dimpl.Dtls13.Insertion

/-!
# Elements of a ClientHello that a server does not know

Cipher suites, compression methods, extensions, and elements of the lists in extensions that are not
supported may stand anywhere in a ClientHello. A server accepts it as if they were not there.
-/

namespace Dimpl

open Nom Insertion Program

/-- A ClientHello with a random value of zeros, for the examples of this file. -/
def HelloWire.bare (suites : List Nat) (methods : Bytes) (extensions : List Tagged) : HelloWire where
  version := 0xfefd
  random := List.replicate 32 0
  sessionId := []
  cookie := []
  suites := suites
  methods := methods
  extensions := some extensions

theorem HelloWire.bare_fits {suites : List Nat} {methods : Bytes} {extensions : List Tagged}
    (suite : ∀ suite ∈ suites, suite < 65536) (few : suites.length * 2 < 65536)
    (fewMethods : methods.length < 256)
    (extension : ∀ ext ∈ extensions, ext.tag < 65536 ∧ ext.data.length < 65536)
    (short : (extensions.flatMap Tagged.write).length < 65536) :
    (bare suites methods extensions).Fits where
  version := by
    change 0xfefd < 65536
    decide
  random := rfl
  sessionId := Nat.zero_le _
  cookie := Nat.zero_le _
  suite := suite
  suites := few
  methods := fewMethods
  extensions := by
    rintro _ ⟨⟩
    exact ⟨extension, short⟩

namespace Dtls13

/-- A hello for the version. -/
def plainHello : HelloWire :=
  .bare [0x1301] [0]
    [⟨43, vector8 (writeCodes [0xfefc])⟩, ⟨10, vector16 (writeCodes [0x001d])⟩]

/-- The same with an unknown suite, method, extension, version and group. -/
def greasedHello : HelloWire :=
  .bare [0x0a0a, 0x1301] [0, 64]
    [⟨0x0a0a, [1, 2, 3]⟩, ⟨43, vector8 (writeCodes [0xfefe, 0xfefc])⟩,
      ⟨10, vector16 (writeCodes [0x001d, 0x0a0a])⟩]

theorem greasedHello_widens : plainHello.Widens supports greasedHello where
  version := rfl
  random := rfl
  sessionId := rfl
  cookie := rfl
  suites := .insert rfl (.keep rfl .nil)
  methods := .keep rfl (.insert rfl .nil)
  extensions := .insert rfl (.keep (.versions (by decide) (by decide) (.insert rfl (.keep rfl .nil)))
    (.keep (.groups (by decide) (.keep rfl (.insert rfl .nil))) .nil))
  block absent := absurd absent (by decide)

end Dtls13

namespace Dtls12

/-- A hello for the version, without a list of signature algorithms that can be read. -/
def plainHello : HelloWire :=
  .bare [0xc02b] [0] [⟨23, []⟩, ⟨13, vector16 []⟩, ⟨14, SrtpWire.write ⟨[7], []⟩⟩]

/-- The same with an unknown suite, extension, algorithm and profile. -/
def greasedHello : HelloWire :=
  .bare [0x0a0a, 0xc02b] [0]
    [⟨23, []⟩, ⟨13, vector16 (writeCodes [0x0a0a])⟩, ⟨14, SrtpWire.write ⟨[7, 0x0a0a], []⟩⟩,
      ⟨0x0a0a, [1, 2, 3]⟩]

theorem greasedHello_widens : plainHello.Widens supports greasedHello where
  version := rfl
  random := rfl
  sessionId := rfl
  cookie := rfl
  suites := .insert rfl (.keep rfl .nil)
  methods := .keep rfl .nil
  extensions := .keep (.same _) (.keep (.schemes (by decide) (.insert rfl .nil))
    (.keep (.profiles ⟨by decide, by decide, by decide⟩ (.keep rfl (.insert rfl .nil)))
      (.insert rfl .nil)))
  block absent := absurd absent (by decide)

end Dtls12

end Dimpl
