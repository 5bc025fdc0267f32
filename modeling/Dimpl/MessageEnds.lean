import Dimpl.Dtls12.Bodies
import Dimpl.Dtls13.Bodies
import Dimpl.Dtls13.Engine.Authenticity

/-!
# Messages that end with their form

Whether a handshake message is taken only where the parser of its type uses up its body. The bytes
behind what a parser reads are part of the transcript, and nothing else reads them.
-/

namespace Dimpl

open Nom

/-- A Certificate without certificates in one fragment, with one byte behind it. -/
def overlongCertificate : Dtls13.Fragment × Bytes :=
  ({ header :=
       { msgType := .certificate, length := 5, messageSeq := 0, fragmentOffset := 0
         fragmentLength := 5 }
     range := ⟨0, 5⟩
     handled := false }, [0, 0, 0, 0, 7])

end Dimpl
