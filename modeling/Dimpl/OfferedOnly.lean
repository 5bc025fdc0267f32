import Dimpl.CookieExchange
import Dimpl.Dtls12.Selection
import Dimpl.Dtls13.Exchange
import Dimpl.Dtls13.Selection

/-!
# A server and what was offered to it

Suite and profile of a server are always among those of the client. The signature is not:
a server of DTLS 1.2 whose key fits no algorithm of the client signs with that of the key,
and one of DTLS 1.3 does not look at the list at all. Its group is that of a key share,
which the client may send without the group.
-/

namespace Dimpl

open Nom Program

/-- In every run of a server, what it announces was offered by the hello it accepted: suite,
profile and the group of DTLS 1.2 always, the signature exactly where the key fits the hello
and the group of DTLS 1.3 exactly where the first share that counts does. A server of DTLS 1.3
that is called while it stands at the ServerHello, which is only after that has failed, is left
out. -/
theorem offered_only (server12 : Dtls12.Server) (calls12 : List Dtls12.Server.Call)
    (server13 : Dtls13.Server) (calls13 : List Dtls13.Server.Call) :
    (server12.Start →
      Judged (Dtls12.Server.judge server12.engine.cryptoContext.auth) Dtls12.Server.track none
        (traced Dtls12.Server.exec Dtls12.Server.choices server12 calls12)) ∧
    (server13.Start →
      Meets Dtls13.Server.exec (fun s _ => s.state ≠ .sendServerHello) server13 calls13 →
      Judged (Dtls13.Server.judge server13.engine.config server13.engine.certificate)
        Dtls13.Server.track none
        (traced Dtls13.Server.exec Dtls13.Server.choices server13 calls13)) :=
  ⟨fun start => Dtls12.Server.traced_settled start calls12,
    fun start moves => Dtls13.Server.traced_settled start calls13 moves⟩

namespace Dtls12.Server

/-- A server at its start. -/
def relaxed : Server :=
  .newWithEngine (.new Sample.config (.certificate Sample.certificate) (Sample.rng 1) (Sample.rng 7)) 0

/-- A hello that asks for RSA signatures only. -/
def rsaHello : Bytes := (Client.greeted.handsOut.set 92 1).set 94 1

/-- A hello with signature algorithms that do not contain the one, and the message it is
answered with. -/
def unoffered? (algorithm : SignatureAndHashAlgorithm) (told : Bytes) : List Choice → Bool
  | [.accepted hello buffer, .serverHello _, .keyExchange message] =>
    decide (hello.Sends .signatureAlgorithms) &&
      !decide (hello.Lists buffer .signatureAlgorithms algorithm.asU16) && message = told
  | _ => false

theorem unoffered_of_check {algorithm : SignatureAndHashAlgorithm} {told : Bytes}
    {choices : List Choice} (check : unoffered? algorithm told choices = true) :
    ∃ hello buffer first, choices = [.accepted hello buffer, .serverHello first, .keyExchange told] ∧
      ¬hello.Offers buffer .signatureAlgorithms algorithm.asU16 := by
  unfold unoffered? at check
  split at check
  · rename_i hello buffer first message
    simp only [Bool.and_eq_true, decide_eq_true_eq, Bool.not_eq_true', decide_eq_false_iff_not] at check
    obtain ⟨⟨sends, notListed⟩, rfl⟩ := check
    exact ⟨hello, buffer, first, rfl, fun offers => notListed (offers sends)⟩
  · cases check

end Dtls12.Server

namespace Dtls13.Server

/-- Two endpoints whose hello is short. -/
def unpadded : Exchange := .sample { Sample.config with mtu := 150 } Sample.certificate

/-- The first datagram of the client. -/
def greeting : Bytes :=
  (run Exchange.exec unpadded
    [.client (.handleTimeout 0), .client (.pollOutput 2000)]).fromClient.flatten

/-- A hello that asks for RSA signatures only. -/
def rsaHello : Bytes := greeting.take 101 ++ [8, 4, 8, 5] ++ greeting.drop 105

/-- A hello with signature algorithms that do not contain the one, and the message it is
answered with. -/
def unoffered? (scheme : SignatureScheme) (told : Bytes) : List Choice → Bool
  | [.accepted hello buffer, .serverHello _, .encryptedExtensions _, .certificateVerify message] =>
    decide (hello.Sends .signatureAlgorithms) &&
      !decide (hello.Lists buffer .signatureAlgorithms scheme.asU16) && message = told
  | _ => false

theorem unoffered_of_check {scheme : SignatureScheme} {told : Bytes} {choices : List Choice}
    (check : unoffered? scheme told choices = true) :
    ∃ hello buffer first second,
      choices = [.accepted hello buffer, .serverHello first, .encryptedExtensions second,
        .certificateVerify told] ∧
      ¬hello.Offers buffer .signatureAlgorithms scheme.asU16 := by
  unfold unoffered? at check
  split at check
  · rename_i hello buffer first second message
    simp only [Bool.and_eq_true, decide_eq_true_eq, Bool.not_eq_true', decide_eq_false_iff_not] at check
    obtain ⟨⟨sends, notListed⟩, rfl⟩ := check
    exact ⟨hello, buffer, first, second, rfl, fun offers => notListed (offers sends)⟩
  · cases check

end Dtls13.Server

/-- Clients that ask for RSA signatures are answered with ECDSA ones, by servers of both
versions. -/
theorem not_offered_only :
    (∃ hello buffer first signature, Dtls12.Server.relaxed.Start ∧
      traced Dtls12.Server.exec Dtls12.Server.choices Dtls12.Server.relaxed
          [.handleTimeout 0, .handlePacket Dtls12.Server.rsaHello] =
        [.accepted hello buffer, .serverHello first,
          .keyExchange (Dtls12.Header.serializeFragment ⟨.serverKeyExchange, 17, 2, 0, 17⟩
            (Dtls12.EcdhParams.serializeBytes 3 .x25519 [10] ++
              Dtls12.DigitallySigned.serializeBytes ⟨.sha256, .ecdsa⟩ signature))] ∧
      ¬hello.Offers buffer .signatureAlgorithms
        (Dtls12.SignatureAndHashAlgorithm.asU16 ⟨.sha256, .ecdsa⟩)) ∧
    ∃ hello buffer first second signature, Dtls13.Server.unpadded.server.Start ∧
      traced Dtls13.Server.exec Dtls13.Server.choices Dtls13.Server.unpadded.server
          [.handleTimeout 0, .handlePacket Dtls13.Server.rsaHello] =
        [.accepted hello buffer, .serverHello first, .encryptedExtensions second,
          .certificateVerify (Dtls13.transcriptMessage .certificateVerify
            (be16 SignatureScheme.ecdsaSecp256r1Sha256.asU16 ++ be16 signature.length ++
              signature))] ∧
      ¬hello.Offers buffer .signatureAlgorithms SignatureScheme.ecdsaSecp256r1Sha256.asU16 := by
  constructor
  · have check : Dtls12.Server.unoffered? ⟨.sha256, .ecdsa⟩
        (Dtls12.Header.serializeFragment ⟨.serverKeyExchange, 17, 2, 0, 17⟩
          (Dtls12.EcdhParams.serializeBytes 3 .x25519 [10] ++
            Dtls12.DigitallySigned.serializeBytes ⟨.sha256, .ecdsa⟩ [0, 2, 162, 73, 0, 18, 112, 0]))
        (traced Dtls12.Server.exec Dtls12.Server.choices Dtls12.Server.relaxed
          [.handleTimeout 0, .handlePacket Dtls12.Server.rsaHello]) = true := by
      decide +kernel
    obtain ⟨hello, buffer, first, isTrace, notOffered⟩ := Dtls12.Server.unoffered_of_check check
    exact ⟨hello, buffer, first, _, .fresh .., isTrace, notOffered⟩
  · have check : Dtls13.Server.unoffered? .ecdsaSecp256r1Sha256
        (Dtls13.transcriptMessage .certificateVerify
          (be16 SignatureScheme.ecdsaSecp256r1Sha256.asU16 ++ be16 8 ++
            [0, 12, 111, 134, 0, 87, 12, 171]))
        (traced Dtls13.Server.exec Dtls13.Server.choices Dtls13.Server.unpadded.server
          [.handleTimeout 0, .handlePacket Dtls13.Server.rsaHello]) = true := by
      decide +kernel
    obtain ⟨hello, buffer, first, second, isTrace, notOffered⟩ := Dtls13.Server.unoffered_of_check check
    exact ⟨hello, buffer, first, second, _, .fresh .., isTrace, notOffered⟩

end Dimpl
