import Dimpl.Dtls12.Gating
import Dimpl.PeerAuthentication
import Dimpl.LocalPolicy

/-!
# Only a known key connects

A server with pre-shared keys answers an identity it does not know as one it knows, so that nobody
learns from the answer which identities there are. The difference is made at the end: over all runs
the server connects only with a key that its resolver has for an identity that came in.
-/

namespace Dimpl

open Nom Program

/-- A server that uses a pre-shared key has made up its mind about the key when it waits for the
client's Finished, and when it has connected the master secret was made from a key that its resolver
has for an identity that came in, and the client's Finished was over that secret. -/
theorem psk_gated (s : Dtls12.Server) (reached : s.Reached) (usesPsk : s.UsesPsk) :
    (s.state = .awaitFinished → s.pskValid.isSome = true) ∧
      (s.Connected → ∃ psk, s.Resolved psk ∧ s.engine.SecretFrom psk ∧
        Dtls12.FinishedMatched true s.log s.engine) := by
  have gate := reached.gate
  constructor
  · intro waits
    obtain ⟨psk, valid, isValid, -⟩ := gate.agreed (by rw [waits]; rfl) usesPsk
    rw [isValid]
    rfl
  · intro connected
    have verified := connected.verified reached
    have known : s.Secured ∧ s.pskValid ≠ some false := by
      rcases connected with isState | told
      · exact ⟨gate.agreed (by rw [isState]; rfl) usesPsk, gate.accepted (by rw [isState]; rfl)⟩
      · obtain ⟨agreed, valid⟩ := gate.told told
        exact ⟨agreed usesPsk, valid⟩
    obtain ⟨⟨psk, valid, isValid, secret, resolved⟩, notInvalid⟩ := known
    have isTrue : valid = true := by
      cases valid with
      | true => rfl
      | false => exact absurd isValid notInvalid
    exact ⟨psk, resolved isTrue, secret, verified.2⟩

namespace Dtls12

/-- A configuration for a pre-shared key. -/
def keyed (psk : Psk) : Config :=
  { Sample.config with
    cryptoProvider := { Sample.provider with cipherSuites := [Sample.suite12 .pskAes128Ccm8 8] }
    psk := some psk }

/-- The key of the one identity there is. -/
def keyOf (identity : Bytes) : Option Bytes := if identity = [7, 7] then some [1, 2, 3, 4] else none

/-- A client with an identity and a key, when it has sent its hello. -/
def Client.presenting (identity key : Bytes) : Client :=
  (newWithEngine (.new (keyed (.client identity fun _ => some key)) .psk (Sample.rng 1)
    (Sample.rng 7)) 0).exec (.handleTimeout 0)

/-- A server with one key at its start. -/
def Server.keyed : Server :=
  .newWithEngine (.new (Dtls12.keyed (.server none keyOf)) .psk (Sample.rng 3) (Sample.rng 9)) 0

/-- The server when it has got the hello. -/
def Server.greeted (identity key : Bytes) : Server :=
  (Server.keyed.exec (.handleTimeout 0)).exec (.handlePacket (Client.presenting identity key).handsOut)

/-- The client when it has got the answer. -/
def Client.answering (identity key : Bytes) : Client :=
  ((Client.presenting identity key).exec (.pollOutput 2000)).exec
    (.handlePacket (Server.greeted identity key).handsOut)

/-- The server when it has got the client's last flight. -/
def Server.judging (identity key : Bytes) : Server :=
  ((Server.greeted identity key).exec (.pollOutput 2000)).exec
    (.handlePacket (Client.answering identity key).handsOut)

theorem Server.judging_reached (identity key : Bytes) : (judging identity key).Reached := by
  have start : keyed.Reached := ⟨_, [], .fresh .., rfl⟩
  have greeted : (greeted identity key).Reached :=
    (start.exec (.handleTimeout 0)).exec (.handlePacket (Client.presenting identity key).handsOut)
  exact (greeted.exec (.pollOutput 2000)).exec (.handlePacket (Client.answering identity key).handsOut)

/-- The key the server draws for an identity it does not know. -/
def drawn : Bytes := (List.range 32).map fun i => UInt8.ofNat (65 + i)

end Dtls12

/-- With its identity and key a client connects. With an unknown identity it does not, although it
guesses the key that the server draws. -/
theorem psk_gated_known :
    (∃ psk, (Dtls12.Server.judging [7, 7] [1, 2, 3, 4]).Resolved psk) ∧
      (Dtls12.Server.judging [7, 8] Dtls12.drawn).state = .awaitFinished := by
  have runs : (Dtls12.Server.judging [7, 7] [1, 2, 3, 4]).state = .awaitApplicationData ∧
      (Dtls12.Server.judging [7, 7] [1, 2, 3, 4]).UsesPsk ∧
      (Dtls12.Server.judging [7, 8] Dtls12.drawn).state = .awaitFinished := by
    unfold Dtls12.Server.UsesPsk
    decide +kernel
  obtain ⟨isState, usesPsk, waits⟩ := runs
  obtain ⟨psk, resolved, -⟩ :=
    (psk_gated _ (Dtls12.Server.judging_reached _ _) usesPsk).2 (.inl isState)
  exact ⟨⟨psk, resolved⟩, waits⟩

end Dimpl
