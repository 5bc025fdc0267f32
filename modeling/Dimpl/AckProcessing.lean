import Dimpl.Dtls13.Engine.Acks
import Dimpl.Dtls13.Engine.Plaintext
import Dimpl.Sample

/-!
# What an ACK acknowledges

An ACK marks the records it lists, and what is not marked is sent again under new numbers. Only a flight
that is done is dropped as a whole: what it has in the clear counts as received with the rest.
-/

namespace Dimpl.Dtls13

open Nom Program

/-- A fragment that is no list of record numbers. -/
def MalformedAck (fragment : Bytes) : Prop :=
  fragment.length < 2 ∨ fragment.length - 2 ≠ beValue (fragment.take 2) ∨ (fragment.length - 2) % 16 ≠ 0

/-- A number that was never used in a run: no record was sealed with it under the key of its epoch, and
the plaintext records did not get that far. -/
structure Unused (start : Engine) (calls : List Call) (e : Engine) (entry : Entry) : Prop where
  plaintext : entry.epoch = 0 → ∀ before, before <+: calls →
    (run Engine.exec start before).sequenceEpoch0 ≤ entry.sendSeq
  ciphertext : entry.epoch ≠ 0 → ∀ keys, e.slotKeys (e.sendSlot entry.epoch) = some keys →
    (keys.id, entry.sendSeq) ∉ sealings e.log

/-- What an ACK of some numbers does behind a run, and a retransmission behind it. -/
structure AcksExactly (start : Engine) (calls : List Call) (numbers : List (Nat × Nat)) (e acked : Engine) :
    Prop where
  done : e.FlightDone numbers → acked.flightSavedRecords = []
  marked : ¬e.FlightDone numbers →
    acked.flightSavedRecords = e.flightSavedRecords.map (Entry.mark numbers)
  malformed : ∀ fragment, MalformedAck fragment → e.processAck fragment = e
  again : ∀ fragment, (e.processAck fragment).processAck fragment = e.processAck fragment
  order : ∀ numbers' : List (Nat × Nat), numbers'.Perm numbers → e.processAck (ackFragment numbers') = acked
  resent : Post flightResend acked
    (fun _ e' => acked.Resends e' acked.flightSavedRecords e'.flightSavedRecords ∧
      ∀ entry ∈ e'.flightSavedRecords, entry.acked = false → Unused start calls acked entry)
    fun _ _ => True

section Acking

variable {e : Engine} {fragment : Bytes} {numbers : List (Nat × Nat)}

theorem Engine.processAck_malformed (malformed : MalformedAck fragment) : e.processAck fragment = e := by
  unfold Engine.processAck
  rw [ackedNumbers_malformed malformed]

/-- The order of a list does not matter. -/
theorem Engine.processAck_perm {numbers' : List (Nat × Nat)} (few : numbers.length * 16 < 65536)
    (words : ∀ number ∈ numbers, number.1 < 2 ^ 64 ∧ number.2 < 2 ^ 64) (perm : numbers'.Perm numbers) :
    e.processAck (ackFragment numbers') = e.processAck (ackFragment numbers) := by
  have few' : numbers'.length * 16 < 65536 := perm.length_eq ▸ few
  have words' : ∀ number ∈ numbers', number.1 < 2 ^ 64 ∧ number.2 < 2 ^ 64 :=
    fun number member => words number (perm.subset member)
  unfold Engine.processAck
  rw [ackedNumbers_ackFragment few words, ackedNumbers_ackFragment few' words']
  dsimp only
  rw [Engine.markAcked_perm perm]

theorem Engine.SealInv.processAck (inv : e.SealInv) : (e.processAck fragment).SealInv := by
  have quiet : Quiet (fun _ => True) False e (e.processAck fragment) := processAck_quiet
  have steps := (quiet False.elim).1
  generalize e.processAck fragment = acked at steps
  induction steps with
  | refl => exact inv
  | tail _ step inductionHypothesis => exact step.sealInv inductionHypothesis

theorem Engine.processAck_sequenceEpoch0 : (e.processAck fragment).sequenceEpoch0 = e.sequenceEpoch0 := by
  have same : (e.processAck fragment).unclassified = e.unclassified := Engine.processAck_unclassified
  exact (congrArg Engine.sequenceEpoch0 same : _)

/-- What is sent again has a number that was not used. -/
theorem flightResend_unused {start : Engine} {calls : List Call} (inv : e.SealInv)
    (counted : (run Engine.exec start calls).sequenceEpoch0 = e.sequenceEpoch0) :
    Post flightResend e
      (fun _ e' => e.Resends e' e.flightSavedRecords e'.flightSavedRecords ∧
        ∀ entry ∈ e'.flightSavedRecords, entry.acked = false → Unused start calls e entry)
      fun _ _ => True := by
  refine flightResend_resends.mono ?_ fun _ _ _ => trivial
  rintro _ e' resends
  refine ⟨resends, fun entry member unacked => ?_⟩
  have fresh := (resends.fresh entry member unacked).1
  constructor
  · rintro isPlain before ⟨after, rfl⟩
    rw [Engine.nextSeq, if_pos isPlain, ← counted] at fresh
    refine Nat.le_trans ?_ fresh
    rw [run, List.foldl_append]
    exact run_rises
  · intro isProtected keys isKey isSealed
    rw [Engine.nextSeq, if_neg isProtected] at fresh
    have below := inv.below _ (Engine.outlets_slot isKey) _ isSealed rfl
    omega

end Acking

/-- An ACK marks exactly what it lists, unless the flight is done and is dropped, and what is not marked
is sent again under numbers that were not used. -/
theorem acks_exactly (config : Config) (certificate : DtlsCertificate) (rng : SeededRng) (isClient : Bool)
    (calls : List Call) (numbers : List (Nat × Nat))
    (early : Meets Engine.exec Call.RetriesEarly ((Engine.new config certificate rng).setClient isClient) calls)
    (few : numbers.length ≤ 32) (words : ∀ number ∈ numbers, number.1 < 2 ^ 64 ∧ number.2 < 2 ^ 64) :
    AcksExactly ((Engine.new config certificate rng).setClient isClient) calls numbers
      (run Engine.exec ((Engine.new config certificate rng).setClient isClient) calls)
      ((run Engine.exec ((Engine.new config certificate rng).setClient isClient) calls).processAck
        (ackFragment numbers)) := by
  have inv : (run Engine.exec ((Engine.new config certificate rng).setClient isClient) calls).SealInv :=
    run_invariant (fun _ _ inv allowed => exec_sealInv allowed inv) SealInv_new early
  have few : numbers.length * 16 < 65536 := by omega
  obtain ⟨done, marked⟩ := Engine.processAck_flight (ackedNumbers_ackFragment few words)
  exact {
    done := done
    marked := marked
    malformed := fun _ => Engine.processAck_malformed
    again := fun _ => Engine.processAck_processAck
    order := fun _ perm => Engine.processAck_perm few words perm
    resent := flightResend_unused inv.processAck Engine.processAck_sequenceEpoch0.symm }

namespace Acking

/-- A server that sent a ServerHello in the clear and a message behind it under handshake keys. -/
def calls : List Call :=
  [.setCipherSuite .aes128GcmSha256, .flightBegin, .createHandshake .serverHello [1, 2],
    .installHandshakeKeys [7] [8], .createHandshake .encryptedExtensions [0, 0]]

/-- The server behind these calls. -/
def server : Engine :=
  run Engine.exec ((Engine.new Sample.config Sample.certificate (Sample.rng 0)).setClient false) calls

end Acking

theorem acks_exactly_sample :
    AcksExactly ((Engine.new Sample.config Sample.certificate (Sample.rng 0)).setClient false) Acking.calls [(2, 1)]
      Acking.server (Acking.server.processAck (ackFragment [(2, 1)])) :=
  acks_exactly Sample.config Sample.certificate (Sample.rng 0) false Acking.calls [(2, 1)]
    ⟨trivial, trivial, trivial, trivial, trivial, trivial⟩ (by decide) (by decide)

/-- A ServerHello that is not listed is dropped with the rest of its flight, and not sent again. -/
theorem not_acks_exactly :
    ¬ ∀ (config : Config) (certificate : DtlsCertificate) (rng : SeededRng) (isClient : Bool)
        (calls : List Call) (numbers : List (Nat × Nat)) (e : Engine),
      Meets Engine.exec Call.RetriesEarly ((Engine.new config certificate rng).setClient isClient) calls →
      numbers.length ≤ 32 → (∀ number ∈ numbers, number.1 < 2 ^ 64 ∧ number.2 < 2 ^ 64) →
      e = run Engine.exec ((Engine.new config certificate rng).setClient isClient) calls →
      Post flightResend (e.processAck (ackFragment numbers))
        (fun _ e' => (e.processAck (ackFragment numbers)).Resends e'
          (e.flightSavedRecords.map (Entry.mark numbers)) e'.flightSavedRecords)
        fun _ _ => True := by
  intro claim
  have resent := claim Sample.config Sample.certificate (Sample.rng 0) false Acking.calls [(2, 0)] Acking.server
    ⟨trivial, trivial, trivial, trivial, trivial, trivial⟩ (by decide) (by decide) rfl
  rcases resent.outcome with ⟨_, -, resends⟩ | ⟨failed, -⟩
  · have lengths := congrArg List.length resends.content
    rw [List.length_map, List.length_map, List.length_map] at lengths
    have dropped : (finalState flightResend
        (Acking.server.processAck (ackFragment [(2, 0)]))).flightSavedRecords.length = 0 := by decide
    have saved : Acking.server.flightSavedRecords.length = 2 := by decide
    omega
  · have returned : value? flightResend (Acking.server.processAck (ackFragment [(2, 0)])) = some () := by
      decide
    cases failed.symm.trans returned

end Dimpl.Dtls13
