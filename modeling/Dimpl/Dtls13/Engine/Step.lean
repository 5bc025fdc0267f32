import Dimpl.Dtls13.Engine.Handshake
import Dimpl.Lib.Program

/-!
# What engine functions can do

`Step` lists every way an engine function changes the receive queue, the keys,
the counters and the history, apart from the few calls that install, rotate or
release keys. The functions of the engine are shown once to be sequences of such
steps, so an invariant has to be checked on the steps only.
-/

namespace Dimpl.Dtls13

open Nom Program

/-- The part of the state that `Step` speaks about; everything else may change
freely. -/
structure Core where
  queueRx : List Incoming
  hsSendKeys : Option EpochKeys
  hsRecvKeys : Option EpochKeys
  appSendEpoch : Nat
  hsSendSeq : Nat
  appSendSeq : Nat
  appSendKeys : Option EpochKeys
  prevAppSendKeys : Option EpochKeys
  prevAppSendEpoch : Nat
  prevAppSendSeq : Nat
  appRecvKeys : List RecvEpochEntry
  peerEncryptionEnabled : Bool
  hsReplay : ReplayWindow
  releaseAppData : Bool
  log : List Event
  installations : Nat

/-- The core of an engine state. -/
def Engine.core (e : Engine) : Core :=
  { queueRx := e.queueRx, hsSendKeys := e.hsSendKeys, hsRecvKeys := e.hsRecvKeys
    appSendEpoch := e.appSendEpoch, hsSendSeq := e.hsSendSeq, appSendSeq := e.appSendSeq
    appSendKeys := e.appSendKeys, prevAppSendKeys := e.prevAppSendKeys
    prevAppSendEpoch := e.prevAppSendEpoch, prevAppSendSeq := e.prevAppSendSeq
    appRecvKeys := e.appRecvKeys, peerEncryptionEnabled := e.peerEncryptionEnabled
    hsReplay := e.hsReplay, releaseAppData := e.releaseAppData
    log := e.log, installations := e.installations }

/-- What of a record reassembly and delivery leave alone: all but the handled
marks. -/
def Record.content (r : Record) : Bytes × Dtls13Record × List (Header × Range) :=
  (r.buffer, r.record, r.handshakes.map fun h => (h.header, h.range))

/-- A buffer in which a plaintext was written over the ciphertext of a record. -/
def Rewritten (record plaintext buffer : Bytes) : Prop :=
  ∃ header ciphertext : Bytes, header.length + ciphertext.length = record.length ∧
    buffer = header ++ plaintext ++ ciphertext.drop plaintext.length

/-- The record is what an opened record contains: its type and its fragment are
the inner type and the content of a plaintext that `decrypt_record` returned, and
its buffer holds that plaintext. -/
def Opened (log : List Event) (r : Record) : Prop :=
  ∃ key record plaintext contentLen,
    .opened key r.record.sequence record plaintext ∈ log ∧
      recoverInnerContentType plaintext = some (r.record.contentType, contentLen) ∧
      r.fragment = plaintext.take contentLen ∧ Rewritten record plaintext r.buffer

/-- How a record may enter the receive queue: unprotected as it was parsed from
one of the slices `S`, or opened. -/
inductive Admitted (S : Bytes → Prop) (e : Engine) (r : Record) : Prop where
  | raw (slice : S r.buffer) (parsed : Record.ofBuffer r.buffer = .ok r)
      (clear : Dtls13Record.isCiphertextHeader (r.buffer.headD 0) = false ∨
        e.peerEncryptionEnabled = false)
  | opened (opened : Opened e.log r)

/-- One change of the core. `S` describes the record slices that are parsed; under
`K` the epochs records are sent in are those of the keys. -/
inductive Step (S : Bytes → Prop) (K : Prop) (e : Engine) : Engine → Prop where
  /-- Nothing in the core changes. -/
  | other {e' : Engine} (same : e'.core = e.core) : Step S K e e'
  /-- A record passes the replay check and is opened. -/
  | opened {header ciphertext record plaintext : Bytes} {sequence : Sequence} {key : KeyId}
      (slice : S record) (fresh : e.replayCheck sequence = true)
      (decrypted : e.decryptRecord header sequence ciphertext = .ok (key, plaintext)) :
      Step S K e ((e.replayUpdate sequence).logEvent (.opened key sequence record plaintext))
  /-- The receive queue changes; its records were there or are admitted. -/
  | queue {queueRx : List Incoming}
      (sources : ∀ r ∈ queueRx.flatMap Incoming.records,
        (∃ r₀ ∈ e.rxRecords, r₀.content = r.content) ∨ Admitted S e r) :
      Step S K e { e with queueRx }
  /-- Application data is handed out. -/
  | delivered {r : Record} (released : e.releaseAppData = true) (queued : r ∈ e.rxRecords)
      (data : r.record.contentType = .applicationData) :
      Step S K e (e.logEvent (.delivered r.fragment))
  /-- A message is put together from fragments of the queue. -/
  | assembled {type : MessageType} {fragments : List (Fragment × Bytes)}
      (carried : ∀ item ∈ fragments, ∃ r ∈ e.rxRecords,
        r.buffer = item.2 ∧ item.1 ∈ r.handshakes) :
      Step S K e (e.logEvent (.assembled type fragments))
  /-- A protected record is sent. -/
  | sealed {epoch : Nat} {keys : EpochKeys} (available : e.slotKeys (e.sendSlot epoch) = some keys)
      (room : e.slotSeq (e.sendSlot epoch) < maxSequenceNumber)
      (known : K → e.sendSlot epoch = .current → epoch = e.appSendEpoch) :
      Step S K e ((e.bumpSlot epoch (e.sendSlot epoch)).logEvent
        (.sealed keys.id ⟨epoch, e.slotSeq (e.sendSlot epoch)⟩))
  /-- The keys before a KeyUpdate are forgotten. -/
  | forgotten : Step S K e { e with prevAppSendKeys := none }

/-- Any number of steps. -/
abbrev Steps (S : Bytes → Prop) (K : Prop) : Engine → Engine → Prop :=
  Relation.ReflTransGen (Step S K)

/-- The epoch names keys the engine has or had for it. -/
def Engine.EpochKnown (e : Engine) (epoch : Nat) : Prop :=
  epoch = 2 ∨ epoch = e.appSendEpoch ∨ (e.prevAppSendKeys.isSome ∧ epoch = e.prevAppSendEpoch)

/-- The records kept for retransmission are of known epochs. -/
def Engine.FlightKnown (e : Engine) : Prop :=
  ∀ entry ∈ e.flightSavedRecords, entry.epoch = 0 ∨ e.EpochKnown entry.epoch

/-- Steps that keep the flight's epochs known, under `K`. -/
def Quiet (S : Bytes → Prop) (K : Prop) (e e' : Engine) : Prop :=
  (K → e.FlightKnown) → Steps S K e e' ∧ (K → e'.FlightKnown)

section Quiet

variable {S : Bytes → Prop} {K : Prop} {e e' : Engine}

instance : Std.Refl (Quiet S K) := ⟨fun _ known => ⟨.refl, known⟩⟩

theorem Quiet.refl : Quiet S K e e := Std.Refl.refl e

instance : IsTrans Engine (Quiet S K) :=
  ⟨fun _ _ _ first second known =>
    have ⟨steps, middle⟩ := first known
    have ⟨more, last⟩ := second middle
    ⟨steps.trans more, last⟩⟩

/-- A known epoch depends on the core only. -/
theorem Engine.EpochKnown.of_core {epoch : Nat} (known : e.EpochKnown epoch)
    (same : e'.core = e.core) : e'.EpochKnown epoch := by
  have epochs : e'.appSendEpoch = e.appSendEpoch := congrArg Core.appSendEpoch same
  have keys : e'.prevAppSendKeys = e.prevAppSendKeys := congrArg Core.prevAppSendKeys same
  have previous : e'.prevAppSendEpoch = e.prevAppSendEpoch := congrArg Core.prevAppSendEpoch same
  simpa [EpochKnown, epochs, keys, previous] using known

/-- A flight that only lost entries, or whose entries kept their epochs, is
still known when the core is the same. -/
theorem Quiet.of_core (same : e'.core = e.core)
    (flight : K → ∀ entry' ∈ e'.flightSavedRecords,
      entry'.epoch = 0 ∨ e.EpochKnown entry'.epoch ∨
        ∃ entry ∈ e.flightSavedRecords, entry.epoch = entry'.epoch) : Quiet S K e e' := by
  intro known
  refine ⟨.single (.other same), fun k entry' member => ?_⟩
  rcases flight k entry' member with zero | isKnown | ⟨entry, member, epochs⟩
  · exact .inl zero
  · exact .inr (isKnown.of_core same)
  · exact (known k entry member).imp (fun zero => epochs ▸ zero)
      (fun isKnown => epochs ▸ isKnown.of_core same)

/-- Steps that touch neither the flight nor the send epochs. -/
theorem Quiet.of_steps (steps : Steps S K e e')
    (flight : e'.flightSavedRecords = e.flightSavedRecords)
    (epoch : e'.appSendEpoch = e.appSendEpoch) (keys : e'.prevAppSendKeys = e.prevAppSendKeys)
    (previous : e'.prevAppSendEpoch = e.prevAppSendEpoch) : Quiet S K e e' := by
  intro known
  refine ⟨steps, fun k entry member => ?_⟩
  have before := known k entry (flight ▸ member)
  simpa [Engine.EpochKnown, epoch, keys, previous] using before

/-- A change of fields outside the core and the flight. -/
theorem Quiet.of_same (same : e'.core = e.core)
    (flight : e'.flightSavedRecords = e.flightSavedRecords) : Quiet S K e e' :=
  Quiet.of_core same fun _ entry' member => .inr (.inr ⟨entry', flight ▸ member, rfl⟩)

end Quiet

end Dimpl.Dtls13
