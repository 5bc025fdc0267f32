import Dimpl.Dtls12.Engine.Handshake

/-!
# What engine functions can do

`Step` lists every way an engine function changes the receive queue, the send
counter, the replay window and the history, apart from the calls that enable,
release or derive keys. The functions that send are shown here to be sequences
of such steps, those that receive and consume in the modules behind this one.
-/

namespace Dimpl.Dtls12

open Nom Program

/-- The part of the state that `Step` speaks about; everything else may change
freely. -/
structure Core where
  config : Config
  sequenceEpochN : Nat
  queueRx : List Incoming
  cipherSuite : Option Dtls12CipherSuite
  explicitNonceLen : Nat
  minProtectedFragmentLen : Nat
  cryptoContext : CryptoContext
  peerEncryptionEnabled : Bool
  isClient : Bool
  replay : ReplayWindow
  connectTimeout : Timeout
  releaseAppData : Bool
  transcript : Bytes
  log : List Event

/-- The core of an engine state. -/
def Engine.core (e : Engine) : Core :=
  { config := e.config, sequenceEpochN := e.sequenceEpochN, queueRx := e.queueRx
    cipherSuite := e.cipherSuite, explicitNonceLen := e.explicitNonceLen
    minProtectedFragmentLen := e.minProtectedFragmentLen, cryptoContext := e.cryptoContext
    peerEncryptionEnabled := e.peerEncryptionEnabled, isClient := e.isClient
    replay := e.replay, connectTimeout := e.connectTimeout, releaseAppData := e.releaseAppData
    transcript := e.transcript, log := e.log }

/-- What of a record reassembly and delivery leave alone: all but the handled
marks. -/
def Record.content (r : Record) : Bytes × DTLSRecord × List (Header × Range) :=
  (r.buffer, r.record, r.handshakes.map fun h => (h.header, h.range))

/-- The record is what an opened record contains: the history has its type, its
number and, as the plaintext, its fragment. -/
def Opened (log : List Event) (r : Record) : Prop :=
  ∃ record ciph,
    .opened r.record.contentType r.sequence record r.fragment ∈ log ∧
      r.buffer = openedBuffer record r.fragment ciph

/-- How a record may enter the receive queue: unprotected as it was parsed from
one of the slices `S`, or opened. -/
inductive Admitted (S : Bytes → Prop) (e : Engine) (r : Record) : Prop where
  | raw (slice : S r.buffer) (parsed : Record.ofBuffer r.buffer 0 = .ok r)
      (clear : r.sequence.epoch = 0 ∨ e.peerEncryptionEnabled = false)
  | opened (opened : Opened e.log r) (number : e.replayCheck r.sequence = false)
      (header : r = Record.ofHeader r.buffer r.record)

/-- The nonce a record is sealed with: over its number for suites without an
explicit nonce, else behind the fixed IV. Suite and cipher are there. -/
def Engine.NonceOf (e : Engine) (sequence : Sequence) (explicitNonce nonce : Bytes) : Prop :=
  e.cipherSuite.isSome ∧ (∃ cipher, e.cryptoContext.writeCipher e.isClient = .ok cipher) ∧
  ∃ iv, e.cryptoContext.writeIv e.isClient = some iv ∧
    ((e.explicitNonceLen = 0 ∧ iv.length = 12 ∧ explicitNonce = [] ∧
        nonce = Nonce.xor iv (seq64 sequence)) ∨
      (e.explicitNonceLen = 8 ∧ iv.length = 4 ∧ explicitNonce.length = 8 ∧
        nonce = iv ++ explicitNonce))

/-- One change of the core. `S` describes the record slices that are parsed; under
`K` nothing is protected. -/
inductive Step (S : Bytes → Prop) (K : Prop) (e : Engine) : Engine → Prop where
  /-- Nothing in the core changes. -/
  | other {e' : Engine} (same : e'.core = e.core) : Step S K e e'
  /-- A record of the slices passes the replay check and is opened. -/
  | opened {record plaintext ciphertext aad nonce : Bytes} {r : Record} (slice : S record)
      (parsed : Record.ofBuffer record 0 = .ok r) (fresh : e.replayCheck r.sequence = true)
      (decrypted : e.decryptData ciphertext aad nonce = .ok plaintext)
      (enabled : e.peerEncryptionEnabled = true) :
      Step S K e ((e.noteOpened r.record).logEvent
        (.opened r.record.contentType r.sequence record plaintext))
  /-- The receive queue changes; its records were there or are admitted. -/
  | queue {queueRx : List Incoming}
      (sources : ∀ item ∈ queueRx,
        (∃ item₀ ∈ e.queueRx, item₀.records.map Record.content = item.records.map Record.content) ∨
          ∃ admitted : Incoming, (∀ r ∈ admitted.records, Admitted S e r) ∧
            admitted.records.map Record.content = item.records.map Record.content) :
      Step S K e { e with queueRx }
  /-- Application data is handed out. -/
  | delivered {r : Record} (released : e.releaseAppData = true) (queued : r ∈ e.rxRecords)
      (data : r.record.contentType = .applicationData) :
      Step S K e (e.logEvent (.delivered r.fragment))
  /-- A message is put together from fragments of the queue. -/
  | assembled {type : MessageType} {fragments : List (Fragment × Bytes)}
      (carried : ∀ item ∈ fragments, ∃ r ∈ e.rxRecords,
        r.buffer = item.2 ∧ item.1 ∈ r.handshakes) :
      Step S K e (e.logEvent (.assembled type fragments))
  /-- A message is added to the transcript. -/
  | told {bytes : Bytes} : Step S K e (e.addToTranscript bytes)
  /-- A protected record is sent. -/
  | sealed {explicitNonce nonce : Bytes} (allowed : ¬K)
      (isNonce : e.NonceOf ⟨1, e.sequenceEpochN⟩ explicitNonce nonce) :
      Step S K e ({ e with sequenceEpochN := e.sequenceEpochN + 1 }.logEvent
        (.sealed ⟨1, e.sequenceEpochN⟩ explicitNonce nonce))

/-- Any number of steps. -/
abbrev Steps (S : Bytes → Prop) (K : Prop) : Engine → Engine → Prop :=
  Relation.ReflTransGen (Step S K)

/-- The records kept for retransmission are unprotected. -/
def Engine.FlightPlain (e : Engine) : Prop := ∀ entry ∈ e.flightSavedRecords, entry.epoch = 0

/-- Steps that keep the flight unprotected, under `K`. -/
def Quiet (S : Bytes → Prop) (K : Prop) (e e' : Engine) : Prop :=
  (K → e.FlightPlain) → Steps S K e e' ∧ (K → e'.FlightPlain)

section Quiet

variable {S : Bytes → Prop} {K : Prop} {e e' : Engine}

instance : Std.Refl (Quiet S K) := ⟨fun _ plain => ⟨.refl, plain⟩⟩

theorem Quiet.refl : Quiet S K e e := Std.Refl.refl e

instance : IsTrans Engine (Quiet S K) :=
  ⟨fun _ _ _ first second plain =>
    have ⟨steps, middle⟩ := first plain
    have ⟨more, last⟩ := second middle
    ⟨steps.trans more, last⟩⟩

theorem Quiet.trans {e'' : Engine} (first : Quiet S K e e') (second : Quiet S K e' e'') :
    Quiet S K e e'' :=
  IsTrans.trans _ _ _ first second

/-- Steps that leave the flight alone or empty it. -/
theorem Quiet.of_steps (steps : Steps S K e e')
    (flight : e'.flightSavedRecords ⊆ e.flightSavedRecords) : Quiet S K e e' :=
  fun plain => ⟨steps, fun k entry member => plain k entry (flight member)⟩

/-- A change outside the core that leaves the flight alone or empties it. -/
theorem Quiet.of_same (same : e'.core = e.core)
    (flight : e'.flightSavedRecords ⊆ e.flightSavedRecords) : Quiet S K e e' :=
  Quiet.of_steps (.single (.other same)) flight

end Quiet

section Sending

variable {S : Bytes → Prop} {K : Prop} {e e' : Engine}

@[simp] theorem Engine.enqueueRecord_core {append : Bool} {bytes : Bytes} :
    (e.enqueueRecord append bytes).core = e.core := by
  unfold Engine.enqueueRecord
  split <;> rfl

@[simp] theorem Engine.enqueueRecord_flight {append : Bool} {bytes : Bytes} :
    (e.enqueueRecord append bytes).flightSavedRecords = e.flightSavedRecords := by
  unfold Engine.enqueueRecord
  split <;> rfl

@[simp] theorem Engine.countRecord_flight {epoch : Nat} :
    (e.countRecord epoch).flightSavedRecords = e.flightSavedRecords := by
  unfold Engine.countRecord
  split <;> rfl

theorem selectedCipherSuite_readOnly : ReadOnly selectedCipherSuite :=
  along_bind along_get fun _ => along_orThrow

theorem checkQueueTx_readOnly {append : Bool} : ReadOnly (checkQueueTx append) :=
  along_bind along_get fun _ => along_ite (fun _ => along_throw) fun _ => along_pure

theorem xorNonce_post {iv : Bytes} {sequence : Sequence} :
    Post (xorNonce iv sequence) e
      (fun nonce e' => e' = e ∧ iv.length = 12 ∧ nonce = Nonce.xor iv (seq64 sequence))
      (fun _ e' => e' = e) := by
  unfold xorNonce
  rw [post_ite]
  exact ⟨fun twelve => ⟨rfl, twelve, rfl⟩, fun _ => rfl⟩

theorem joinNonce_post {iv explicitNonce : Bytes} :
    Post (joinNonce iv explicitNonce) e
      (fun nonce e' => e' = e ∧ iv.length + explicitNonce.length = 12 ∧ nonce = iv ++ explicitNonce)
      (fun _ e' => e' = e) := by
  unfold joinNonce
  rw [post_ite]
  exact ⟨fun twelve => ⟨rfl, twelve, rfl⟩, fun _ => rfl⟩

/-- Choosing a nonce at most draws from the generator. -/
theorem sendNonce_post {suite : Dtls12CipherSuite} {iv : Bytes} {sequence : Sequence} :
    Post (sendNonce suite iv sequence) e
      (fun result e' => (∃ rng, e' = { e with rng }) ∧
        ((e.explicitNonceLen = 0 ∧ iv.length = 12 ∧ result.1 = [] ∧
            result.2 = Nonce.xor iv (seq64 sequence)) ∨
          (e.explicitNonceLen = 8 ∧ iv.length = 4 ∧ result.1.length = 8 ∧
            result.2 = iv ++ result.1)))
      (fun _ e' => ∃ rng, e' = { e with rng }) := by
  unfold sendNonce
  rw [post_bind, post_get, post_ite]
  constructor
  · intro noExplicit
    rw [post_bind]
    refine xorNonce_post.mono ?_ fun _ _ same => ⟨e.rng, same⟩
    rintro nonce _ ⟨rfl, twelve, isNonce⟩
    exact ⟨⟨_, rfl⟩, .inl ⟨noExplicit, twelve, rfl, isNonce⟩⟩
  · intro _
    rw [post_ite]
    refine ⟨fun eight => ?_, fun _ => ⟨e.rng, rfl⟩⟩
    simp only [randomArr, post_bind, post_get, post_set, post_pure]
    refine joinNonce_post.mono ?_ fun _ _ same => ⟨_, same⟩
    rintro nonce _ ⟨rfl, twelve, isNonce⟩
    have drawn : (e.rng.randomBytes DTLSRecord.explicitNonceLength).1.length = 8 := by
      simp [SeededRng.randomBytes, DTLSRecord.explicitNonceLength]
    refine ⟨⟨_, rfl⟩, .inr ⟨eight, ?_, drawn, isNonce⟩⟩
    omega

/-- Protecting a fragment at most draws from the generator. -/
theorem protectFragment_post {contentType : ContentType} {sequence : Sequence} {fragment : Bytes} :
    Post (protectFragment contentType sequence fragment) e
      (fun result e' => (∃ rng, e' = { e with rng }) ∧ e.NonceOf sequence result.1 result.2.1)
      (fun _ e' => ∃ rng, e' = { e with rng }) := by
  unfold protectFragment
  rw [post_bind]
  unfold selectedCipherSuite
  rw [post_bind, post_get, post_orThrow]
  refine ⟨fun suite isSuite => ?_, fun _ => ⟨e.rng, rfl⟩⟩
  rw [post_bind, post_get, post_bind, post_orThrow]
  refine ⟨fun iv isIv => ?_, fun _ => ⟨e.rng, rfl⟩⟩
  rw [post_bind]
  refine sendNonce_post.mono ?_ fun _ _ drawn => drawn
  rintro ⟨explicitNonce, nonce⟩ e₁ ⟨drawn, isNonce⟩
  rw [post_bind, post_liftCrypto]
  refine ⟨fun cipher isCipher => ?_, fun _ _ => drawn⟩
  rw [post_bind, post_liftCrypto]
  refine ⟨fun ciphertext _ => ⟨drawn, ?_⟩, fun _ _ => drawn⟩
  exact ⟨by simp [isSuite], ⟨cipher, isCipher⟩, iv, isIv, isNonce⟩

/-- Placing an unprotected record in the queue changes nothing in the core. -/
theorem Quiet.of_emitted {contentType : ContentType} {append : Bool} {fragment : Bytes} :
    Quiet S K e (e.emit contentType 0 append fragment) := by
  have same : (e.emit contentType 0 append fragment).core = e.core := by
    simp only [Engine.emit, Engine.enqueueRecord_core]
    rfl
  exact Quiet.of_same same (by simp [Engine.emit])

/-- Placing a protected record in the queue counts it and is noted. -/
theorem Quiet.of_sealed {contentType : ContentType} {epoch : Nat} {append : Bool}
    {explicitNonce nonce wire : Bytes} {rng : SeededRng} (allowed : ¬K) (isProtected : epoch ≠ 0)
    (isNonce : e.NonceOf (e.nextSequence epoch) explicitNonce nonce) :
    Quiet S K e ((({ e with rng } : Engine).emit contentType epoch append wire).logEvent
      (.sealed (e.nextSequence epoch) explicitNonce nonce)) := by
  have number : e.nextSequence epoch = ⟨1, e.sequenceEpochN⟩ := by
    simp [Engine.nextSequence, isProtected]
  rw [number] at isNonce ⊢
  have counted : Quiet S K e ({ e with sequenceEpochN := e.sequenceEpochN + 1 }.logEvent
      (.sealed ⟨1, e.sequenceEpochN⟩ explicitNonce nonce)) :=
    Quiet.of_steps (.single (.sealed allowed isNonce)) (List.Subset.refl _)
  refine counted.trans (Quiet.of_same ?_ ?_)
  · simp only [Engine.emit, Engine.countRecord, isProtected, if_false, Engine.enqueueRecord]
    split <;> rfl
  · simp [Engine.emit, Engine.logEvent]

/-- `create_record_inner` is quiet when, under `K`, the record is unprotected. -/
theorem createRecordInner_quiet {contentType : ContentType} {epoch : Nat}
    {saveFragment forceNewDatagram : Bool} {fragment : Bytes} (plain : K → epoch = 0) :
    Along (Quiet S K) (createRecordInner contentType epoch saveFragment forceNewDatagram fragment) := by
  refine along_get_bind fun e => ?_
  rw [post_ite]
  refine ⟨fun _ => Quiet.refl, fun _ => ?_⟩
  rw [post_bind]
  -- Saving the record changes the flight only.
  have saved : Post (runIf saveFragment (saveEntry ⟨contentType, epoch, fragment⟩)) e
      (fun _ e' => Quiet S K e e' ∧ ∃ flight, e' = { e with flightSavedRecords := flight })
      (fun _ e' => Quiet S K e e') := by
    rw [post_runIf]
    refine ⟨fun _ => ⟨fun flightPlain => ?_, _, rfl⟩, fun _ => ⟨Quiet.refl, _, rfl⟩⟩
    refine ⟨.single (.other rfl), fun k entry member => ?_⟩
    rcases List.mem_append.mp member with old | new
    · exact flightPlain k entry old
    · cases List.mem_singleton.mp new
      exact plain k
  refine saved.mono ?_ fun _ _ moved => moved
  rintro _ _ ⟨moved, flight, rfl⟩
  rw [post_bind]
  refine (checkQueueTx_readOnly _).mono ?_ fun _ _ same => same ▸ moved
  rintro _ _ rfl
  rw [post_ite]
  constructor
  · rintro rfl
    exact moved.trans Quiet.of_emitted
  · intro isProtected
    rw [post_bind]
    refine protectFragment_post.mono ?_ ?_
    · rintro ⟨explicitNonce, nonce, wire⟩ _ ⟨⟨rng, rfl⟩, isNonce⟩
      exact moved.trans (Quiet.of_sealed (e := { e with flightSavedRecords := flight })
        (fun k => isProtected (plain k)) isProtected isNonce)
    · rintro _ _ ⟨rng, rfl⟩
      exact moved.trans (Quiet.of_same rfl (List.Subset.refl _))

theorem resendEntries_quiet {forceNewDatagram : Bool} {entries : List Entry}
    (plain : K → ∀ entry ∈ entries, entry.epoch = 0) :
    Along (Quiet S K) (resendEntries forceNewDatagram entries) := by
  induction entries generalizing forceNewDatagram with
  | nil => exact along_pure
  | cons entry rest inductionHypothesis =>
      refine along_bind (createRecordInner_quiet fun k => plain k entry List.mem_cons_self) fun _ => ?_
      exact inductionHypothesis fun k other member => plain k other (List.mem_cons_of_mem _ member)

/-- A retransmission sends the saved records and keeps them. -/
theorem flightResend_quiet : Along (Quiet S K) flightResend := by
  refine along_get_bind fun e => ?_
  rw [post_bind, post_set, post_ensuring]
  have emptied : Quiet S K e { e with
      queueTx := if !e.releaseAppData then [] else e.queueTx
      flightSavedRecords := [] } :=
    Quiet.of_same rfl (List.nil_subset _)
  -- What was sent does not matter for the flight that is put back.
  have restored : ∀ e₁ : Engine, ((K → e.FlightPlain) → Quiet S K e e₁) →
      Quiet S K e { e₁ with flightSavedRecords := e.flightSavedRecords } :=
    fun e₁ moved plain => ⟨(moved plain plain).1.tail (.other rfl), plain⟩
  refine post_state.mpr (restored _ fun plain => ?_)
  exact emptied.trans ((resendEntries_quiet plain).finalState _)

theorem createFragments_quiet {header : Header} {epoch fixedOverhead : Nat} {body : Bytes}
    (plain : K → epoch = 0) {fuel offset : Nat} :
    Along (Quiet S K) (createFragments header epoch fixedOverhead body fuel offset) := by
  induction fuel generalizing offset with
  | zero => exact along_throw
  | succ fuel inductionHypothesis =>
      unfold createFragments
      refine along_ite (fun _ => along_bind along_get fun e => ?_) fun _ => along_pure
      exact along_bind (createRecordInner_quiet plain) fun _ =>
        along_runIf fun _ => inductionHypothesis

theorem handshakeOverhead_readOnly {epoch : Nat} : ReadOnly (handshakeOverhead epoch) :=
  along_ite (fun _ => along_bind selectedCipherSuite_readOnly fun _ =>
    along_bind along_get fun _ => along_pure) fun _ => along_pure

theorem createHandshake_quiet {type : MessageType} {writeBody : EngineM Bytes}
    (quiet : Along (Quiet S K) writeBody) (plain : K → type.epoch = 0) :
    Along (Quiet S K) (createHandshake type writeBody) := by
  refine along_bind quiet fun body => along_get_bind fun e => ?_
  rw [post_bind, post_set]
  -- The message is numbered and added to the transcript.
  have numbered : Quiet S K e
      { e with nextHandshakeSeqNo := (e.nextHandshakeSeqNo + 1) % 65536 } :=
    Quiet.of_same rfl (List.Subset.refl _)
  refine Along.after (s := e) ?_
    (numbered.trans (Quiet.of_steps (.single .told) (List.Subset.refl _)))
  exact along_bind handshakeOverhead_readOnly.along fun _ => createFragments_quiet plain

end Sending

end Dimpl.Dtls12
