import Dimpl.Dtls12.Endpoint
import Dimpl.Dtls12.Engine.Run

/-!
# The phases of a handshake

What an endpoint does to its engine depends on how far the handshake is: at first
a suite is chosen, then keys are derived, then records are protected. Until the
last phase nothing protected is sent, and in it neither suite nor keys change, so
that all records are protected under the same keys.
-/

namespace Dimpl.Dtls12

open Nom Program

/-- The phases of a handshake. -/
inductive Phase where
  | hello
  | keying
  | sealing
  deriving DecidableEq

/-- What a phase allows. A calm handler leaves the connect timer alone and does not
release application data. -/
def Phase.rules (phase : Phase) (calm : Prop) : Rules where
  slices := fun _ => True
  plain := phase ≠ .sealing
  mayEnable := fun _ => phase = .sealing
  mayRelease := fun _ => ¬calm
  mayRekey := fun _ => phase ≠ .sealing
  maySelect := fun _ => phase = .hello
  mayTime := fun _ => ¬calm

theorem Phase.mayRekey {phase : Phase} {calm : Prop} (early : phase ≠ .sealing) (e : Engine) :
    (phase.rules calm).mayRekey e :=
  early

/-- The records that were protected: number, explicit nonce and nonce. -/
def sealings (log : List Event) : List (Sequence × Bytes × Bytes) :=
  log.filterMap fun event =>
    match event with
    | .sealed sequence explicitNonce nonce => some (sequence, explicitNonce, nonce)
    | _ => none

/-- The protected records are numbered from 0 on, and their nonces are those of
the current keys. -/
structure Engine.SealInv (e : Engine) : Prop where
  numbers : (sealings e.log).map Prod.fst = (List.range e.sequenceEpochN).map fun n => ⟨1, n⟩
  nonces : ∀ item ∈ sealings e.log, e.NonceOf item.1 item.2.1 item.2.2

/-- Until the last phase nothing was protected. -/
structure Engine.PhaseInv (e : Engine) (phase : Phase) : Prop where
  seals : e.SealInv
  early : phase ≠ .sealing → sealings e.log = [] ∧ e.FlightPlain

section Invariant

variable {S : Bytes → Prop} {K calm : Prop} {phase : Phase} {e e' : Engine}

@[simp] theorem sealings_logEvent {event : Event} :
    sealings (e.logEvent event).log = sealings e.log ++ sealings [event] := by
  simp [sealings, Engine.logEvent]

/-- The nonces depend on the session only. -/
theorem Engine.NonceOf.of_session {sequence : Sequence} {explicitNonce nonce : Bytes}
    (isNonce : e.NonceOf sequence explicitNonce nonce) (same : e'.session = e.session) :
    e'.NonceOf sequence explicitNonce nonce := by
  simp only [Engine.session, Prod.mk.injEq] at same
  obtain ⟨context, role, explicitLen, _, suite, _⟩ := same
  simpa [Engine.NonceOf, context, role, explicitLen, suite] using isNonce

theorem Engine.SealInv.of_same (inv : e.SealInv) (log : sealings e'.log = sealings e.log)
    (number : e'.sequenceEpochN = e.sequenceEpochN) (same : e'.session = e.session) : e'.SealInv := by
  constructor
  · rw [log, number]
    exact inv.numbers
  · intro item member
    exact (inv.nonces item (log ▸ member)).of_session same

/-- With nothing protected the keys do not matter. -/
theorem Engine.SealInv.of_unsealed (inv : e.SealInv) (none : sealings e.log = [])
    (log : sealings e'.log = sealings e.log) (number : e'.sequenceEpochN = e.sequenceEpochN) :
    e'.SealInv := by
  constructor
  · rw [log, number]
    exact inv.numbers
  · intro item member
    rw [log, none] at member
    cases member

/-- A step protects one record, with the next number, or none. -/
theorem Step.sealings_cases (step : Step S K e e') :
    (sealings e'.log = sealings e.log ∧ e'.sequenceEpochN = e.sequenceEpochN) ∨
      ¬K ∧ ∃ explicitNonce nonce, e.NonceOf ⟨1, e.sequenceEpochN⟩ explicitNonce nonce ∧
        sealings e'.log = sealings e.log ++ [(⟨1, e.sequenceEpochN⟩, explicitNonce, nonce)] ∧
        e'.sequenceEpochN = e.sequenceEpochN + 1 := by
  cases step with
  | other same =>
      have log : e'.log = e.log := congrArg Core.log same
      exact .inl ⟨by rw [log], congrArg Core.sequenceEpochN same⟩
  | queue | told => exact .inl ⟨rfl, rfl⟩
  | opened | delivered | assembled =>
      exact .inl ⟨sealings_logEvent.trans (List.append_nil _), rfl⟩
  | sealed allowed isNonce =>
      exact .inr ⟨allowed, _, _, isNonce, sealings_logEvent, rfl⟩

theorem Step.sealInv (step : Step S K e e') (inv : e.SealInv) : e'.SealInv := by
  have session := step.grows.session
  rcases step.sealings_cases with ⟨log, number⟩ | ⟨_, explicitNonce, nonce, isNonce, log, number⟩
  · exact inv.of_same log number session
  · constructor
    · rw [log, number, List.map_append, inv.numbers, List.range_succ, List.map_append]
      rfl
    · intro item member
      rw [log, List.mem_append] at member
      rcases member with old | new
      · exact (inv.nonces item old).of_session session
      · cases List.mem_singleton.mp new
        exact isNonce.of_session session

theorem Change.phaseInv (change : Change (phase.rules calm) e e') (inv : e.SealInv)
    (early : phase ≠ .sealing → sealings e.log = []) :
    e'.SealInv ∧ (phase ≠ .sealing → sealings e'.log = []) := by
  cases change with
  | quiet step =>
      refine ⟨step.sealInv inv, fun isEarly => ?_⟩
      rcases step.sealings_cases with ⟨log, _⟩ | ⟨allowed, _⟩
      · exact log.trans (early isEarly)
      · exact absurd isEarly allowed
  | @received datagram =>
      have log : sealings (e.logEvent (.received datagram)).log = sealings e.log :=
        sealings_logEvent.trans (List.append_nil _)
      exact ⟨inv.of_same log rfl rfl, fun isEarly => log.trans (early isEarly)⟩
  | enabled allowed => exact ⟨inv.of_same rfl rfl rfl, early⟩
  | released allowed => exact ⟨inv.of_same rfl rfl rfl, early⟩
  | rekeyed allowed => exact ⟨inv.of_unsealed (early allowed) rfl rfl, early⟩
  | selected allowed lengths =>
      have isHello : phase = .hello := allowed
      exact ⟨inv.of_unsealed (early (by simp [isHello])) rfl rfl, early⟩
  | retold allowed => exact ⟨inv.of_same rfl rfl rfl, early⟩
  | timed allowed => exact ⟨inv.of_same rfl rfl rfl, early⟩

theorem Changes.phaseInv (changes : Changes (phase.rules calm) e e') (inv : e.SealInv)
    (early : phase ≠ .sealing → sealings e.log = []) :
    e'.SealInv ∧ (phase ≠ .sealing → sealings e'.log = []) := by
  induction changes with
  | refl => exact ⟨inv, early⟩
  | tail _ change inductionHypothesis =>
      exact change.phaseInv inductionHypothesis.1 inductionHypothesis.2

/-- Whatever a phase allows keeps its invariant. -/
theorem Moves.phaseInv (moves : Moves (phase.rules calm) e e') (inv : e.PhaseInv phase) :
    e'.PhaseInv phase := by
  obtain ⟨changes, plain⟩ := moves fun isEarly => (inv.early isEarly).2
  obtain ⟨seals, unsealed⟩ := Changes.phaseInv changes inv.seals fun isEarly => (inv.early isEarly).1
  exact ⟨seals, fun isEarly => ⟨unsealed isEarly, plain isEarly⟩⟩

/-- The last phase assumes least. -/
theorem Engine.PhaseInv.advance (inv : e.PhaseInv phase) {next : Phase}
    (later : next = .sealing ∨ phase ≠ .sealing) : e.PhaseInv next := by
  refine ⟨inv.seals, fun isEarly => ?_⟩
  rcases later with isSealing | notSealing
  · exact absurd isSealing isEarly
  · exact inv.early notSealing

/-- What a phase leaves alone. -/
structure Endures (phase : Phase) (calm : Prop) (e e' : Engine) : Prop where
  config : e'.config = e.config
  log : ∀ event ∈ e.log, event ∈ e'.log
  lengths : e.explicitNonceLen ≤ e.minProtectedFragmentLen →
    e'.explicitNonceLen ≤ e'.minProtectedFragmentLen
  suite : phase ≠ .hello → e'.cipherSuite = e.cipherSuite
  session : phase = .sealing → e'.session = e.session
  enabled : e.peerEncryptionEnabled = true → e'.peerEncryptionEnabled = true
  released : e.releaseAppData = true → e'.releaseAppData = true
  unreleased : calm → e'.releaseAppData = e.releaseAppData
  connect : calm → e'.connectTimeout = e.connectTimeout
  transcript : phase ≠ .hello → e.transcript <+: e'.transcript

theorem Endures.refl : Endures phase calm e e :=
  ⟨rfl, fun _ member => member, id, fun _ => rfl, fun _ => rfl, id, id, fun _ => rfl, fun _ => rfl,
    fun _ => List.prefix_rfl⟩

theorem Endures.trans {e'' : Engine} (first : Endures phase calm e e')
    (second : Endures phase calm e' e'') : Endures phase calm e e'' :=
  { config := second.config.trans first.config
    log := fun event member => second.log event (first.log event member)
    lengths := fun fit => second.lengths (first.lengths fit)
    suite := fun notHello => (second.suite notHello).trans (first.suite notHello)
    session := fun isSealing => (second.session isSealing).trans (first.session isSealing)
    enabled := fun on => second.enabled (first.enabled on)
    released := fun on => second.released (first.released on)
    unreleased := fun isCalm => (second.unreleased isCalm).trans (first.unreleased isCalm)
    connect := fun isCalm => (second.connect isCalm).trans (first.connect isCalm)
    transcript := fun notHello => (first.transcript notHello).trans (second.transcript notHello) }

theorem Step.released (step : Step S K e e') : e'.releaseAppData = e.releaseAppData := by
  cases step with
  | other same => exact congrArg Core.releaseAppData same
  | queue | opened | delivered | assembled | told | sealed => rfl

theorem Step.connect (step : Step S K e e') : e'.connectTimeout = e.connectTimeout := by
  cases step with
  | other same => exact congrArg Core.connectTimeout same
  | queue | opened | delivered | assembled | told | sealed => rfl

theorem Step.transcript (step : Step S K e e') : e.transcript <+: e'.transcript := by
  cases step with
  | other same =>
      have kept : e'.transcript = e.transcript := congrArg Core.transcript same
      exact kept ▸ List.prefix_rfl
  | told => exact List.prefix_append _ _
  | queue | opened | delivered | assembled | sealed => exact List.prefix_rfl

theorem Change.endures (change : Change (phase.rules calm) e e') : Endures phase calm e e' := by
  cases change with
  | quiet step =>
      have grows := step.grows
      have session := grows.session
      simp only [Engine.session, Prod.mk.injEq] at session
      obtain ⟨_, _, explicitLen, minLen, suite, config⟩ := session
      exact
        { config, log := grows.log
          lengths := fun fit => explicitLen ▸ minLen ▸ fit
          suite := fun _ => suite
          session := fun _ => grows.session
          enabled := grows.enabled.trans
          released := step.released.trans
          unreleased := fun _ => step.released
          connect := fun _ => step.connect
          transcript := fun _ => step.transcript }
  | received => exact { Endures.refl with log := fun _ member => List.mem_append_left _ member }
  | enabled allowed => exact { Endures.refl with enabled := fun _ => rfl }
  | released allowed =>
      exact { Endures.refl with
        released := fun _ => rfl
        unreleased := fun isCalm => absurd isCalm allowed }
  | rekeyed allowed =>
      exact { Endures.refl with session := fun isSealing => absurd isSealing allowed }
  | selected allowed lengths =>
      have isHello : phase = .hello := allowed
      have same : Endures phase calm e e := Endures.refl
      exact { same with
        lengths := lengths
        suite := fun notHello => absurd isHello notHello
        session := fun isSealing => by simp [isHello] at isSealing }
  | retold allowed =>
      have isHello : phase = .hello := allowed
      exact { Endures.refl with transcript := fun notHello => absurd isHello notHello }
  | timed allowed => exact { Endures.refl with connect := fun isCalm => absurd isCalm allowed }

theorem Changes.endures (changes : Changes (phase.rules calm) e e') : Endures phase calm e e' := by
  induction changes with
  | refl => exact Endures.refl
  | tail _ change first => exact first.trans change.endures

/-- Whatever a phase allows leaves alone what it has to. -/
theorem Moves.endures (moves : Moves (phase.rules calm) e e') (inv : e.PhaseInv phase) :
    Endures phase calm e e' :=
  Changes.endures (moves fun isEarly => (inv.early isEarly).2).1

/-- A handshake message whose body is made by what the rules allow. -/
theorem createHandshake_moves {rules : Rules} {type : MessageType} {writeBody : EngineM Bytes}
    (body : Along (Moves rules) writeBody) (plain : rules.plain → type.epoch = 0) :
    Along (Moves rules) (createHandshake type writeBody) := by
  have split : createHandshake type writeBody =
      (writeBody >>= fun body => createHandshake type (pure body)) := rfl
  rw [split]
  exact along_bind body fun _ => moves_of_quiet (createHandshake_quiet along_pure plain)

theorem createRecord_moves {rules : Rules} {contentType : ContentType} {epoch : Nat}
    {saveFragment : Bool} {fragment : Bytes} (plain : rules.plain → epoch = 0) :
    Along (Moves rules) (createRecord contentType epoch saveFragment fragment) :=
  moves_of_quiet (createRecordInner_quiet plain)

theorem flightBegin_moves {rules : Rules} :
    Along (Moves rules) (modify Engine.flightBegin : EngineM PUnit) :=
  along_modify fun _ => Moves.of_core rfl (List.nil_subset _)

theorem sendQueued_moves {rules : Rules} (free : ¬rules.plain) {queued : List Bytes} :
    Along (Moves rules) (sendQueued queued) := by
  induction queued with
  | nil => exact along_pure
  | cons data rest inductionHypothesis =>
      exact along_bind (createRecord_moves fun plain => absurd plain free) fun _ => inductionHypothesis

theorem generateVerifyData_readOnly {isClient : Bool} : ReadOnly (generateVerifyData isClient) := by
  refine along_bind selectedCipherSuite_readOnly fun suite => along_bind along_get fun e => ?_
  exact along_bind along_liftCrypto fun _ => along_ite (fun _ => along_throw) fun _ => along_pure

theorem newRandom_moves {rules : Rules} {now : Instant} : Along (Moves rules) (newRandom now) :=
  along_bind randomArr_moves fun _ => along_pure

theorem deriveSessionKeys_moves {rules : Rules} (allowed : ∀ e, rules.mayRekey e)
    {suite : Dtls12CipherSuite} {sessionHash : Bytes} {clientRandom serverRandom : Random} :
    Along (Moves rules) (deriveSessionKeys suite sessionHash clientRandom serverRandom) :=
  along_bind along_get fun _ => along_bind (withContext_moves allowed) fun _ =>
    withContext_moves allowed

theorem enablePeerEncryption_along {rules : Rules} (allowed : ∀ e, rules.mayEnable e)
    (slices : ∀ slice, rules.slices slice) : Along (Moves rules) enablePeerEncryption :=
  fun e => enablePeerEncryption_moves (allowed e) fun _ _ slice _ => slices slice

/-- Reporting an event reads only. -/
theorem LocalEvent.intoOutput_readOnly {σ : Type} {bufLen : Nat} {peerCerts : List Bytes}
    {event : LocalEvent} :
    ReadOnly (event.intoOutput bufLen peerCerts : EStateM Fault σ Output) := by
  cases event with
  | peerCert =>
      cases peerCerts with
      | nil => exact along_throw
      | cons certificate rest => exact along_ite (fun _ => along_pure) fun _ => along_throw
  | connected => exact along_pure
  | keyingMaterial material profile => exact along_pure

/-- Nothing was protected yet. -/
theorem Engine.PhaseInv.of_fresh (log : e.log = []) (number : e.sequenceEpochN = 0)
    (flight : e.flightSavedRecords = []) : e.PhaseInv phase := by
  refine ⟨⟨?_, ?_⟩, fun _ => ⟨?_, ?_⟩⟩
  · simp [log, number, sealings]
  · simp [log, sealings]
  · simp [log, sealings]
  · simp [Engine.FlightPlain, flight]

end Invariant

end Dimpl.Dtls12
