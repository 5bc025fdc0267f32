import Dimpl.Dtls12.Client
import Dimpl.Dtls12.Engine.Phase

/-!
# Runs of a client

What the handlers of a client do to its engine and to the fields that
authentication rests on, and from that what holds in every state a client
reaches.
-/

namespace Dimpl.Dtls12

open Nom Program

/-- The parameters a client or server used, in order. -/
def exchanges (log : List Check) : List (NamedGroup × Bytes) :=
  log.filterMap fun check =>
    match check with
    | .exchanged group publicKey => some (group, publicKey)
    | _ => none

namespace Client

/-- The phase of a state: from the server's key exchange on nothing is selected,
and what is sent from the Finished on is protected. -/
def State.phase : State → Phase
  | .sendClientHello | .awaitHelloVerifyRequest | .awaitServerHello | .awaitCertificate
  | .awaitServerKeyExchange => .hello
  | .awaitCertificateRequest | .awaitServerHelloDone | .sendCertificate | .sendClientKeyExchange
  | .sendCertificateVerify | .sendChangeCipherSpec => .keying
  | .sendFinished | .awaitChangeCipherSpec | .awaitNewSessionTicket | .awaitFinished
  | .awaitApplicationData | .closed => .sealing

/-- The state in which the handshake ends and the one behind it are not calm. -/
def State.calm : State → Prop
  | .awaitFinished | .awaitApplicationData => False
  | _ => True

/-- What the handlers of a phase do. A calm one neither reports a connection nor
releases application data. -/
structure Within (phase : Phase) (calm : Prop) (c c' : Client) : Prop where
  engine : Moves (phase.rules calm) c.engine c'.engine
  state : c'.state = c.state
  random : c'.random = c.random
  log : ∀ check ∈ c.log, check ∈ c'.log
  facts : phase ≠ .hello → c'.serverRandom = c.serverRandom ∧
    c'.serverCertificates = c.serverCertificates ∧ exchanges c'.log = exchanges c.log
  silent : calm → LocalEvent.connected ∈ c'.localEvents → LocalEvent.connected ∈ c.localEvents

section Within

variable {phase : Phase} {calm : Prop} {c c' : Client}

instance : Std.Refl (Within phase calm) :=
  ⟨fun _ => ⟨Moves.refl, rfl, rfl, fun _ member => member, fun _ => ⟨rfl, rfl, rfl⟩, fun _ => id⟩⟩

instance : IsTrans Client (Within phase calm) :=
  ⟨fun _ _ _ first second =>
    { engine := IsTrans.trans _ _ _ first.engine second.engine
      state := second.state.trans first.state
      random := second.random.trans first.random
      log := fun check member => second.log check (first.log check member)
      facts := fun late =>
        have ⟨random, certificates, used⟩ := first.facts late
        have ⟨random', certificates', used'⟩ := second.facts late
        ⟨random'.trans random, certificates'.trans certificates, used'.trans used⟩
      silent := fun isCalm member => first.silent isCalm (second.silent isCalm member) }⟩

theorem along_withEngine {α : Type} {program : EngineM α}
    (along : Along (Moves (phase.rules calm)) program) :
    Along (Within phase calm) (withEngine program) :=
  along_zoom along fun _ _ moved =>
    ⟨moved, rfl, rfl, fun _ member => member, fun _ => ⟨rfl, rfl, rfl⟩, fun _ => id⟩

theorem onHandshake_within {wanted : MessageType} {stay : State}
    {handle : Body → Bytes → ClientM State}
    (handled : ∀ body buffer, Along (Within phase calm) (handle body buffer)) :
    Along (Within phase calm) (onHandshake wanted stay handle) := by
  apply along_bind (along_withEngine (moves_of_quiet nextHandshake_quiet))
  intro result
  cases result with
  | none => exact along_pure
  | some message => exact handled message.1.body message.2

/-- A change of fields the relation does not speak about. -/
theorem Within.of_fields (engine : c'.engine = c.engine) (state : c'.state = c.state)
    (random : c'.random = c.random) (log : c'.log = c.log)
    (facts : phase ≠ .hello → c'.serverRandom = c.serverRandom ∧
      c'.serverCertificates = c.serverCertificates)
    (silent : calm → LocalEvent.connected ∈ c'.localEvents → LocalEvent.connected ∈ c.localEvents) :
    Within phase calm c c' :=
  { engine := engine ▸ Moves.refl
    state := state
    random := random
    log := fun _ member => log ▸ member
    facts := fun late => ⟨(facts late).1, (facts late).2, by rw [log]⟩
    silent := silent }

end Within

section Handlers

variable {phase : Phase} {calm : Prop} {c : Client}

/-- A program that reads or throws moves nothing. -/
theorem supportedGroups_readOnly {config : Config} : ReadOnly (supportedGroups config) :=
  along_ite (fun _ => along_pure) fun _ => along_throw

theorem createClientHello_readOnly {cookie sessionId : Bytes} {random : Random} :
    ReadOnly (createClientHello cookie random sessionId) := by
  refine along_bind along_get fun e => along_bind ?_ fun _ => along_pure
  refine along_bind (along_ite (fun _ => ?_) fun _ => along_pure) fun _ => along_pure
  exact along_bind supportedGroups_readOnly fun _ => along_pure

theorem sendClientHello_within : Along (Within .hello calm) sendClientHello := by
  refine along_bind along_get fun c => along_bind along_orThrow fun random => ?_
  refine along_bind (along_withEngine flightBegin_moves) fun _ => along_bind ?_ fun _ => along_pure
  exact along_withEngine (createHandshake_moves createClientHello_readOnly.along fun _ => rfl)

theorem awaitHelloVerifyRequest_within : Along (Within .hello calm) awaitHelloVerifyRequest := by
  refine along_bind along_get fun c => along_ite (fun _ => along_pure) fun _ => ?_
  refine onHandshake_within fun body _ => ?_
  split
  · refine along_ite (fun _ => along_throw) fun _ => along_bind ?_ fun _ => along_bind ?_ fun _ =>
      along_pure
    · exact along_modify fun c => Within.of_fields rfl rfl rfl rfl (fun _ => ⟨rfl, rfl⟩)
        fun _ => id
    · exact along_withEngine (along_modify fun _ => Change.moves (.retold rfl) rfl)
  · exact along_throw

theorem handleExtensions_within {buffer : Bytes} {extensions : List Extension} {found : Bool} :
    Along (Within phase calm) (handleExtensions buffer extensions found) := by
  induction extensions generalizing found with
  | nil => exact along_pure
  | cons ext rest inductionHypothesis =>
      refine along_ite (fun _ => ?_) fun _ => inductionHypothesis
      split
      · exact along_throw
      · refine along_bind (along_modify fun c => ?_) fun _ => inductionHypothesis
        exact Within.of_fields rfl rfl rfl rfl (fun _ => ⟨rfl, rfl⟩) fun _ => id

theorem awaitServerHello_within : Along (Within .hello calm) awaitServerHello := by
  refine onHandshake_within fun body buffer => ?_
  split
  · refine along_bind along_get fun c => ?_
    split
    · exact along_throw
    · refine along_bind (along_withEngine fun e => setCipherSuite_moves rfl) fun _ =>
        along_bind (along_modify fun c => ?_) fun _ => ?_
      · exact Within.of_fields rfl rfl rfl rfl (fun late => absurd rfl late) fun _ => id
      · split
        · exact along_throw
        · exact along_bind handleExtensions_within fun _ =>
            along_ite (fun _ => along_throw) fun _ => along_pure
  · exact along_throw

theorem awaitCertificate_within : Along (Within .hello calm) awaitCertificate := by
  refine onHandshake_within fun body buffer => ?_
  split
  · refine along_ite (fun _ => along_throw) fun _ => along_bind (along_modify fun c => ?_) fun _ =>
      along_pure
    exact Within.of_fields rfl rfl rfl rfl (fun late => absurd rfl late) fun _ => id
  · exact along_throw

theorem selectedCipherSuite_within : Along (Within phase calm) (withEngine selectedCipherSuite) :=
  along_withEngine selectedCipherSuite_readOnly.along

theorem logCheck_within {check : Check} : Along (Within .hello calm) (logCheck check) :=
  along_modify fun _ =>
    { engine := Moves.refl
      state := rfl
      random := rfl
      log := fun _ member => List.mem_append_left _ member
      facts := fun late => absurd rfl late
      silent := fun _ => id }

theorem handleSignedParams_within {params : EcdhParams} {signed : DigitallySigned} {buffer : Bytes} :
    Along (Within .hello calm) (handleSignedParams params signed buffer) := by
  refine along_bind along_get fun c => along_bind along_orThrow fun clientRandom =>
    along_bind along_orThrow fun serverRandom => along_bind selectedCipherSuite_within fun suite => ?_
  split
  · exact along_throw
  · refine along_bind along_orThrow fun certificate => along_bind along_liftCrypto fun _ => ?_
    refine along_bind logCheck_within fun _ => along_bind logCheck_within fun _ => ?_
    exact along_bind (along_withEngine (withContext_moves (Phase.mayRekey (by decide)))) fun _ => along_pure

theorem awaitServerKeyExchange_within : Along (Within .hello calm) awaitServerKeyExchange := by
  refine along_bind selectedCipherSuite_within fun suite => along_ite (fun _ => ?_) fun _ => ?_
  · refine along_bind along_get fun c => along_ite (fun _ => along_pure) fun _ => ?_
    refine onHandshake_within fun body _ => ?_
    split
    · exact along_pure
    · exact along_throw
    · exact along_throw
  · refine onHandshake_within fun body buffer => ?_
    split
    · split
      · split
        · exact handleSignedParams_within
        · exact along_throw
      · exact along_throw
    · exact along_throw

theorem awaitCertificateRequest_within :
    Along (Within .keying calm) awaitCertificateRequest := by
  refine along_bind along_get fun c => along_ite (fun _ => along_pure) fun _ => ?_
  refine onHandshake_within fun body _ => ?_
  split
  · refine along_bind along_get fun c => along_bind along_orThrow fun hash => ?_
    refine along_ite (fun _ => along_throw) fun _ => along_bind (along_modify fun c => ?_) fun _ =>
      along_pure
    exact Within.of_fields rfl rfl rfl rfl (fun _ => ⟨rfl, rfl⟩) fun _ => id
  · exact along_throw

theorem awaitServerHelloDone_within : Along (Within .keying calm) awaitServerHelloDone := by
  refine onHandshake_within fun body _ => ?_
  split
  · refine along_bind selectedCipherSuite_within fun suite => along_get_bind fun c => ?_
    simp only [post_ite]
    refine ⟨fun _ => Std.Refl.refl c, fun _ => ⟨fun _ => Std.Refl.refl c, fun _ => ?_⟩⟩
    rw [post_bind, post_set]
    exact Within.of_fields rfl rfl rfl rfl (fun _ => ⟨rfl, rfl⟩) fun _ => by simp
  · exact along_throw

theorem createCertificate_moves {rules : Rules} (allowed : ∀ e, rules.mayRekey e) :
    Along (Moves rules) createCertificate :=
  withContext_moves allowed

theorem sendCertificate_within : Along (Within .keying calm) sendCertificate := by
  refine along_bind (along_withEngine flightBegin_moves) fun _ => along_bind ?_ fun _ => along_pure
  exact along_withEngine
    (createHandshake_moves (createCertificate_moves (Phase.mayRekey (by decide))) fun _ => rfl)

theorem createClientKeyExchange_moves {rules : Rules} (allowed : ∀ e, rules.mayRekey e) :
    Along (Moves rules) createClientKeyExchange := by
  refine along_bind selectedCipherSuite_readOnly.along fun suite => along_bind along_get fun e => ?_
  split
  · exact along_bind along_orThrow fun _ => along_bind (withContext_moves allowed) fun _ => along_pure
  · exact along_bind along_orThrow fun _ => along_bind along_orThrow fun _ =>
      along_bind along_orThrow fun _ => along_bind (withContext_moves allowed) fun _ =>
        along_bind (withContext_moves allowed) fun _ => along_pure
  · exact along_throw

theorem sendClientKeyExchange_within : Along (Within .keying calm) sendClientKeyExchange := by
  refine along_bind along_get fun c => along_bind ?_ fun _ => along_bind ?_ fun _ =>
    along_bind selectedCipherSuite_within fun suite => along_bind (along_modify fun c => ?_) fun _ =>
      along_pure
  · exact along_withEngine (along_runIf fun _ => flightBegin_moves)
  · exact along_withEngine
      (createHandshake_moves (createClientKeyExchange_moves (Phase.mayRekey (by decide))) fun _ => rfl)
  · exact Within.of_fields rfl rfl rfl rfl (fun _ => ⟨rfl, rfl⟩) fun _ => id

theorem sendCertificateVerify_within : Along (Within .keying calm) sendCertificateVerify := by
  refine along_bind (along_withEngine (createHandshake_moves ?_ fun _ => rfl)) fun _ => along_pure
  refine along_bind along_get fun e => along_bind along_orThrow fun _ =>
    along_bind along_orThrow fun _ => ?_
  exact along_bind (withContext_moves (Phase.mayRekey (by decide))) fun _ => along_pure

theorem deriveKeys_within : Along (Within .keying calm) deriveKeys := by
  refine along_bind selectedCipherSuite_within fun suite => along_bind along_get fun c => ?_
  refine along_bind along_orThrow fun _ => along_bind along_orThrow fun _ =>
    along_bind along_orThrow fun _ => ?_
  exact along_withEngine (deriveSessionKeys_moves (Phase.mayRekey (by decide)))

theorem sendChangeCipherSpec_within : Along (Within .keying calm) sendChangeCipherSpec :=
  along_bind deriveKeys_within fun _ =>
    along_bind (along_withEngine (createRecord_moves fun _ => rfl)) fun _ => along_pure

theorem sendFinished_within : Along (Within .sealing calm) sendFinished :=
  along_bind (along_withEngine (createHandshake_moves generateVerifyData_readOnly.along
    fun notSealing => absurd rfl notSealing)) fun _ => along_pure

theorem awaitChangeCipherSpec_within : Along (Within .sealing calm) awaitChangeCipherSpec := by
  apply along_bind (along_withEngine (moves_of_quiet nextRecord_quiet))
  intro result
  cases result with
  | none => exact along_pure
  | some r =>
      refine along_bind (along_withEngine (moves_of_quiet dropPendingCcs_quiet)) fun _ =>
        along_bind (along_withEngine ?_) fun _ => along_pure
      exact enablePeerEncryption_along (fun _ => rfl) fun _ => trivial

theorem awaitNewSessionTicket_within : Along (Within .sealing calm) awaitNewSessionTicket := by
  refine along_bind along_get fun c => along_ite (fun _ => along_pure) fun _ => ?_
  refine onHandshake_within fun body _ => ?_
  split
  · exact along_pure
  · exact along_throw

theorem completeHandshake_within : Along (Within .sealing False) completeHandshake := by
  refine along_bind (along_withEngine (along_modify fun _ => ?_)) fun _ =>
    along_bind (along_modify fun c => ?_) fun _ => along_bind ?_ fun _ =>
      along_bind (along_withEngine (along_modify fun _ => ?_)) fun _ => along_pure
  · exact Moves.of_timed (t := .disabled) not_false rfl (List.Subset.refl _)
  · exact Within.of_fields rfl rfl rfl rfl (fun _ => ⟨rfl, rfl⟩) False.elim
  · refine along_get_bind fun c => ?_
    split
    · exact Std.Refl.refl c
    · rw [post_bind, post_orThrow]
      refine ⟨fun suite _ => ?_, fun _ => Std.Refl.refl c⟩
      rw [post_set]
      exact Within.of_fields rfl rfl rfl rfl (fun _ => ⟨rfl, rfl⟩) False.elim
  · exact Change.moves (.released not_false) rfl

theorem awaitFinished_within : Along (Within .sealing False) awaitFinished := by
  refine along_bind along_get fun c =>
    along_bind (along_withEngine generateVerifyData_readOnly.along) fun expected => ?_
  refine onHandshake_within fun body buffer => ?_
  split
  · refine along_ite (fun _ => along_throw) fun _ => along_bind (along_modify fun c => ?_) fun _ =>
      completeHandshake_within
    exact
      { engine := Moves.refl
        state := rfl
        random := rfl
        log := fun _ member => List.mem_append_left _ member
        facts := fun _ => ⟨rfl, rfl, by simp [exchanges]⟩
        silent := fun _ => id }
  · exact along_throw

theorem awaitApplicationData_within : Along (Within .sealing False) awaitApplicationData := by
  refine along_get_bind fun c => ?_
  rw [post_ite]
  constructor
  · intro _
    refine along_bind (along_withEngine (along_modify fun _ => ?_)) (fun _ =>
      along_bind (along_withEngine (createRecord_moves fun plain => absurd rfl plain)) fun _ =>
        along_pure) c
    exact Moves.of_core rfl (List.Subset.refl _)
  · intro _
    rw [post_bind, post_set]
    refine Along.after (s := c) (along_bind (along_withEngine
      (sendQueued_moves fun plain => absurd rfl plain)) fun _ => along_pure) ?_
    exact Within.of_fields rfl rfl rfl rfl (fun _ => ⟨rfl, rfl⟩) False.elim

/-- Every handler stays within the phase of its state. -/
theorem makeProgress_within (state : State) :
    Along (Within state.phase state.calm) state.makeProgress := by
  cases state with
  | sendClientHello => exact sendClientHello_within
  | awaitHelloVerifyRequest => exact awaitHelloVerifyRequest_within
  | awaitServerHello => exact awaitServerHello_within
  | awaitCertificate => exact awaitCertificate_within
  | awaitServerKeyExchange => exact awaitServerKeyExchange_within
  | awaitCertificateRequest => exact awaitCertificateRequest_within
  | awaitServerHelloDone => exact awaitServerHelloDone_within
  | sendCertificate => exact sendCertificate_within
  | sendClientKeyExchange => exact sendClientKeyExchange_within
  | sendCertificateVerify => exact sendCertificateVerify_within
  | sendChangeCipherSpec => exact sendChangeCipherSpec_within
  | sendFinished => exact sendFinished_within
  | awaitChangeCipherSpec => exact awaitChangeCipherSpec_within
  | awaitNewSessionTicket => exact awaitNewSessionTicket_within
  | awaitFinished => exact awaitFinished_within
  | awaitApplicationData => exact awaitApplicationData_within
  | closed => exact along_pure

end Handlers

end Client

namespace Client

/-- The states a handler may return beside its own. -/
def State.follows : State → List State
  | .sendClientHello => [.awaitHelloVerifyRequest, .awaitServerHello]
  | .awaitHelloVerifyRequest => [.awaitServerHello, .sendClientHello]
  | .awaitServerHello => [.awaitServerKeyExchange, .awaitCertificate]
  | .awaitCertificate => [.awaitServerKeyExchange]
  | .awaitServerKeyExchange => [.awaitCertificateRequest, .awaitServerHelloDone]
  | .awaitCertificateRequest => [.awaitServerHelloDone]
  | .awaitServerHelloDone => [.sendCertificate, .sendClientKeyExchange]
  | .sendCertificate => [.sendClientKeyExchange]
  | .sendClientKeyExchange => [.sendCertificateVerify, .sendChangeCipherSpec]
  | .sendCertificateVerify => [.sendChangeCipherSpec]
  | .sendChangeCipherSpec => [.sendFinished]
  | .sendFinished => [.awaitChangeCipherSpec]
  | .awaitChangeCipherSpec => [.awaitNewSessionTicket]
  | .awaitNewSessionTicket => [.awaitFinished]
  | .awaitFinished => [.awaitApplicationData]
  | .awaitApplicationData => [.closed]
  | .closed => []

section Transitions

theorem onHandshake_returns {P : State → Prop} {wanted : MessageType} {stay : State}
    {handle : Body → Bytes → ClientM State} (stays : P stay)
    (handled : ∀ body buffer, Returns P (handle body buffer)) :
    Returns P (onHandshake wanted stay handle) := by
  apply returns_bind
  intro result
  cases result with
  | none => exact returns_pure stays
  | some message => exact handled message.1.body message.2

/-- Every handler returns its state or one that follows it. -/
theorem makeProgress_returns (state : State) :
    Returns (fun next => next ∈ state :: state.follows) state.makeProgress := by
  cases state with
  | sendClientHello =>
      refine returns_bind fun c => returns_bind fun _ => returns_bind fun _ => returns_bind fun _ => ?_
      apply returns_pure
      split <;> decide
  | awaitHelloVerifyRequest =>
      refine returns_bind fun c => returns_ite (returns_pure (by decide)) ?_
      refine onHandshake_returns (by decide) fun body _ => ?_
      split
      · exact returns_ite returns_throw
          (returns_bind fun _ => returns_bind fun _ => returns_pure (by decide))
      · exact returns_throw
  | awaitServerHello =>
      unfold State.makeProgress Client.awaitServerHello
      refine onHandshake_returns (by decide) fun body buffer => ?_
      split
      · refine returns_bind fun c => ?_
        split
        · exact returns_throw
        · refine returns_bind fun _ => returns_bind fun _ => ?_
          split
          · exact returns_throw
          · refine returns_bind fun _ => returns_ite returns_throw (returns_pure ?_)
            split <;> decide
      · exact returns_throw
  | awaitCertificate =>
      unfold State.makeProgress Client.awaitCertificate
      refine onHandshake_returns (by decide) fun body buffer => ?_
      split
      · exact returns_ite returns_throw (returns_bind fun _ => returns_pure (by decide))
      · exact returns_throw
  | awaitServerKeyExchange =>
      refine returns_bind fun suite => returns_ite (returns_bind fun c =>
        returns_ite (returns_pure (by decide)) ?_) ?_
      · refine onHandshake_returns (by decide) fun body _ => ?_
        split
        · exact returns_pure (by decide)
        · exact returns_throw
        · exact returns_throw
      · refine onHandshake_returns (by decide) fun body buffer => ?_
        split
        · split
          · split
            · refine returns_bind fun c => returns_bind fun _ => returns_bind fun _ =>
                returns_bind fun _ => ?_
              split
              · exact returns_throw
              · exact returns_bind fun _ => returns_bind fun _ => returns_bind fun _ =>
                  returns_bind fun _ => returns_bind fun _ => returns_pure (by decide)
            · exact returns_throw
          · exact returns_throw
        · exact returns_throw
  | awaitCertificateRequest =>
      refine returns_bind fun c => returns_ite (returns_pure (by decide)) ?_
      refine onHandshake_returns (by decide) fun body _ => ?_
      split
      · exact returns_bind fun _ => returns_bind fun _ => returns_ite returns_throw
          (returns_bind fun _ => returns_pure (by decide))
      · exact returns_throw
  | awaitServerHelloDone =>
      unfold State.makeProgress Client.awaitServerHelloDone
      refine onHandshake_returns (by decide) fun body buffer => ?_
      split
      · refine returns_bind fun suite => returns_bind fun c => returns_ite (returns_pure (by decide))
          (returns_ite returns_throw (returns_bind fun _ => returns_pure ?_))
        split <;> decide
      · exact returns_throw
  | sendCertificate => exact returns_bind fun _ => returns_bind fun _ => returns_pure (by decide)
  | sendClientKeyExchange =>
      refine returns_bind fun c => returns_bind fun _ => returns_bind fun _ => returns_bind fun _ =>
        returns_bind fun _ => returns_pure ?_
      split <;> decide
  | sendCertificateVerify => exact returns_bind fun _ => returns_pure (by decide)
  | sendChangeCipherSpec => exact returns_bind fun _ => returns_bind fun _ => returns_pure (by decide)
  | sendFinished => exact returns_bind fun _ => returns_pure (by decide)
  | awaitChangeCipherSpec =>
      apply returns_bind
      intro result
      cases result with
      | none => exact returns_pure (by decide)
      | some r => exact returns_bind fun _ => returns_bind fun _ => returns_pure (by decide)
  | awaitNewSessionTicket =>
      refine returns_bind fun c => returns_ite (returns_pure (by decide)) ?_
      refine onHandshake_returns (by decide) fun body _ => ?_
      split
      · exact returns_pure (by decide)
      · exact returns_throw
  | awaitFinished =>
      refine returns_bind fun c => returns_bind fun expected => ?_
      refine onHandshake_returns (by decide) fun body buffer => ?_
      split
      · exact returns_ite returns_throw (returns_bind fun _ => returns_bind fun _ =>
          returns_bind fun _ => returns_bind fun _ => returns_bind fun _ => returns_pure (by decide))
      · exact returns_throw
  | awaitApplicationData =>
      exact returns_bind fun c => returns_ite
        (returns_bind fun _ => returns_bind fun _ => returns_pure (by decide))
        (returns_bind fun _ => returns_bind fun _ => returns_pure (by decide))
  | closed => exact returns_pure (by decide)

end Transitions

end Client

end Dimpl.Dtls12
