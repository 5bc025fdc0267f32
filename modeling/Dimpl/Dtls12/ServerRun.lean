import Dimpl.Dtls12.Server
import Dimpl.Dtls12.Engine.Phase

/-!
# Runs of a server

What the handlers of a server do to its engine and to the fields that
authentication rests on, read as for the client.
-/

namespace Dimpl.Dtls12

open Nom Program

namespace Server

/-- The phase of a state: the keys are derived with the client's key exchange. -/
def State.phase : State → Phase
  | .awaitClientHello => .hello
  | .sendServerHello | .sendCertificate | .sendServerKeyExchange | .sendCertificateRequest
  | .sendServerHelloDone | .awaitCertificate | .awaitClientKeyExchange => .keying
  | .awaitCertificateVerify | .awaitChangeCipherSpec | .awaitFinished | .sendChangeCipherSpec
  | .sendFinished | .awaitApplicationData | .closed => .sealing

/-- The state in which the handshake ends and the one behind it are not calm. -/
def State.calm : State → Prop
  | .sendFinished | .awaitApplicationData => False
  | _ => True

/-- What the handlers of a phase do. A calm one neither reports a connection nor
releases application data; the client's certificates may be kept as they are. -/
structure Within (phase : Phase) (calm kept : Prop) (s s' : Server) : Prop where
  engine : Moves (phase.rules calm) s.engine s'.engine
  state : s'.state = s.state
  log : ∀ check ∈ s.log, check ∈ s'.log
  certificates : s.clientCertificates <+: s'.clientCertificates
  same : kept → s'.clientCertificates = s.clientCertificates
  silent : calm → LocalEvent.connected ∈ s'.localEvents → LocalEvent.connected ∈ s.localEvents

section Within

variable {phase : Phase} {calm kept : Prop} {s s' : Server}

instance : Std.Refl (Within phase calm kept) :=
  ⟨fun _ =>
    ⟨Moves.refl, rfl, fun _ member => member, List.prefix_refl _, fun _ => rfl, fun _ => id⟩⟩

instance : IsTrans Server (Within phase calm kept) :=
  ⟨fun _ _ _ first second =>
    { engine := IsTrans.trans _ _ _ first.engine second.engine
      state := second.state.trans first.state
      log := fun check member => second.log check (first.log check member)
      certificates := first.certificates.trans second.certificates
      same := fun isKept => (second.same isKept).trans (first.same isKept)
      silent := fun isCalm member => first.silent isCalm (second.silent isCalm member) }⟩

theorem along_withEngine {α : Type} {program : EngineM α}
    (along : Along (Moves (phase.rules calm)) program) :
    Along (Within phase calm kept) (withEngine program) :=
  along_zoom along fun _ _ moved =>
    ⟨moved, rfl, fun _ member => member, List.prefix_refl _, fun _ => rfl, fun _ => id⟩

theorem onHandshake_within {wanted : MessageType} {stay : State}
    {handle : Body → Bytes → ServerM State}
    (handled : ∀ body buffer, Along (Within phase calm kept) (handle body buffer)) :
    Along (Within phase calm kept) (onHandshake wanted stay handle) := by
  apply along_bind (along_withEngine (moves_of_quiet nextHandshake_quiet))
  intro result
  cases result with
  | none => exact along_pure
  | some message => exact handled message.1.body message.2

/-- A change of fields the relation does not speak about. -/
theorem Within.of_fields (engine : s'.engine = s.engine) (state : s'.state = s.state)
    (log : s'.log = s.log) (certificates : s'.clientCertificates = s.clientCertificates)
    (silent : calm → LocalEvent.connected ∈ s'.localEvents → LocalEvent.connected ∈ s.localEvents) :
    Within phase calm kept s s' :=
  { engine := engine ▸ Moves.refl
    state := state
    log := fun _ member => log ▸ member
    certificates := certificates ▸ List.prefix_refl _
    same := fun _ => certificates
    silent := silent }

/-- What leaves the certificates alone keeps them. -/
theorem Within.keeping {kept' : Prop} (within : Within phase calm kept s s')
    (same : s'.clientCertificates = s.clientCertificates) : Within phase calm kept' s s' :=
  { within with same := fun _ => same }

end Within

section Handlers

variable {phase : Phase} {calm kept : Prop}

theorem sendHelloVerifyRequest_within {clientRandom : Random} :
    Along (Within .hello calm kept) (sendHelloVerifyRequest clientRandom) := by
  refine along_bind along_get fun s => along_bind along_liftCrypto fun cookie => ?_
  refine along_bind (along_withEngine flightBegin_moves) fun _ => along_bind ?_ fun _ =>
    along_bind ?_ fun _ => along_pure
  · exact along_withEngine (createHandshake_moves along_pure fun _ => rfl)
  · exact along_withEngine (along_modify fun _ => resetServerForHelloVerifyRequest_moves rfl)

theorem acceptClientHello_within {hello : ClientHello} {buffer : Bytes} :
    Along (Within .hello calm kept) (acceptClientHello hello buffer) := by
  refine along_bind along_get fun s => along_bind along_orThrow fun suite => ?_
  refine along_bind (along_withEngine fun e => setCipherSuite_moves rfl) fun _ =>
    along_bind (along_modify fun s => ?_) fun _ => ?_
  · exact Within.of_fields rfl rfl rfl rfl fun _ => id
  · split
    · exact along_throw
    · refine along_ite (fun _ => along_throw) fun _ => along_bind (along_modify fun s => ?_) fun _ =>
        along_pure
      exact Within.of_fields rfl rfl rfl rfl fun _ => id

theorem awaitClientHello_within : Along (Within .hello calm kept) awaitClientHello := by
  refine onHandshake_within fun body buffer => ?_
  split
  · refine along_bind along_get fun s => along_ite (fun _ => along_throw) fun _ =>
      along_ite (fun _ => along_throw) fun _ => along_ite (fun _ => ?_) fun _ => ?_
    · exact sendHelloVerifyRequest_within
    · exact acceptClientHello_within
  · exact along_throw

theorem selectedCipherSuite_within : Along (Within phase calm kept) (withEngine selectedCipherSuite) :=
  along_withEngine selectedCipherSuite_readOnly.along

theorem createServerHello_readOnly {random : Random} {sessionId : Bytes}
    {profile : Option SrtpProfile} : ReadOnly (createServerHello random sessionId profile) :=
  along_bind along_get fun _ => along_bind along_orThrow fun _ => along_pure

theorem sendServerHello_within : Along (Within .keying calm kept) sendServerHello := by
  refine along_bind (along_withEngine flightBegin_moves) fun _ => along_bind along_get fun s =>
    along_bind along_orThrow fun random => along_bind ?_ fun _ =>
      along_bind selectedCipherSuite_within fun suite => along_pure
  exact along_withEngine (createHandshake_moves createServerHello_readOnly.along fun _ => rfl)

theorem sendCertificate_within : Along (Within .keying calm kept) sendCertificate :=
  along_bind (along_withEngine (createHandshake_moves
    (withContext_moves (Phase.mayRekey (by decide))) fun _ => rfl)) fun _ => along_pure

theorem createServerKeyExchange_moves {rules : Rules} (allowed : ∀ e, rules.mayRekey e)
    {clientRandom serverRandom : Random} {group : NamedGroup}
    {algorithm : SignatureAndHashAlgorithm} :
    Along (Moves rules) (createServerKeyExchange clientRandom serverRandom group algorithm) := by
  refine along_bind selectedCipherSuite_readOnly.along fun suite => ?_
  split
  · exact along_bind along_get fun _ => along_bind (withContext_moves allowed) fun _ =>
      along_bind (withContext_moves allowed) fun _ => along_pure
  · exact along_throw

theorem sendServerKeyExchangePsk_within : Along (Within .keying calm kept) sendServerKeyExchangePsk := by
  refine along_bind along_get fun s => ?_
  split
  · exact along_pure
  · exact along_bind (along_withEngine (createHandshake_moves along_pure fun _ => rfl)) fun _ =>
      along_pure

theorem sendServerKeyExchange_within : Along (Within .keying calm kept) sendServerKeyExchange := by
  refine along_bind selectedCipherSuite_within fun suite => along_ite (fun _ => ?_) fun _ => ?_
  · exact sendServerKeyExchangePsk_within
  · refine along_bind along_get fun s => along_bind along_orThrow fun _ =>
      along_bind along_orThrow fun _ => along_bind along_orThrow fun _ =>
        along_bind along_orThrow fun _ => along_bind along_orThrow fun _ => ?_
    refine along_bind (along_withEngine (createHandshake_moves ?_ fun _ => rfl)) fun _ => along_pure
    exact createServerKeyExchange_moves (Phase.mayRekey (by decide))

theorem sendCertificateRequest_within : Along (Within .keying calm kept) sendCertificateRequest :=
  along_bind along_get fun _ => along_bind
    (along_withEngine (createHandshake_moves along_pure fun _ => rfl)) fun _ => along_pure

theorem sendServerHelloDone_within : Along (Within .keying calm kept) sendServerHelloDone :=
  along_bind (along_withEngine (createHandshake_moves along_pure fun _ => rfl)) fun _ =>
    along_bind selectedCipherSuite_within fun _ => along_bind along_get fun _ => along_pure

theorem awaitCertificate_within (offering : ¬kept) :
    Along (Within .keying calm kept) awaitCertificate := by
  refine onHandshake_within fun body buffer => ?_
  split
  · refine along_bind (along_modify fun s => ?_) fun _ => along_pure
    split
    · exact Std.Refl.refl s
    · exact
        { engine := Moves.refl
          state := rfl
          log := fun _ member => member
          certificates := List.prefix_append _ _
          same := fun isKept => absurd isKept offering
          silent := fun _ => by simp }
  · exact along_throw

theorem resolvePsk_within {identity : Bytes} : Along (Within .keying calm kept) (resolvePsk identity) := by
  refine along_bind along_get fun s => along_bind along_orThrow fun resolve => ?_
  split
  · refine along_bind (along_modify fun s => ?_) fun _ => ?_
    · exact Within.of_fields rfl rfl rfl rfl fun _ => id
    · exact along_withEngine (withContext_moves (Phase.mayRekey (by decide)))
  · refine along_bind (along_withEngine randomArr_moves) fun _ =>
      along_bind (along_modify fun s => ?_) fun _ => ?_
    · exact Within.of_fields rfl rfl rfl rfl fun _ => id
    · exact along_withEngine (withContext_moves (Phase.mayRekey (by decide)))

theorem agreeOnSecret_within {suite : Dtls12CipherSuite} {exchange : ClientKeyExchange}
    {buffer : Bytes} : Along (Within .keying calm kept) (agreeOnSecret suite exchange buffer) := by
  refine along_ite (fun _ => ?_) fun _ => ?_
  · split
    · exact along_bind resolvePsk_within fun _ =>
        along_withEngine (withContext_moves (Phase.mayRekey (by decide)))
    · exact along_throw
  · split
    · exact along_withEngine (withContext_moves (Phase.mayRekey (by decide)))
    · exact along_throw

theorem handleClientKeyExchange_within {exchange : ClientKeyExchange} {buffer : Bytes} :
    Along (Within .keying calm kept) (handleClientKeyExchange exchange buffer) := by
  refine along_bind selectedCipherSuite_within fun suite => along_bind agreeOnSecret_within fun _ =>
    along_bind (along_modify fun s => ?_) fun _ => along_bind along_get fun s => ?_
  · exact Within.of_fields rfl rfl rfl rfl fun _ => id
  · refine along_bind along_orThrow fun _ => along_bind along_orThrow fun _ =>
      along_bind along_orThrow fun _ => along_bind ?_ fun _ => along_pure
    exact along_withEngine (deriveSessionKeys_moves (Phase.mayRekey (by decide)))

theorem awaitClientKeyExchange_within : Along (Within .keying calm kept) awaitClientKeyExchange := by
  refine onHandshake_within fun body buffer => ?_
  split
  · exact handleClientKeyExchange_within
  · exact along_throw

theorem logCheck_within {check : Check} : Along (Within phase calm kept) (logCheck check) :=
  along_modify fun _ =>
    { engine := Moves.refl
      state := rfl
      log := fun _ member => List.mem_append_left _ member
      certificates := List.prefix_refl _
      same := fun _ => rfl
      silent := fun _ => id }

theorem awaitCertificateVerify_within : Along (Within .sealing calm kept) awaitCertificateVerify := by
  refine along_bind along_get fun s => onHandshake_within fun body buffer => ?_
  split
  · exact along_bind along_get fun s => along_bind along_orThrow fun _ =>
      along_bind along_liftCrypto fun _ => along_bind logCheck_within fun _ => along_pure
  · exact along_throw

theorem awaitChangeCipherSpec_within : Along (Within .sealing calm kept) awaitChangeCipherSpec := by
  apply along_bind (along_withEngine (moves_of_quiet nextRecord_quiet))
  intro result
  cases result with
  | none => exact along_pure
  | some r =>
      refine along_bind (along_withEngine (moves_of_quiet dropPendingCcs_quiet)) fun _ =>
        along_bind (along_withEngine ?_) fun _ => along_pure
      exact enablePeerEncryption_along (fun _ => rfl) fun _ => trivial

theorem awaitFinished_within : Along (Within .sealing calm kept) awaitFinished := by
  refine along_bind along_get fun s =>
    along_bind (along_withEngine generateVerifyData_readOnly.along) fun expected => ?_
  refine onHandshake_within fun body buffer => ?_
  split
  · refine along_ite (fun _ => along_throw) fun _ => along_bind logCheck_within fun _ =>
      along_bind along_get fun s => ?_
    exact along_ite (fun _ => along_throw) fun _ => along_ite (fun _ => along_throw) fun _ =>
      along_pure
  · exact along_throw

theorem sendChangeCipherSpec_within : Along (Within .sealing calm kept) sendChangeCipherSpec :=
  along_bind (along_withEngine flightBegin_moves) fun _ =>
    along_bind (along_withEngine (createRecord_moves fun plain => absurd rfl plain)) fun _ =>
      along_pure

theorem emitKeyingMaterial_within : Along (Within .sealing False kept) emitKeyingMaterial := by
  refine along_get_bind fun s => ?_
  split
  · exact Std.Refl.refl s
  · rw [post_bind, post_orThrow]
    refine ⟨fun suite _ => ?_, fun _ => Std.Refl.refl s⟩
    rw [post_set]
    exact Within.of_fields rfl rfl rfl rfl False.elim

theorem sendFinished_within : Along (Within .sealing False kept) sendFinished := by
  refine along_bind (along_withEngine (createHandshake_moves generateVerifyData_readOnly.along
    fun notSealing => absurd rfl notSealing)) fun _ => ?_
  refine along_bind (along_withEngine (along_modify fun _ => ?_)) fun _ =>
    along_bind (along_modify fun s => ?_) fun _ => along_bind emitKeyingMaterial_within fun _ =>
      along_bind (along_withEngine (along_modify fun _ => ?_)) fun _ => along_pure
  · exact Moves.of_timed (t := .disabled) not_false rfl (List.Subset.refl _)
  · exact Within.of_fields rfl rfl rfl rfl False.elim
  · exact Change.moves (.released not_false) rfl

theorem awaitApplicationData_within : Along (Within .sealing False kept) awaitApplicationData := by
  refine along_get_bind fun s => ?_
  rw [post_ite]
  constructor
  · intro _
    refine along_bind (along_withEngine (along_modify fun _ => ?_)) (fun _ =>
      along_bind (along_withEngine (createRecord_moves fun plain => absurd rfl plain)) fun _ =>
        along_pure) s
    exact Moves.of_core rfl (List.Subset.refl _)
  · intro _
    rw [post_bind, post_set]
    refine Along.after (s := s) (along_bind (along_withEngine
      (sendQueued_moves fun plain => absurd rfl plain)) fun _ => along_pure) ?_
    exact Within.of_fields rfl rfl rfl rfl False.elim

/-- Every handler stays within the phase of its state. -/
theorem makeProgress_within (state : State) :
    Along (Within state.phase state.calm (state ≠ .awaitCertificate)) state.makeProgress := by
  cases state with
  | awaitClientHello => exact awaitClientHello_within
  | sendServerHello => exact sendServerHello_within
  | sendCertificate => exact sendCertificate_within
  | sendServerKeyExchange => exact sendServerKeyExchange_within
  | sendCertificateRequest => exact sendCertificateRequest_within
  | sendServerHelloDone => exact sendServerHelloDone_within
  | awaitCertificate => exact awaitCertificate_within fun isKept => isKept rfl
  | awaitClientKeyExchange => exact awaitClientKeyExchange_within
  | awaitCertificateVerify => exact awaitCertificateVerify_within
  | awaitChangeCipherSpec => exact awaitChangeCipherSpec_within
  | awaitFinished => exact awaitFinished_within
  | sendChangeCipherSpec => exact sendChangeCipherSpec_within
  | sendFinished => exact sendFinished_within
  | awaitApplicationData => exact awaitApplicationData_within
  | closed => exact along_pure

end Handlers

/-- The states a handler may return beside its own. -/
def State.follows : State → List State
  | .awaitClientHello => [.sendServerHello]
  | .sendServerHello => [.sendCertificate, .sendServerKeyExchange]
  | .sendCertificate => [.sendServerKeyExchange]
  | .sendServerKeyExchange => [.sendCertificateRequest, .sendServerHelloDone]
  | .sendCertificateRequest => [.sendServerHelloDone]
  | .sendServerHelloDone => [.awaitCertificate, .awaitClientKeyExchange]
  | .awaitCertificate => [.awaitClientKeyExchange]
  | .awaitClientKeyExchange => [.awaitCertificateVerify, .awaitChangeCipherSpec]
  | .awaitCertificateVerify => [.awaitChangeCipherSpec]
  | .awaitChangeCipherSpec => [.awaitFinished]
  | .awaitFinished => [.sendChangeCipherSpec]
  | .sendChangeCipherSpec => [.sendFinished]
  | .sendFinished => [.awaitApplicationData]
  | .awaitApplicationData => [.closed]
  | .closed => []

section Transitions

theorem onHandshake_returns {P : State → Prop} {wanted : MessageType} {stay : State}
    {handle : Body → Bytes → ServerM State} (stays : P stay)
    (handled : ∀ body buffer, Returns P (handle body buffer)) :
    Returns P (onHandshake wanted stay handle) := by
  apply returns_bind
  intro result
  cases result with
  | none => exact returns_pure stays
  | some message => exact handled message.1.body message.2

/-- Every handler returns its state or one that follows it. -/
theorem makeProgress_returns (state : State) :
    Returns (fun next => next ∈ state :: state.follows) state.makeProgress := by
  cases state with
  | awaitClientHello =>
      unfold State.makeProgress Server.awaitClientHello
      refine onHandshake_returns (by decide) fun body buffer => ?_
      split
      · refine returns_bind fun s => returns_ite returns_throw (returns_ite returns_throw
          (returns_ite ?_ ?_))
        · exact returns_bind fun _ => returns_bind fun _ => returns_bind fun _ =>
            returns_bind fun _ => returns_bind fun _ => returns_pure (by decide)
        · refine returns_bind fun _ => returns_bind fun _ => returns_bind fun _ =>
            returns_bind fun _ => ?_
          split
          · exact returns_throw
          · exact returns_ite returns_throw (returns_bind fun _ => returns_pure (by decide))
      · exact returns_throw
  | sendServerHello =>
      refine returns_bind fun _ => returns_bind fun _ => returns_bind fun _ => returns_bind fun _ =>
        returns_bind fun suite => returns_pure ?_
      split <;> decide
  | sendCertificate => exact returns_bind fun _ => returns_pure (by decide)
  | sendServerKeyExchange =>
      refine returns_bind fun suite => returns_ite ?_ ?_
      · refine returns_bind fun s => ?_
        split
        · exact returns_pure (by decide)
        · exact returns_bind fun _ => returns_pure (by decide)
      · refine returns_bind fun s => returns_bind fun _ => returns_bind fun _ => returns_bind fun _ =>
          returns_bind fun _ => returns_bind fun _ => returns_bind fun _ => returns_pure ?_
        split <;> decide
  | sendCertificateRequest =>
      exact returns_bind fun _ => returns_bind fun _ => returns_pure (by decide)
  | sendServerHelloDone =>
      refine returns_bind fun _ => returns_bind fun suite => returns_bind fun s => returns_pure ?_
      split <;> decide
  | awaitCertificate =>
      unfold State.makeProgress Server.awaitCertificate
      refine onHandshake_returns (by decide) fun body buffer => ?_
      split
      · exact returns_bind fun _ => returns_pure (by decide)
      · exact returns_throw
  | awaitClientKeyExchange =>
      unfold State.makeProgress Server.awaitClientKeyExchange
      refine onHandshake_returns (by decide) fun body buffer => ?_
      split
      · refine returns_bind fun suite => returns_bind fun _ => returns_bind fun _ =>
          returns_bind fun s => returns_bind fun _ => returns_bind fun _ => returns_bind fun _ =>
            returns_bind fun _ => returns_pure ?_
        split <;> decide
      · exact returns_throw
  | awaitCertificateVerify =>
      refine returns_bind fun s => onHandshake_returns (by decide) fun body buffer => ?_
      split
      · exact returns_bind fun _ => returns_bind fun _ => returns_bind fun _ =>
          returns_bind fun _ => returns_pure (by decide)
      · exact returns_throw
  | awaitChangeCipherSpec =>
      apply returns_bind
      intro result
      cases result with
      | none => exact returns_pure (by decide)
      | some r => exact returns_bind fun _ => returns_bind fun _ => returns_pure (by decide)
  | awaitFinished =>
      refine returns_bind fun s => returns_bind fun expected => ?_
      refine onHandshake_returns (by decide) fun body buffer => ?_
      split
      · exact returns_ite returns_throw (returns_bind fun _ => returns_bind fun _ =>
          returns_ite returns_throw (returns_ite returns_throw (returns_pure (by decide))))
      · exact returns_throw
  | sendChangeCipherSpec => exact returns_bind fun _ => returns_bind fun _ => returns_pure (by decide)
  | sendFinished =>
      exact returns_bind fun _ => returns_bind fun _ => returns_bind fun _ => returns_bind fun _ =>
        returns_bind fun _ => returns_pure (by decide)
  | awaitApplicationData =>
      exact returns_bind fun s => returns_ite
        (returns_bind fun _ => returns_bind fun _ => returns_pure (by decide))
        (returns_bind fun _ => returns_bind fun _ => returns_pure (by decide))
  | closed => exact returns_pure (by decide)

end Transitions

end Server

end Dimpl.Dtls12
