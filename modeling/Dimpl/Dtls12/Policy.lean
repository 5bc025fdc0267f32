import Dimpl.Dtls12.ClientInv
import Dimpl.Dtls12.Selection
import Dimpl.Policy

/-!
# What a client takes over from its server

A client takes the suite out of the ServerHello, the group and a signature out of the
ServerKeyExchange. Suite and signature are held against the configuration and the list that
was offered, the group is taken as it is.
-/

namespace Dimpl.Dtls12

open Nom Program

/-- The settings of an engine and its suite. -/
def Engine.charter (e : Engine) : Config × Option Dtls12CipherSuite := (e.config, e.cipherSuite)

/-- The suite is one of the configuration. -/
def Engine.SuiteAllowed (e : Engine) : Prop :=
  ∀ suite, e.cipherSuite = some suite → e.isCipherSuiteAllowed suite = true

/-- The rules of functions that do not select a suite. -/
def unselectedRules : Rules := { settledRules with mayRekey := fun _ => True }

section Engines

variable {e e' : Engine}

theorem Change.charter (change : Change unselectedRules e e') : e'.charter = e.charter := by
  cases change with
  | quiet step =>
      have same := footing_of_session step.grows.session
      exact congrArg (fun footing : Config × Option Dtls12CipherSuite × CryptoContext =>
        (footing.1, footing.2.1)) same
  | received | enabled | released | timed | rekeyed => rfl
  | selected allowed => exact absurd allowed not_false
  | retold => rfl

theorem Changes.charter (changes : Changes unselectedRules e e') : e'.charter = e.charter := by
  induction changes with
  | refl => rfl
  | tail _ change inductionHypothesis => exact change.charter.trans inductionHypothesis

theorem charter_of_moves {α : Type} {program : EngineM α}
    (moves : Along (Moves unselectedRules) program) : Along (Keeps Engine.charter) program :=
  moves.mono fun _ _ moved => (moved False.elim).1.charter

theorem charter_of_quiet {α : Type} {program : EngineM α}
    (quiet : Along (Quiet (fun _ => True) False) program) : Along (Keeps Engine.charter) program := by
  have moves : Along (Moves unselectedRules) program := moves_of_quiet quiet
  exact charter_of_moves moves

end Engines

/-- The algorithm of a signature that was accepted. -/
def Check.algorithm? : Check → Option SignatureAndHashAlgorithm
  | .signature _ _ _ algorithm => some algorithm
  | _ => none

/-- The group of an exchange with the parameters of the peer. -/
def Check.group? : Check → Option NamedGroup
  | .exchanged group _ => some group
  | _ => none

namespace Client

/-- What a client has taken over: its suite, the algorithms of the signatures and the groups. -/
structure Pact where
  charter : Config × Option Dtls12CipherSuite
  algorithms : List SignatureAndHashAlgorithm
  groups : List NamedGroup

/-- The pact of a client. -/
def pact (c : Client) : Pact :=
  ⟨c.engine.charter, c.log.filterMap Check.algorithm?, c.log.filterMap Check.group?⟩

section Handlers

variable {c : Client}

theorem withEngine_pact {α : Type} {program : EngineM α} (keeps : Along (Keeps Engine.charter) program) :
    Along (Keeps pact) (withEngine program) :=
  along_zoom keeps fun c engine same => by
    have isSame : engine.charter = c.engine.charter := same
    simp [Keeps, pact, isSame]

theorem moved_pact {α : Type} {program : EngineM α} (moves : Along (Moves unselectedRules) program) :
    Along (Keeps pact) (withEngine program) :=
  withEngine_pact (charter_of_moves moves)

theorem modify_pact {f : Client → Client} (same : ∀ c, (f c).pact = c.pact) :
    Along (Keeps pact) (modify f : ClientM PUnit) :=
  along_modify same

theorem selectedCipherSuite_pact : Along (Keeps pact) (withEngine selectedCipherSuite) :=
  withEngine_pact selectedCipherSuite_readOnly.along

theorem onHandshake_pact {wanted : MessageType} {stay : State} {handle : Body → Bytes → ClientM State}
    (handles : ∀ body buffer, Along (Keeps pact) (handle body buffer)) :
    Along (Keeps pact) (onHandshake wanted stay handle) := by
  refine along_bind (withEngine_pact (charter_of_quiet nextHandshake_quiet)) fun found => ?_
  cases found with
  | none => exact along_pure
  | some message => exact handles _ _

theorem awaitHelloVerifyRequest_pact : Along (Keeps pact) awaitHelloVerifyRequest := by
  refine along_bind along_get fun c => along_ite (fun _ => along_pure) fun _ => ?_
  refine onHandshake_pact fun body _ => ?_
  split
  · refine along_ite (fun _ => along_throw) fun _ => along_bind (modify_pact fun _ => rfl) fun _ => ?_
    exact along_bind (withEngine_pact (along_modify fun _ => rfl)) fun _ => along_pure
  · exact along_throw

theorem awaitServerHelloDone_pact : Along (Keeps pact) awaitServerHelloDone := by
  refine onHandshake_pact fun body _ => ?_
  split
  · refine along_bind selectedCipherSuite_pact fun suite => along_get_bind fun c => ?_
    simp only [post_ite]
    refine ⟨fun _ => rfl, fun _ => ⟨fun _ => rfl, fun _ => ?_⟩⟩
    rw [post_bind, post_set]
    rfl
  · exact along_throw

theorem sendClientKeyExchange_pact : Along (Keeps pact) sendClientKeyExchange := by
  refine along_bind along_get fun c => ?_
  refine along_bind (moved_pact (along_runIf fun _ => flightBegin_moves)) fun _ => ?_
  refine along_bind (moved_pact (createHandshake_moves
    (createClientKeyExchange_moves fun _ => trivial) False.elim)) fun _ => ?_
  exact along_bind selectedCipherSuite_pact fun suite =>
    along_bind (modify_pact fun _ => rfl) fun _ => along_pure

theorem sendCertificateVerify_pact : Along (Keeps pact) sendCertificateVerify := by
  refine along_bind (moved_pact (createHandshake_moves ?_ False.elim)) fun _ => along_pure
  refine along_bind along_get fun e => along_bind along_orThrow fun _ =>
    along_bind along_orThrow fun _ => ?_
  exact along_bind (withContext_moves fun _ => trivial) fun _ => along_pure

theorem sendChangeCipherSpec_pact : Along (Keeps pact) sendChangeCipherSpec := by
  refine along_bind ?_ fun _ => along_bind (moved_pact (createRecord_moves False.elim)) fun _ => along_pure
  refine along_bind selectedCipherSuite_pact fun suite => along_bind along_get fun c => ?_
  refine along_bind along_orThrow fun _ => along_bind along_orThrow fun _ =>
    along_bind along_orThrow fun _ => ?_
  exact moved_pact (deriveSessionKeys_moves fun _ => trivial)

theorem awaitChangeCipherSpec_pact : Along (Keeps pact) awaitChangeCipherSpec := by
  refine along_bind (withEngine_pact (charter_of_quiet nextRecord_quiet)) fun found => ?_
  cases found with
  | none => exact along_pure
  | some r =>
      refine along_bind (withEngine_pact (charter_of_quiet dropPendingCcs_quiet)) fun _ => ?_
      refine along_bind (moved_pact ?_) fun _ => along_pure
      exact enablePeerEncryption_along (fun _ => trivial) fun _ => trivial

theorem awaitFinished_pact : Along (Keeps pact) awaitFinished := by
  refine along_bind along_get fun c =>
    along_bind (withEngine_pact generateVerifyData_readOnly.along) fun expected => ?_
  refine onHandshake_pact fun body buffer => ?_
  split
  · refine along_ite (fun _ => along_throw) fun _ => along_bind (modify_pact fun c => ?_) fun _ => ?_
    · simp [pact, Check.algorithm?, Check.group?]
    · refine along_bind (withEngine_pact (along_modify fun _ => rfl)) fun _ =>
        along_bind (modify_pact fun _ => rfl) fun _ => along_bind ?_ fun _ =>
          along_bind (withEngine_pact (along_modify fun _ => rfl)) fun _ => along_pure
      refine along_get_bind fun c => ?_
      split
      · rfl
      · rw [post_bind, post_orThrow]
        exact ⟨fun _ _ => rfl, fun _ => rfl⟩
  · exact along_throw

theorem awaitApplicationData_pact : Along (Keeps pact) awaitApplicationData := by
  refine along_get_bind fun c => ?_
  rw [post_ite]
  constructor
  · intro _
    refine along_bind (withEngine_pact ?_) (fun _ =>
      along_bind (moved_pact (createRecord_moves False.elim)) fun _ => along_pure) c
    exact along_modify fun _ => rfl
  · intro _
    rw [post_bind, post_set]
    refine Along.after (s := c) (along_bind (moved_pact ?_) fun _ => along_pure) rfl
    exact sendQueued_moves not_false

theorem handleExtensions_pact {buffer : Bytes} {extensions : List Extension} {found : Bool} :
    Along (Keeps pact) (handleExtensions buffer extensions found) := by
  induction extensions generalizing found with
  | nil => exact along_pure
  | cons ext rest inductionHypothesis =>
      refine along_ite (fun _ => ?_) fun _ => inductionHypothesis
      split
      · exact along_throw
      · exact along_bind (modify_pact fun _ => rfl) fun _ => inductionHypothesis

/-- The handlers that take nothing over. -/
theorem handlers_pact {state : State} (other : state ≠ .awaitServerHello)
    (another : state ≠ .awaitServerKeyExchange) : Along (Keeps pact) state.makeProgress := by
  cases state with
  | awaitServerHello => exact absurd rfl other
  | awaitServerKeyExchange => exact absurd rfl another
  | sendClientHello =>
      refine along_bind along_get fun c => along_bind along_orThrow fun random => ?_
      refine along_bind (moved_pact flightBegin_moves) fun _ => ?_
      exact along_bind (moved_pact (createHandshake_moves createClientHello_readOnly.along False.elim))
        fun _ => along_pure
  | awaitHelloVerifyRequest => exact awaitHelloVerifyRequest_pact
  | awaitCertificate =>
      unfold State.makeProgress Client.awaitCertificate
      refine onHandshake_pact fun body buffer => ?_
      split
      · exact along_ite (fun _ => along_throw) fun _ =>
          along_bind (modify_pact fun _ => rfl) fun _ => along_pure
      · exact along_throw
  | awaitCertificateRequest =>
      refine along_bind along_get fun c => along_ite (fun _ => along_pure) fun _ => ?_
      refine onHandshake_pact fun body _ => ?_
      split
      · refine along_bind along_get fun c => along_bind along_orThrow fun hash => ?_
        exact along_ite (fun _ => along_throw) fun _ =>
          along_bind (modify_pact fun _ => rfl) fun _ => along_pure
      · exact along_throw
  | awaitServerHelloDone => exact awaitServerHelloDone_pact
  | sendCertificate =>
      refine along_bind (moved_pact flightBegin_moves) fun _ => along_bind (moved_pact ?_) fun _ => along_pure
      exact createHandshake_moves (createCertificate_moves fun _ => trivial) False.elim
  | sendClientKeyExchange => exact sendClientKeyExchange_pact
  | sendCertificateVerify => exact sendCertificateVerify_pact
  | sendChangeCipherSpec => exact sendChangeCipherSpec_pact
  | sendFinished =>
      exact along_bind (moved_pact (createHandshake_moves generateVerifyData_readOnly.along False.elim))
        fun _ => along_pure
  | awaitChangeCipherSpec => exact awaitChangeCipherSpec_pact
  | awaitNewSessionTicket =>
      refine along_bind along_get fun c => along_ite (fun _ => along_pure) fun _ => ?_
      refine onHandshake_pact fun body _ => ?_
      split
      · exact along_pure
      · exact along_throw
  | awaitFinished => exact awaitFinished_pact
  | awaitApplicationData => exact awaitApplicationData_pact
  | closed => exact along_pure

/-- The suite of a ServerHello is held against the configuration. -/
theorem awaitServerHello_taken :
    Post awaitServerHello c
      (fun _ c' => c'.pact = c.pact ∨ ∃ suite, c.engine.isCipherSuiteAllowed suite = true ∧
        c'.pact = { c.pact with charter := (c.engine.config, some suite) })
      fun _ c' => c'.pact = c.pact ∨ ∃ suite, c.engine.isCipherSuiteAllowed suite = true ∧
        c'.pact = { c.pact with charter := (c.engine.config, some suite) } := by
  unfold awaitServerHello onHandshake
  rw [post_bind]
  refine (withEngine_pact (charter_of_quiet nextHandshake_quiet) c).mono (fun found c₁ kept => ?_)
    fun _ _ kept => .inl kept
  have kept : c₁.pact = c.pact := kept
  have isConfig : c₁.engine.config = c.engine.config := congrArg (fun p : Pact => p.charter.1) kept
  cases found with
  | none => exact .inl kept
  | some message =>
      dsimp only
      split
      · rename_i hello _
        unfold handleServerHello
        rw [post_bind, post_get]
        split
        · exact .inl kept
        · rename_i passes
          have allowed : c.engine.isCipherSuiteAllowed hello.cipherSuite = true := by
            unfold refuseServerHello at passes
            dsimp only at passes
            split_ifs at passes with _ _ _ _ refused
            unfold Engine.isCipherSuiteAllowed at refused ⊢
            rw [← isConfig]
            simpa using refused
          rw [post_bind]
          unfold withEngine setCipherSuite
          rw [post_zoom, post_bind, post_get, post_bind, post_orThrow]
          refine ⟨fun supported _ => ?_, fun _ => .inl kept⟩
          rw [post_set, post_bind, post_modify]
          refine ((?_ : Along (Keeps pact) _) _).mono (fun _ c₂ same => ?_) fun _ c₂ same => ?_
          · split
            · exact along_throw
            · exact along_bind handleExtensions_pact fun _ =>
                along_ite (fun _ => along_throw) fun _ => along_pure
          · refine .inr ⟨hello.cipherSuite, allowed, same.trans ?_⟩
            rw [← kept]
            simp [pact, Engine.charter, isConfig]
          · refine .inr ⟨hello.cipherSuite, allowed, same.trans ?_⟩
            rw [← kept]
            simp [pact, Engine.charter, isConfig]
      · exact .inl kept

/-- The group a ServerKeyExchange names. -/
def keyExchangeGroup : Body → List NamedGroup
  | .serverKeyExchange (.ecdh params) => [params.namedGroup]
  | _ => []

/-- The group of the ServerKeyExchange that a client finds. -/
def foundGroups (c : Client) : List NamedGroup :=
  match c.state, value? (withEngine (nextHandshake .serverKeyExchange)) c with
  | .awaitServerKeyExchange, some (some (handshake, _)) => keyExchangeGroup handshake.body
  | _, _ => []

/-- What the parameters of a server add to the pact: a signature of an algorithm that was
offered, and the group. -/
def Signed (groups : List NamedGroup) (c c' : Client) : Prop :=
  c'.engine.charter = c.engine.charter ∧
    (∀ algorithm ∈ c'.pact.algorithms, algorithm ∈ c.pact.algorithms ∨ algorithm.isSupported = true) ∧
    ∀ group ∈ c'.pact.groups, group ∈ c.pact.groups ∨ group ∈ groups

theorem Signed.of_pact {groups : List NamedGroup} {c' : Client} (same : c'.pact = c.pact) :
    Signed groups c c' := by
  refine ⟨congrArg Pact.charter same, fun _ member => .inl ?_, fun _ member => .inl ?_⟩
  · rwa [same] at member
  · rwa [same] at member

theorem selectedSuite_readOnly : ReadOnly (withEngine selectedCipherSuite) :=
  along_zoom selectedCipherSuite_readOnly fun _ _ unchanged => by
    subst unchanged
    rfl

theorem handleSignedParams_signed {params : EcdhParams} {signed : DigitallySigned} {buffer : Bytes} :
    Post (handleSignedParams params signed buffer) c
      (fun _ c' => Signed [params.namedGroup] c c') fun _ c' => Signed [params.namedGroup] c c' := by
  have same : Signed [params.namedGroup] c c := .of_pact rfl
  unfold handleSignedParams
  rw [post_bind, post_get, post_bind, post_orThrow]
  refine ⟨fun clientRandom _ => ?_, fun _ => same⟩
  rw [post_bind, post_orThrow]
  refine ⟨fun serverRandom _ => ?_, fun _ => same⟩
  rw [post_bind]
  refine (selectedSuite_readOnly c).mono (fun suite _ unchanged => ?_) fun _ _ unchanged => unchanged ▸ same
  subst unchanged
  split
  · exact same
  · rename_i passes
    have supported : signed.algorithm.isSupported = true := by
      unfold refuseAlgorithm at passes
      split_ifs at passes with refused
      simpa using refused
    rw [post_bind, post_orThrow]
    refine ⟨fun certificate _ => ?_, fun _ => same⟩
    dsimp only
    rw [post_bind, post_liftCrypto]
    refine ⟨fun _ _ => ?_, fun _ _ => same⟩
    unfold logCheck
    rw [post_bind, post_modify, post_bind, post_modify]
    have rest : Along (Keeps pact) (do
        withEngine (withContext (CryptoContext.processEcdhParams c.engine.config.cryptoProvider
          params.namedGroup (slice buffer params.publicKeyRange)))
        return State.awaitCertificateRequest) :=
      along_bind (moved_pact (withContext_moves fun _ => trivial)) fun _ => along_pure
    have signs : ∀ c' : Client, c'.pact = ⟨c.engine.charter, c.pact.algorithms ++ [signed.algorithm],
          c.pact.groups ++ [params.namedGroup]⟩ → Signed [params.namedGroup] c c' := by
      intro c' isPact
      refine ⟨congrArg Pact.charter isPact, ?_, ?_⟩
      · rw [isPact]
        intro algorithm member
        rcases List.mem_append.mp member with old | new
        · exact .inl old
        · rw [List.mem_singleton.mp new]
          exact .inr supported
      · rw [isPact]
        simp only [List.mem_append]
        exact fun group member => member
    refine (rest _).mono (fun _ c' kept => signs c' (kept.trans ?_)) fun _ c' kept => signs c' (kept.trans ?_)
    · simp only [pact, List.append_assoc, List.filterMap_append]
      rfl
    · simp only [pact, List.append_assoc, List.filterMap_append]
      rfl

/-- The group of a ServerKeyExchange is taken as it is. -/
theorem awaitServerKeyExchange_taken (isState : c.state = .awaitServerKeyExchange) :
    Post awaitServerKeyExchange c (fun _ c' => Signed c.foundGroups c c')
      fun _ c' => Signed c.foundGroups c c' := by
  have same : Signed c.foundGroups c c := .of_pact rfl
  unfold awaitServerKeyExchange
  rw [post_bind]
  refine (selectedSuite_readOnly c).mono (fun suite _ unchanged => ?_) fun _ _ unchanged => unchanged ▸ same
  subst unchanged
  rw [post_ite]
  constructor
  · intro _
    have psk : Along (Keeps pact) awaitServerKeyExchangePsk := by
      refine along_bind along_get fun c => along_ite (fun _ => along_pure) fun _ => ?_
      refine onHandshake_pact fun body _ => ?_
      split
      · exact along_pure
      · exact along_throw
      · exact along_throw
    exact (psk c).mono (fun _ _ kept => .of_pact kept) fun _ _ kept => .of_pact kept
  · intro _
    unfold awaitServerKeyExchangeEcdhe onHandshake
    rw [post_bind]
    refine ((withEngine_pact (charter_of_quiet nextHandshake_quiet) c).and post_self).mono
      (fun found c₁ both => ?_) fun _ _ both => .of_pact both.1
    obtain ⟨kept, isFound⟩ := both
    have kept : c₁.pact = c.pact := kept
    cases found with
    | none => exact .of_pact kept
    | some message =>
        have isGroups : c.foundGroups = keyExchangeGroup message.1.body := by
          unfold foundGroups
          rw [isState, value_of_ok isFound]
        dsimp only
        rw [isGroups]
        split
        · rename_i exchange isBody
          split
          · rename_i params
            split
            · rename_i signed _
              have isGroup : keyExchangeGroup (.serverKeyExchange (.ecdh params)) =
                  [params.namedGroup] := rfl
              rw [isBody, isGroup]
              have moved : ∀ c', Signed [params.namedGroup] c₁ c' → Signed [params.namedGroup] c c' := by
                intro c' signs
                unfold Signed at signs ⊢
                rw [kept] at signs
                exact ⟨signs.1.trans (congrArg Pact.charter kept), signs.2⟩
              exact handleSignedParams_signed.mono (fun _ c' signs => moved c' signs)
                fun _ c' signs => moved c' signs
            · exact .of_pact kept
          · exact .of_pact kept
        · exact .of_pact kept

end Handlers

/-- A client and its policy: the suite and the signatures always keep to it, the groups as
far as `allowed` says. -/
structure Policy (config : Config) (allowed : NamedGroup → Prop) (c : Client) : Prop where
  config : c.engine.config = config
  suite : ∀ suite, c.engine.cipherSuite = some suite → c.engine.isCipherSuiteAllowed suite = true
  algorithms : ∀ algorithm ∈ c.pact.algorithms, algorithm.isSupported = true
  groups : ∀ group ∈ c.pact.groups, allowed group

/-- The handlers of a client. -/
def machine : Machine Fault Client State where
  state := Client.state
  enter := fun next c => { c with state := next }
  handler := State.makeProgress

/-- What `handle_timeout` does in front of `make_progress`. -/
def beat (now : Instant) : ClientM Unit := do
  modify fun (c : Client) => { c with lastNow := now }
  initRandom now
  withEngine (Engine.handleTimeout now)

/-- The groups of the ServerKeyExchanges that a client finds in a call. -/
def namedGroups (c : Client) : Call → List NamedGroup
  | .handlePacket packet =>
    following (withEngine (receivePacket packet)) (machine.rounds foundGroups 20) c
  | .handleTimeout now => following (beat now) (machine.rounds foundGroups 20) c
  | _ => []

/-- Whether all groups so far were configured. -/
def within (config : Config) (allowed : Prop) (group : NamedGroup) : Prop :=
  allowed ∧ config.HasGroup group

/-- The policy, as long as all groups that were named are configured. -/
def Obeys (config : Config) (allowed : Prop) (c : Client) : Prop :=
  Policy config (fun group => allowed → config.HasGroup group) c

section Runs

variable {config : Config} {allowed : Prop} {c c' : Client}

theorem within_all {groups : List NamedGroup} :
    groups.foldl (within config) allowed ↔ allowed ∧ ∀ group ∈ groups, config.HasGroup group := by
  induction groups generalizing allowed with
  | nil => simp
  | cons group rest inductionHypothesis => simp [inductionHypothesis, within, and_assoc]

theorem Obeys.of_pact (obeys : Obeys config allowed c) (same : c'.pact = c.pact) :
    Obeys config allowed c' where
  config := (congrArg (fun p : Pact => p.charter.1) same).trans obeys.config
  suite := fun suite isSuite => by
    have isConfig : c'.engine.config = c.engine.config := congrArg (fun p : Pact => p.charter.1) same
    have isSame : c'.engine.cipherSuite = c.engine.cipherSuite :=
      congrArg (fun p : Pact => p.charter.2) same
    unfold Engine.isCipherSuiteAllowed
    rw [isConfig]
    exact obeys.suite suite (isSame ▸ isSuite)
  algorithms := by rw [same]; exact obeys.algorithms
  groups := by rw [same]; exact obeys.groups

theorem Obeys.enter {state : State} (obeys : Obeys config allowed c) :
    Obeys config allowed { c with state } :=
  obeys.of_pact rfl

/-- What was taken out of a ServerHello. -/
theorem Obeys.of_hello (obeys : Obeys config allowed c)
    (taken : c'.pact = c.pact ∨ ∃ suite, c.engine.isCipherSuiteAllowed suite = true ∧
      c'.pact = { c.pact with charter := (c.engine.config, some suite) }) :
    Obeys config allowed c' := by
  rcases taken with same | ⟨suite, isAllowed, isPact⟩
  · exact obeys.of_pact same
  · have isConfig : c'.engine.config = c.engine.config := congrArg (fun p : Pact => p.charter.1) isPact
    have isSuite : c'.engine.cipherSuite = some suite := congrArg (fun p : Pact => p.charter.2) isPact
    refine ⟨isConfig.trans obeys.config, fun suite' isSuite' => ?_, ?_, ?_⟩
    · rw [isSuite] at isSuite'
      cases isSuite'
      unfold Engine.isCipherSuiteAllowed
      rw [isConfig]
      exact isAllowed
    · rw [isPact]
      exact obeys.algorithms
    · rw [isPact]
      exact obeys.groups

/-- What was taken out of a ServerKeyExchange. -/
theorem Obeys.of_signed {groups : List NamedGroup} (obeys : Obeys config allowed c)
    (signed : Signed groups c c') : Obeys config (groups.foldl (within config) allowed) c' := by
  obtain ⟨charter, algorithms, named⟩ := signed
  have isConfig : c'.engine.config = c.engine.config := congrArg Prod.fst charter
  have isSuite : c'.engine.cipherSuite = c.engine.cipherSuite := congrArg Prod.snd charter
  refine ⟨isConfig.trans obeys.config, fun suite isSome => ?_, fun algorithm member => ?_,
    fun group member all => ?_⟩
  · unfold Engine.isCipherSuiteAllowed
    rw [isConfig]
    exact obeys.suite suite (isSuite ▸ isSome)
  · exact (algorithms algorithm member).elim (obeys.algorithms algorithm) id
  · obtain ⟨before, all⟩ := within_all.mp all
    exact (named group member).elim (fun old => obeys.groups group old before) (all group)

/-- One round. -/
theorem round_obeys (obeys : Obeys config allowed c) :
    Post c.state.makeProgress c
      (fun next c' =>
        if next = c.state then Obeys config (c.foundGroups.foldl (within config) allowed) c'
        else Obeys config (c.foundGroups.foldl (within config) allowed) { c' with state := next })
      fun _ c' => Obeys config (c.foundGroups.foldl (within config) allowed) c' := by
  have post : Post c.state.makeProgress c
      (fun _ c' => Obeys config (c.foundGroups.foldl (within config) allowed) c')
      fun _ c' => Obeys config (c.foundGroups.foldl (within config) allowed) c' := by
    by_cases isExchange : c.state = .awaitServerKeyExchange
    · have taken := awaitServerKeyExchange_taken isExchange
      rw [isExchange]
      exact taken.mono (fun _ _ signed => obeys.of_signed signed) fun _ _ signed => obeys.of_signed signed
    · have isNone : c.foundGroups = [] := by
        unfold foundGroups
        split
        · rename_i isState _
          exact absurd isState isExchange
        · rfl
      rw [isNone]
      by_cases isHello : c.state = .awaitServerHello
      · rw [isHello]
        exact awaitServerHello_taken.mono (fun _ _ taken => obeys.of_hello taken)
          fun _ _ taken => obeys.of_hello taken
      · exact (handlers_pact isHello isExchange c).mono (fun _ _ kept => obeys.of_pact kept)
          fun _ _ kept => obeys.of_pact kept
  refine post.mono (fun next c' kept => ?_) fun _ _ kept => kept
  split
  · exact kept
  · exact kept.enter

theorem progressLoop_machine {fuel : Nat} : progressLoop fuel = machine.loop (.panic .assertion) fuel := by
  induction fuel with
  | zero => rfl
  | succ fuel inductionHypothesis =>
      unfold progressLoop Machine.loop
      rw [inductionHypothesis]
      rfl

/-- The rounds of a call. -/
theorem makeProgress_obeys (obeys : Obeys config allowed c) :
    Obeys config ((machine.rounds foundGroups 20 c).foldl (within config) allowed)
      (finalState makeProgress c) := by
  unfold makeProgress
  rw [progressLoop_machine]
  exact machine.loop_state (fun _ _ kept => kept) (fun _ _ kept => round_obeys kept) obeys

theorem Obeys.after {α : Type} {program : ClientM α} (obeys : Obeys config allowed c)
    (keeps : Along (Keeps pact) program) :
    Post program c (fun _ c' => Obeys config allowed c') fun _ c' => Obeys config allowed c' :=
  (keeps c).mono (fun _ _ same => obeys.of_pact same) fun _ _ same => obeys.of_pact same

theorem beat_pact {now : Instant} : Along (Keeps pact) (beat now) := by
  refine along_bind (modify_pact fun _ => rfl) fun _ => along_bind ?_ fun _ => ?_
  · refine along_bind along_get fun c => ?_
    split
    · exact along_pure
    · exact along_bind (moved_pact newRandom_moves) fun _ => modify_pact fun _ => rfl
  · exact moved_pact fun e => handleTimeout_moves trivial

theorem pollOutput_pact {bufLen : Nat} : Along (Keeps pact) (Client.pollOutput bufLen) := by
  refine along_get_bind fun c => ?_
  split
  · rw [post_bind, post_set]
    exact (LocalEvent.intoOutput_readOnly.along).after rfl
  · exact withEngine_pact (charter_of_quiet pollOutput_quiet) c

theorem sendApplicationData_pact {data : Bytes} : Along (Keeps pact) (sendApplicationData data) := by
  refine along_get_bind fun c => ?_
  rw [post_ite]
  refine ⟨fun _ => rfl, fun _ => ?_⟩
  rw [post_ite]
  refine ⟨fun _ => rfl, fun _ => ?_⟩
  exact moved_pact (createRecord_moves False.elim) c

theorem close_pact : Along (Keeps pact) close := by
  refine along_get_bind fun c => ?_
  rw [post_ite]
  refine ⟨fun _ => rfl, fun _ => ?_⟩
  rw [post_ite]
  refine ⟨fun _ => rfl, fun _ => ?_⟩
  refine along_bind (moved_pact (createRecord_moves False.elim)) (fun _ => modify_pact ?_) c
  exact fun _ => rfl

/-- A call. -/
theorem exec_obeys {call : Call} (obeys : Obeys config allowed c) :
    Obeys config ((c.namedGroups call).foldl (within config) allowed) (c.exec call) := by
  cases call with
  | handlePacket packet =>
      show Obeys config _ (finalState (publicResult _) c)
      rw [finalState_publicResult]
      have receives : Along (Keeps pact) (withEngine (receivePacket packet)) :=
        moved_pact (receivePacket_moves fun _ _ => trivial)
      exact state_following makeProgress (obeys.after receives) fun _ kept => makeProgress_obeys kept
  | handleTimeout now =>
      have parts : Client.handleTimeout now = (do beat now; publicResult makeProgress) := by
        simp only [beat, bind_assoc]
        rfl
      show Obeys config _ (finalState (Client.handleTimeout now) c)
      rw [parts]
      refine state_following (publicResult makeProgress) (obeys.after (@beat_pact now)) fun c' kept => ?_
      rw [finalState_publicResult]
      exact makeProgress_obeys kept
  | pollOutput bufLen => exact post_state.mp (post_bind.mpr (obeys.after pollOutput_pact))
  | sendApplicationData data => exact post_state.mp (obeys.after sendApplicationData_pact)
  | close => exact post_state.mp (obeys.after close_pact)

/-- A client that has taken over nothing yet. -/
theorem Start.obeys (start : Start c) : Obeys c.engine.config True c := by
  have fresh : ∀ c : Client, c.engine.cipherSuite = none → c.log = [] →
      Obeys c.engine.config True c := by
    intro c unselected unlogged
    refine ⟨rfl, fun suite isSuite => ?_, ?_, ?_⟩
    · rw [unselected] at isSuite
      cases isSuite
    · simp [pact, unlogged]
    · simp [pact, unlogged]
  cases start with
  | fresh | hybrid => exact fresh _ rfl rfl

/-- In every run of a client the suite and the signatures keep to the policy, and so do the
groups if those that the server names do. -/
theorem run_obeys (start : Start c) (calls : List Call) :
    Policy c.engine.config
      (fun group => (∀ named ∈ traced exec namedGroups c calls, c.engine.config.HasGroup named) →
        c.engine.config.HasGroup group) (run exec c calls) := by
  have obeys : Obeys c.engine.config ((traced exec namedGroups c calls).foldl
      (within c.engine.config) True) (run exec c calls) :=
    traced_state (fun _ _ _ kept => exec_obeys kept) start.obeys
  refine { obeys with groups := fun group member all => ?_ }
  exact obeys.groups group member (within_all.mpr ⟨trivial, all⟩)

end Runs

end Client

end Dimpl.Dtls12
