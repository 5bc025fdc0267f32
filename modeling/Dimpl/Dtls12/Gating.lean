import Dimpl.Dtls12.ServerInv
import Dimpl.Dtls12.Terms

/-!
# A server and the keys of its clients

The resolver of the application knows the key of an identity or it does not. An unknown identity is
given a key nobody knows, and the handshake goes on with it. It must not get to its end, not even if
that key were guessed.
-/

namespace Dimpl.Dtls12

open Nom Program

/-- The premaster secret of a key. -/
def pskPreMasterSecret (psk : Bytes) : Bytes :=
  be16 psk.length ++ List.replicate psk.length 0 ++ be16 psk.length ++ psk

/-- A ClientKeyExchange with an identity came in. -/
def Identified (log : List Event) (identity : Bytes) : Prop :=
  ∃ body suite range rest, Heard log .clientKeyExchange body ∧
    Nom.parse (Body.parse 0 .clientKeyExchange suite) body = .ok (.clientKeyExchange (.psk range), rest) ∧
      identity = slice body range

theorem Identified.mono {log log' : List Event} {identity : Bytes} (identified : Identified log identity)
    (more : ∀ event ∈ log, event ∈ log') : Identified log' identity := by
  obtain ⟨body, suite, range, rest, heard, parsed, isIdentity⟩ := identified
  exact ⟨body, suite, range, rest, heard.mono more, parsed, isIdentity⟩

/-- The master secret of the session was made from a key. -/
def Engine.SecretFrom (e : Engine) (psk : Bytes) : Prop :=
  ∃ suite sessionHash master, e.cipherSuite = some suite ∧
    e.config.cryptoProvider.prfTls12 suite.hashAlgorithm (pskPreMasterSecret psk) "extended master secret"
      sessionHash 48 = .ok master ∧ e.cryptoContext.masterSecret = some master

namespace Server

/-- The key is one the resolver has for an identity that came in. -/
def Resolved (s : Server) (psk : Bytes) : Prop :=
  ∃ resolve identity, s.engine.config.pskResolver = some resolve ∧ resolve identity = some psk ∧
    Identified s.engine.log identity

/-- The session uses a pre-shared key. -/
def UsesPsk (s : Server) : Prop := s.engine.cipherSuite.any Dtls12CipherSuite.isPsk = true

/-- The secret was made from a key, and the server remembers whether it is a resolved one. -/
def Secured (s : Server) : Prop :=
  ∃ psk valid, s.pskValid = some valid ∧ s.engine.SecretFrom psk ∧ (valid = true → s.Resolved psk)

/-- Whether the secret is there. -/
def State.agreed : State → Bool
  | .awaitCertificateVerify | .awaitChangeCipherSpec | .awaitFinished | .sendChangeCipherSpec
  | .sendFinished | .awaitApplicationData => true
  | _ => false

/-- Whether the client's Finished was accepted. -/
def State.accepted : State → Bool
  | .sendChangeCipherSpec | .sendFinished | .awaitApplicationData => true
  | _ => false

theorem State.agreed_of_accepted {state : State} : state.accepted = true → state.agreed = true := by
  cases state <;> decide

/-- The connection is reported or about to be. -/
def Tells (s : Server) : Prop := s.engine.releaseAppData = true ∨ LocalEvent.connected ∈ s.localEvents

/-- What a server with a pre-shared key knows of the key in each state. -/
structure Gate (s : Server) : Prop where
  agreed : s.state.agreed = true → s.UsesPsk → s.Secured
  accepted : s.state.accepted = true → s.pskValid ≠ some false
  told : s.Tells → (s.UsesPsk → s.Secured) ∧ s.pskValid ≠ some false

/-- The session, what the server remembers of the key and what came in are kept. -/
structure Holds (s s' : Server) : Prop where
  verdict : s'.pskValid = s.pskValid
  session : s'.engine.session = s.engine.session
  log : ∀ event ∈ s.engine.log, event ∈ s'.engine.log

section Keeping

variable {s s' : Server} {due : Promise}

theorem Holds.usesPsk (holds : Holds s s') (psk : s'.UsesPsk) : s.UsesPsk := by
  have session := holds.session
  simp only [Engine.session, Prod.mk.injEq] at session
  unfold UsesPsk at psk ⊢
  rwa [session.2.2.2.2.1] at psk

theorem Holds.secured (holds : Holds s s') (agreed : s.Secured) : s'.Secured := by
  obtain ⟨psk, valid, isValid, ⟨suite, sessionHash, master, isSuite, derived, isMaster⟩, resolved⟩ := agreed
  have session := holds.session
  simp only [Engine.session, Prod.mk.injEq] at session
  obtain ⟨context, -, -, -, sameSuite, config⟩ := session
  refine ⟨psk, valid, holds.verdict.trans isValid, ⟨suite, sessionHash, master, ?_, ?_, ?_⟩, fun known => ?_⟩
  · exact sameSuite.trans isSuite
  · rw [config]
    exact derived
  · rw [context]
    exact isMaster
  · obtain ⟨resolve, identity, isResolver, found, identified⟩ := resolved known
    exact ⟨resolve, identity, config ▸ isResolver, found, identified.mono holds.log⟩

/-- In the phase of the keys, a handler keeps the session. -/
theorem Within.holds {phase : Phase} {calm kept : Prop} (within : Within phase calm kept s s')
    (inv : s.engine.PhaseInv phase) (isSealing : phase = .sealing) (verdict : s'.pskValid = s.pskValid) :
    Holds s s' where
  verdict := verdict
  session := (within.engine.endures inv).session isSealing
  log := (within.engine.endures inv).log

/-- What is calm tells nothing new. -/
theorem Within.tells {phase : Phase} {calm kept : Prop} (within : Within phase calm kept s s')
    (inv : s.engine.PhaseInv phase) (isCalm : calm) (tells : s'.Tells) : s.Tells :=
  tells.imp (fun on => ((within.engine.endures inv).unreleased isCalm) ▸ on) (within.silent isCalm)

/-- A server that tells nothing yet has nothing to know outside of the states that say so. -/
theorem Gate.of_early {state : State} (early : state.agreed = false) (untold : ¬s.Tells) :
    Gate { s with state } where
  agreed := fun isAgreed => absurd isAgreed (by simp [early])
  accepted := fun isAccepted => absurd (State.agreed_of_accepted isAccepted) (by simp [early])
  told := fun tells => absurd tells untold

/-- What a calm program keeps. -/
theorem Gate.of_calm {kept : Prop} (gate : Gate s) (inv : Inv due s)
    (within : Within s.state.phase True kept s s') (verdict : s'.pskValid = s.pskValid) : Gate s' := by
  by_cases isSealing : s.state.phase = .sealing
  · have holds := within.holds inv.phase isSealing verdict
    constructor
    · rw [within.state]
      exact fun isAgreed psk => holds.secured (gate.agreed isAgreed (holds.usesPsk psk))
    · rw [within.state, verdict]
      exact gate.accepted
    · intro tells
      obtain ⟨agreed, valid⟩ := gate.told (within.tells inv.phase trivial tells)
      exact ⟨fun psk => holds.secured (agreed (holds.usesPsk psk)), verdict ▸ valid⟩
  · have untold : ¬s'.Tells := by
      intro tells
      exact isSealing (inv.verified (within.tells inv.phase trivial tells)).1
    have early : s.state.agreed = false := by
      revert isSealing
      cases s.state <;> decide
    have kept := @Gate.of_early s' s.state early untold
    rwa [← within.state] at kept

end Keeping

section Handlers

variable {s : Server} {due : Promise}

theorem withEngine_verdict {α : Type} {program : EngineM α} :
    Along (Keeps Server.pskValid) (withEngine program) := by
  intro s
  unfold withEngine
  rw [post_zoom]
  exact post_self.mono (fun _ _ _ => rfl) fun _ _ _ => rfl

theorem onHandshake_verdict {wanted : MessageType} {stay : State} {handle : Body → Bytes → ServerM State}
    (handles : ∀ body buffer, Along (Keeps Server.pskValid) (handle body buffer)) :
    Along (Keeps Server.pskValid) (onHandshake wanted stay handle) := by
  refine along_bind withEngine_verdict fun found => ?_
  cases found with
  | none => exact along_pure
  | some message => exact handles _ _

/-- Behind the key exchange, what is remembered of the key stays. -/
theorem handlers_verdict {state : State} (isSealing : state.phase = .sealing) :
    Along (Keeps Server.pskValid) state.makeProgress := by
  cases state with
  | awaitCertificateVerify =>
      refine along_bind along_get fun s => onHandshake_verdict fun body buffer => ?_
      split
      · exact along_bind along_get fun s => along_bind along_orThrow fun _ =>
          along_bind along_liftCrypto fun _ => along_bind (along_modify fun _ => rfl) fun _ => along_pure
      · exact along_throw
  | awaitChangeCipherSpec =>
      refine along_bind withEngine_verdict fun found => ?_
      cases found with
      | none => exact along_pure
      | some r =>
          exact along_bind withEngine_verdict fun _ => along_bind withEngine_verdict fun _ => along_pure
  | awaitFinished =>
      refine along_bind along_get fun s => along_bind withEngine_verdict fun expected => ?_
      refine onHandshake_verdict fun body buffer => ?_
      split
      · refine along_ite (fun _ => along_throw) fun _ => along_bind (along_modify fun _ => rfl) fun _ => ?_
        refine along_bind along_get fun s => along_ite (fun _ => along_throw) fun _ => ?_
        exact along_ite (fun _ => along_throw) fun _ => along_pure
      · exact along_throw
  | sendChangeCipherSpec =>
      exact along_bind withEngine_verdict fun _ => along_bind withEngine_verdict fun _ => along_pure
  | sendFinished =>
      refine along_bind withEngine_verdict fun _ => along_bind withEngine_verdict fun _ =>
        along_bind (along_modify fun _ => rfl) fun _ => along_bind ?_ fun _ =>
          along_bind withEngine_verdict fun _ => along_pure
      refine along_get_bind fun s => ?_
      split
      · rfl
      · rw [post_bind, post_orThrow]
        exact ⟨fun _ _ => rfl, fun _ => rfl⟩
  | awaitApplicationData =>
      refine along_get_bind fun s => ?_
      rw [post_ite]
      constructor
      · intro _
        exact along_bind withEngine_verdict (fun _ => along_bind withEngine_verdict fun _ => along_pure) s
      · intro _
        rw [post_bind, post_set]
        exact Along.after (s := s) (along_bind withEngine_verdict fun _ => along_pure) rfl
  | closed => exact along_pure
  | _ => cases isSealing

/-- The derivation of the keys leaves the master secret as it is. -/
theorem deriveKeys_master {provider : CryptoProvider} {suite : Dtls12CipherSuite}
    {clientRandom serverRandom : Bytes} :
    Along (Keeps CryptoContext.masterSecret)
      (CryptoContext.deriveKeys provider suite clientRandom serverRandom) := by
  have made : ∀ {bytes : Bytes}, Along (Keeps CryptoContext.masterSecret) (ivNew bytes) :=
    along_ite (fun _ => along_pure) fun _ => along_throw
  refine along_get_bind fun c => ?_
  rw [post_bind, post_orThrow]
  refine ⟨fun masterSecret _ => ?_, fun _ => rfl⟩
  rw [post_bind, post_set]
  refine Along.after (s := c) (along_bind along_orThrow fun supported => ?_) rfl
  refine along_bind along_liftCrypto fun keyBlock => along_ite (fun _ => along_throw) fun _ => ?_
  refine along_bind (along_modify fun _ => rfl) fun _ => along_bind made fun _ => ?_
  refine along_bind (along_modify fun _ => rfl) fun _ => along_bind made fun _ => ?_
  refine along_bind (along_modify fun _ => rfl) fun _ => along_bind along_liftCrypto fun _ => ?_
  refine along_bind (along_modify fun _ => rfl) fun _ => along_bind along_liftCrypto fun _ => ?_
  exact along_modify fun _ => rfl

/-- The keys of a session are derived from the premaster secret. -/
theorem deriveSessionKeys_secret {e : Engine} {suite : Dtls12CipherSuite} {sessionHash : Bytes}
    {clientRandom serverRandom : Random} {preMasterSecret : Bytes}
    (isPre : e.cryptoContext.preMasterSecret = some preMasterSecret) :
    Post (deriveSessionKeys suite sessionHash clientRandom serverRandom) e
      (fun _ e' => ∃ context master, e' = { e with cryptoContext := context } ∧
        e.config.cryptoProvider.prfTls12 suite.hashAlgorithm preMasterSecret "extended master secret"
          sessionHash 48 = .ok master ∧ context.masterSecret = some master)
      (fun _ _ => True) := by
  unfold deriveSessionKeys withContext
  rw [post_bind, post_get, post_bind, post_zoom]
  unfold CryptoContext.deriveExtendedMasterSecret
  rw [post_bind, post_get, post_bind, isPre, post_orThrow]
  refine ⟨fun _ same => ?_, fun none => by cases none⟩
  cases same
  rw [post_bind, post_liftCrypto]
  refine ⟨fun master derived => ?_, fun _ _ => trivial⟩
  rw [post_ite]
  refine ⟨fun _ => trivial, fun _ => ?_⟩
  rw [post_set, post_zoom]
  refine (deriveKeys_master _).mono (fun _ context same => ?_) fun _ _ _ => trivial
  exact ⟨context, master, rfl, derived, same⟩

/-- The key of an identity, or one that nobody knows. -/
theorem resolvePsk_post {identity : Bytes} :
    Post (resolvePsk identity) s
      (fun _ s' => ∃ psk valid, s'.pskValid = some valid ∧ s'.engine.cryptoContext.psk = some psk ∧
        s'.engine.config = s.engine.config ∧ s'.engine.log = s.engine.log ∧
        (valid = true → ∃ resolve, s.engine.config.pskResolver = some resolve ∧ resolve identity = some psk))
      (fun _ _ => True) := by
  unfold resolvePsk
  rw [post_bind, post_get, post_bind, post_orThrow]
  refine ⟨fun resolve isResolver => ?_, fun _ => trivial⟩
  split
  · rename_i psk found
    unfold withEngine withContext
    rw [post_bind, post_modify, post_zoom, post_zoom, post_modify]
    exact ⟨psk, true, rfl, rfl, rfl, rfl, fun _ => ⟨resolve, isResolver, found⟩⟩
  · unfold withEngine withContext randomArr
    simp only [post_bind, post_zoom, post_get, post_set, post_pure, post_modify]
    exact ⟨_, false, rfl, rfl, trivial, trivial, fun known => by cases known⟩

/-- Behind a ClientKeyExchange with an identity the secret is there. -/
theorem awaitClientKeyExchange_agreed :
    Post awaitClientKeyExchange s
      (fun next s' => next ≠ .awaitClientKeyExchange → s'.UsesPsk → s'.Secured) (fun _ _ => True) := by
  have ground : Post awaitClientKeyExchange s (fun _ s' => s'.engine.cipherSuite = s.engine.cipherSuite)
      (fun _ _ => True) := by
    refine (awaitClientKeyExchange_terms s).mono (fun _ s' same => ?_) fun _ _ _ => trivial
    exact congrArg (fun terms => terms.ground.cipherSuite) same
  suffices agreed : Post awaitClientKeyExchange s (fun next s' => next ≠ .awaitClientKeyExchange →
      s.UsesPsk → s'.engine.cipherSuite = s.engine.cipherSuite → s'.Secured) (fun _ _ => True) by
    refine (ground.and agreed).mono (fun next s' facts moved psk => ?_) fun _ _ _ => trivial
    refine facts.2 moved ?_ facts.1
    unfold UsesPsk at psk ⊢
    rwa [facts.1] at psk
  refine onHandshake_post (fun _ _ stays => absurd rfl stays) (fun _ _ _ => trivial) ?_
  rintro s₁ body buffer takes read
  have sameSuite := takes.facts.1
  split
  · rename_i exchange
    obtain ⟨rest, parsed⟩ := read.parsed
    unfold handleClientKeyExchange withEngine
    rw [post_bind, post_zoom]
    refine selectedCipherSuite_post.mono ?_ fun _ _ _ => trivial
    rintro suite engine ⟨same, isSuite⟩
    subst same
    unfold agreeOnSecret
    rw [post_bind, post_ite]
    constructor
    · intro isPsk
      cases exchange with
      | ecdh range => trivial
      | psk range =>
          dsimp only
          rw [post_bind]
          refine resolvePsk_post.mono (fun _ s₂ resolved => ?_) fun _ _ _ => trivial
          obtain ⟨psk, valid, isValid, isKey, config, log, known⟩ := resolved
          unfold withEngine withContext CryptoContext.computePskPreMasterSecret
          rw [post_zoom, post_zoom, post_bind, post_get, post_bind, post_orThrow]
          refine ⟨fun key isKey' => ?_, fun _ => trivial⟩
          obtain rfl : key = psk := Option.some.inj (isKey'.symm.trans isKey)
          rw [post_set, post_bind, post_modify, post_bind, post_get, post_bind, post_orThrow]
          refine ⟨fun clientRandom _ => ?_, fun _ => trivial⟩
          rw [post_bind, post_orThrow]
          refine ⟨fun serverRandom _ => ?_, fun _ => trivial⟩
          rw [post_bind, post_orThrow]
          refine ⟨fun sessionHash _ => ?_, fun _ => trivial⟩
          rw [post_bind, post_zoom]
          refine (deriveSessionKeys_secret rfl).mono (fun _ engine derived => ?_) fun _ _ _ => trivial
          obtain ⟨context, master, rfl, isDerived, isMaster⟩ := derived
          rw [post_pure]
          intro _ _ settled
          have suited : s₂.engine.cipherSuite = some suite := settled.trans (sameSuite.symm.trans isSuite)
          refine ⟨key, valid, isValid, ⟨suite, sessionHash, master, suited, isDerived, isMaster⟩, fun valid => ?_⟩
          obtain ⟨resolve, isResolver, found⟩ := known valid
          refine ⟨resolve, slice buffer range, ?_, found, ?_⟩
          · exact (congrArg Config.pskResolver config).trans isResolver
          · exact ⟨buffer, _, range, rest, log ▸ read.heard, parsed, rfl⟩
    · intro notPsk
      refine post_self.mono (fun _ s₂ _ => ?_) fun _ _ _ => trivial
      refine post_self.mono (fun _ s₃ _ _ psk _ => ?_) fun _ _ _ => trivial
      unfold UsesPsk at psk
      rw [← sameSuite, isSuite] at psk
      exact absurd psk notPsk
  · trivial

/-- A Finished is not accepted under a key that nobody knows. -/
theorem awaitFinished_accepted :
    Post awaitFinished s (fun next s' => next ≠ .awaitFinished → s'.pskValid ≠ some false)
      (fun _ _ => True) := by
  unfold awaitFinished
  rw [post_bind, post_get]
  dsimp only
  rw [post_bind]
  refine post_self.mono (fun expected s₁ _ => ?_) fun _ _ _ => trivial
  refine onHandshake_post (fun _ _ stays => absurd rfl stays) (fun _ _ _ => trivial) ?_
  intro s' body buffer _ _
  split
  · rw [post_ite]
    refine ⟨fun _ => trivial, fun _ => ?_⟩
    unfold logCheck acceptFinished
    rw [post_bind, post_modify, post_bind, post_get]
    simp only [post_ite]
    exact ⟨fun _ => trivial, fun _ => ⟨fun _ => trivial, fun valid _ => valid⟩⟩
  · trivial

/-- Within the session the secret is there before and behind. -/
theorem State.sealing_follows {state next : State} (isSealing : state.phase = .sealing)
    (isNext : next ∈ state :: state.follows) :
    (next.agreed = true → state.agreed = true) ∧
      (next.accepted = true → state.accepted = true ∨ (state = .awaitFinished ∧ next ≠ .awaitFinished)) := by
  revert next
  cases state <;> first | decide | cases isSealing

/-- Before it, only the handler of the key exchange gets there. -/
theorem State.keying_follows {state next : State} (early : state.phase ≠ .sealing)
    (isNext : next ∈ state :: state.follows) :
    next.accepted = false ∧
      (next.agreed = true → state = .awaitClientKeyExchange ∧ next ≠ .awaitClientKeyExchange) := by
  revert next
  cases state <;> first | exact absurd rfl early | decide

theorem State.calm_of_keying {state : State} (early : state.phase ≠ .sealing) : state.calm := by
  cases state <;> first | exact absurd rfl early | trivial

theorem State.agreed_of_noisy {state : State} (noisy : ¬state.calm) :
    state.agreed = true ∧ state.accepted = true := by
  cases state <;> first | exact absurd trivial noisy | decide

/-- Before the session, a handler tells nothing, and the one of the key exchange leaves the secret. -/
theorem makeProgress_keying (inv : Inv due s) (early : s.state.phase ≠ .sealing) :
    Post s.state.makeProgress s (fun next s' => Gate { s' with state := next }) (fun _ s' => Gate s') := by
  have within := makeProgress_within s.state s
  have returns := makeProgress_returns s.state s
  have isCalm := State.calm_of_keying early
  have untold : ∀ {s'}, Within s.state.phase s.state.calm (s.state ≠ .awaitCertificate) s s' → ¬s'.Tells := by
    intro s' within tells
    exact early (inv.verified (within.tells inv.phase isCalm tells)).1
  have secret : Post s.state.makeProgress s (fun next s' => s.state = .awaitClientKeyExchange →
      next ≠ .awaitClientKeyExchange → s'.UsesPsk → s'.Secured) (fun _ _ => True) := by
    by_cases exchange : s.state = .awaitClientKeyExchange
    · rw [exchange]
      exact awaitClientKeyExchange_agreed.mono (fun _ _ agreed _ => agreed) fun _ _ _ => trivial
    · exact post_self.mono (fun _ _ _ isExchange => absurd isExchange exchange) fun _ _ _ => trivial
  refine ((within.and returns).and secret).mono ?_ ?_
  · rintro next s' ⟨⟨within, isNext⟩, secret⟩
    obtain ⟨unaccepted, exchange⟩ := State.keying_follows early isNext
    constructor
    · intro isAgreed psk
      obtain ⟨isExchange, moved⟩ := exchange isAgreed
      exact secret isExchange moved psk
    · intro isAccepted
      exact absurd isAccepted (by simp [unaccepted])
    · intro tells
      have before : s'.Tells := tells
      exact absurd before (untold within)
  · rintro _ s' ⟨⟨within, -⟩, -⟩
    have none : s.state.agreed = false := by
      revert early
      cases s.state <;> decide
    have kept := @Gate.of_early s' s.state none (untold within)
    rwa [← within.state] at kept

/-- In the session, what is known of the key is kept, and a Finished is refused without it. -/
theorem makeProgress_sealing (inv : Inv due s) (gate : Gate s) (isSealing : s.state.phase = .sealing) :
    Post s.state.makeProgress s (fun next s' => Gate { s' with state := next }) (fun _ s' => Gate s') := by
  have within := makeProgress_within s.state s
  have returns := makeProgress_returns s.state s
  have verdict := handlers_verdict isSealing s
  have told : ∀ {s'}, Within s.state.phase s.state.calm (s.state ≠ .awaitCertificate) s s' → s'.Tells →
      (s.UsesPsk → s.Secured) ∧ s.pskValid ≠ some false := by
    intro s' within tells
    by_cases isCalm : s.state.calm
    · exact gate.told (within.tells inv.phase isCalm tells)
    · obtain ⟨isAgreed, isAccepted⟩ := State.agreed_of_noisy isCalm
      exact ⟨gate.agreed isAgreed, gate.accepted isAccepted⟩
  have finished : Post s.state.makeProgress s (fun next s' => s.state = .awaitFinished →
      next ≠ .awaitFinished → s'.pskValid ≠ some false) (fun _ _ => True) := by
    by_cases isState : s.state = .awaitFinished
    · rw [isState]
      exact awaitFinished_accepted.mono (fun _ _ accepted _ => accepted) fun _ _ _ => trivial
    · exact post_self.mono (fun _ _ _ isFinished => absurd isFinished isState) fun _ _ _ => trivial
  refine (((within.and returns).and verdict).and finished).mono ?_ ?_
  · rintro next s' ⟨⟨⟨within, isNext⟩, verdict⟩, finished⟩
    have holds := within.holds inv.phase isSealing verdict
    obtain ⟨agreed, accepted⟩ := State.sealing_follows isSealing isNext
    constructor
    · intro isAgreed psk
      exact holds.secured (gate.agreed (agreed isAgreed) (holds.usesPsk psk))
    · intro isAccepted
      obtain before | ⟨isFinished, moved⟩ := accepted isAccepted
      · exact holds.verdict ▸ gate.accepted before
      · exact finished isFinished moved
    · intro tells
      obtain ⟨agreed, valid⟩ := told within tells
      exact ⟨fun psk => holds.secured (agreed (holds.usesPsk psk)), holds.verdict ▸ valid⟩
  · rintro _ s' ⟨⟨⟨within, -⟩, verdict⟩, -⟩
    have holds := within.holds inv.phase isSealing verdict
    constructor
    · rw [within.state]
      exact fun isAgreed psk => holds.secured (gate.agreed isAgreed (holds.usesPsk psk))
    · rw [within.state, holds.verdict]
      exact gate.accepted
    · intro tells
      obtain ⟨agreed, valid⟩ := told within tells
      exact ⟨fun psk => holds.secured (agreed (holds.usesPsk psk)), holds.verdict ▸ valid⟩

/-- Every handler keeps what is known of the key. -/
theorem makeProgress_gate (inv : Inv due s) (gate : Gate s) :
    Post s.state.makeProgress s (fun next s' => Gate { s' with state := next }) (fun _ s' => Gate s') := by
  by_cases isSealing : s.state.phase = .sealing
  · exact makeProgress_sealing inv gate isSealing
  · exact makeProgress_keying inv isSealing

/-- The invariant and what is known of the key. -/
def Gated (due : Promise) (s : Server) : Prop := Inv due s ∧ Gate s

theorem progressLoop_gated {fuel : Nat} (gated : Gated due s) :
    Post (progressLoop fuel) s (fun _ s' => Gated due s') (fun _ s' => Gated due s') := by
  induction fuel generalizing s with
  | zero => exact gated
  | succ fuel inductionHypothesis =>
      unfold progressLoop
      rw [post_bind, post_get]
      dsimp only
      rw [post_bind]
      refine (((makeProgress_inv gated.1).and (makeProgress_gate gated.1 gated.2)).and
        (makeProgress_within s.state s)).mono ?_ fun _ _ kept => kept.1
      rintro next s' ⟨⟨inv, gate⟩, within⟩
      rw [post_ite]
      constructor
      · intro same
        rw [same, ← within.state] at inv gate
        exact ⟨inv, gate⟩
      · intro _
        rw [post_bind, post_modify]
        exact inductionHypothesis ⟨inv, gate⟩

end Handlers

section Calls

variable {s : Server} {due due' : Promise}

/-- A calm program on the engine. -/
theorem withEngine_gated {α : Type} {program : EngineM α} (gated : Gated due s)
    (along : Along (Moves (s.state.phase.rules True)) program) :
    Post (withEngine program) s (fun _ s' => Gated due s') (fun _ s' => Gated due s') := by
  have within : Along (Within s.state.phase True True) (withEngine program) := along_withEngine along
  refine (((withEngine_inv gated.1 along).and (within s)).and (withEngine_verdict s)).mono ?_ ?_
  · rintro _ s' ⟨⟨inv, within⟩, verdict⟩
    exact ⟨inv, gated.2.of_calm gated.1 within verdict⟩
  · rintro _ s' ⟨⟨inv, within⟩, verdict⟩
    exact ⟨inv, gated.2.of_calm gated.1 within verdict⟩

/-- What is known of the key when other fields change. -/
theorem Gate.of_fields {s' : Server} (gate : Gate s) (engine : s'.engine = s.engine)
    (state : s'.state = s.state) (verdict : s'.pskValid = s.pskValid)
    (silent : LocalEvent.connected ∈ s'.localEvents → LocalEvent.connected ∈ s.localEvents) : Gate s' := by
  have holds : Holds s s' := ⟨verdict, congrArg Engine.session engine, fun _ member => engine ▸ member⟩
  constructor
  · rw [state]
    exact fun isAgreed psk => holds.secured (gate.agreed isAgreed (holds.usesPsk psk))
  · rw [state, verdict]
    exact gate.accepted
  · intro tells
    have before : s.Tells := tells.imp (fun on => engine ▸ on) silent
    obtain ⟨agreed, valid⟩ := gate.told before
    exact ⟨fun psk => holds.secured (agreed (holds.usesPsk psk)), verdict ▸ valid⟩

theorem handlePacket_gated {packet : Bytes} (gated : Gated due s) :
    Post (handlePacket packet) s (fun _ s' => Gated due s') (fun _ s' => Gated due s') := by
  unfold handlePacket
  rw [post_publicResult, post_bind]
  have received := withEngine_gated gated (@receivePacket_moves _ packet fun _ _ => trivial)
  refine received.mono (fun _ s' kept => ?_) fun fault _ kept => by cases fault <;> exact kept
  exact (progressLoop_gated kept).mono (fun _ _ done => done) fun fault _ done => by
    cases fault <;> exact done

theorem initRandom_gate {now : Instant} (gate : Gate s) :
    Post (initRandom now) s (fun _ s' => Gate s') (fun _ _ => False) := by
  unfold initRandom
  rw [post_bind, post_get]
  split
  · exact gate
  · unfold withEngine newRandom randomArr
    simp only [post_bind, post_zoom, post_get, post_set, post_pure, post_modify]
    exact ⟨gate.agreed, gate.accepted, gate.told⟩

theorem timers_gated {now : Instant} (gated : Gated due s) (arms : Promise.Arms (some now) due due') :
    Post (withEngine (Engine.handleTimeout now)) s (fun _ s' => Gated due' s') (fun _ s' => Gated due' s') := by
  have inv : Inv due' { s with engine := s.engine.armTimers now } := gated.1.of_armed arms
  have gate : Gate { s with engine := s.engine.armTimers now } :=
    ⟨gated.2.agreed, gated.2.accepted, gated.2.told⟩
  have arrived : ∀ engine, Quiet (fun _ => True) (s.state.phase ≠ .sealing)
      (s.engine.armTimers now) engine → Gate { s with engine } := by
    intro engine quiet
    have moved : Moves (s.state.phase.rules True) (s.engine.armTimers now) engine := quiet.moves
    have within : Within s.state.phase True True { s with engine := s.engine.armTimers now }
        { s with engine } :=
      ⟨moved, rfl, fun _ member => member, List.prefix_refl _, fun _ => rfl, fun _ => id⟩
    exact gate.of_calm inv within rfl
  have timed := timers_inv gated.1 arms
  have gates : Post (withEngine (Engine.handleTimeout now)) s (fun _ s' => Gate s') (fun _ s' => Gate s') := by
    unfold withEngine
    rw [post_zoom]
    exact handleTimeout_armed.mono (fun _ engine quiet => arrived engine quiet) fun _ engine quiet =>
      arrived engine quiet
  exact timed.and gates

theorem handleTimeout_gated {now : Instant} (gated : Gated due s)
    (arms : Promise.Arms (some now) due due') :
    Post (Server.handleTimeout now) s (fun _ s' => Gated due' s') (fun _ s' => Gated due' s') := by
  unfold Server.handleTimeout
  rw [post_bind, post_modify, post_bind]
  have noted : Inv due { s with lastNow := now } := gated.1.of_fields rfl rfl rfl rfl id
  have gate : Gate { s with lastNow := now } := gated.2.of_fields rfl rfl rfl id
  refine ((initRandom_inv noted).and (initRandom_gate gate)).mono (fun _ s₁ drawn => ?_)
    fun _ _ never => never.1.elim
  rw [post_bind]
  refine (timers_gated drawn arms).mono (fun _ s₂ timed => ?_) fun _ _ timed => timed
  rw [post_publicResult]
  exact (progressLoop_gated timed).mono (fun _ _ done => done) fun fault _ done => by
    cases fault <;> exact done

theorem pollOutput_gated {bufLen : Nat} (gated : Gated due s) :
    Post (Server.pollOutput bufLen) s (fun _ s' => Gated due s') (fun _ s' => Gated due s') := by
  unfold Server.pollOutput
  rw [post_bind, post_get]
  split
  · rename_i event rest isEvents
    rw [post_bind, post_set]
    have silent : LocalEvent.connected ∈ rest → LocalEvent.connected ∈ s.localEvents :=
      fun member => isEvents ▸ List.mem_cons_of_mem event member
    have popped : Gated due { s with localEvents := rest } :=
      ⟨gated.1.of_fields rfl rfl rfl rfl silent, gated.2.of_fields rfl rfl rfl silent⟩
    exact (LocalEvent.intoOutput_readOnly _).mono (fun _ _ same => same ▸ popped)
      fun _ _ same => same ▸ popped
  · exact withEngine_gated gated (moves_of_quiet pollOutput_quiet)

theorem sendApplicationData_gated {data : Bytes} (gated : Gated due s) :
    Post (sendApplicationData data) s (fun _ s' => Gated due s') (fun _ s' => Gated due s') := by
  unfold sendApplicationData
  rw [post_bind, post_get, post_ite]
  refine ⟨fun _ => gated, fun _ => ?_⟩
  rw [post_ite]
  constructor
  · intro _
    exact ⟨gated.1.of_fields rfl rfl rfl rfl id, gated.2.of_fields rfl rfl rfl id⟩
  · intro isOpen
    have isState : s.state = .awaitApplicationData := not_not.mp isOpen
    refine withEngine_gated gated (createRecord_moves fun plain => ?_)
    rw [isState] at plain
    exact absurd rfl plain

/-- A server that is closed knows what it knew. -/
theorem Gate.closed (gate : Gate s) : Gate { s with state := .closed } where
  agreed := fun isAgreed => by cases isAgreed
  accepted := fun isAccepted => by cases isAccepted
  told := gate.told

/-- A server that gives its handshake up knows what it knew. -/
theorem Gate.aborted (gate : Gate s) : Gate { s with engine := s.engine.abort } where
  agreed := gate.agreed
  accepted := gate.accepted
  told := gate.told

theorem close_gate (gated : Gated due s) : Post close s (fun _ s' => Gate s') (fun _ s' => Gate s') := by
  unfold close
  rw [post_bind, post_get, post_ite]
  refine ⟨fun _ => gated.2, fun _ => ?_⟩
  rw [post_ite]
  constructor
  · intro _
    exact gated.2.aborted.closed
  · intro isOpen
    have isState : s.state = .awaitApplicationData := not_not.mp isOpen
    rw [post_bind]
    refine (withEngine_gated gated (createRecord_moves fun plain => ?_)).mono
      (fun _ s' kept => kept.2.closed) fun _ _ kept => kept.2
    rw [isState] at plain
    exact absurd rfl plain

/-- Every call keeps what is known of the key, whether it succeeds or not. -/
theorem exec_gated (gated : Gated Promise.isSet s) {call : Call} : Gated Promise.isSet (s.exec call) := by
  refine ⟨exec_inv gated.1 Promise.isSet_arms, ?_⟩
  apply post_state.mp
  cases call with
  | handlePacket packet =>
      exact (handlePacket_gated gated).mono (fun _ _ kept => kept.2) fun _ _ kept => kept.2
  | handleTimeout now =>
      exact (handleTimeout_gated gated Promise.isSet_arms).mono (fun _ _ kept => kept.2)
        fun _ _ kept => kept.2
  | pollOutput bufLen =>
      exact post_bind.mpr ((pollOutput_gated gated).mono (fun _ _ kept => kept.2) fun _ _ kept => kept.2)
  | sendApplicationData data =>
      exact (sendApplicationData_gated gated).mono (fun _ _ kept => kept.2) fun _ _ kept => kept.2
  | close => exact close_gate gated

/-- A fresh server knows of no key and tells nothing. -/
theorem Start.gate (start : Start s) : Gate s := by
  cases start with
  | fresh config auth rng rng' entropy now =>
      have untold : ¬(newWithEngine { Engine.new config auth rng entropy with rng := rng' } now).Tells := by
        rintro (released | member)
        · cases released
        · cases member
      exact @Gate.of_early _ .awaitClientHello rfl untold

/-- A call leads from a reached server to a reached one. -/
theorem Reached.exec (reached : Reached s) (call : Call) : Reached (s.exec call) := by
  obtain ⟨start, calls, isStart, rfl⟩ := reached
  exact ⟨start, calls ++ [call], isStart, run_concat.symm⟩

/-- What a server knows of the key in every run. -/
theorem Reached.gate (reached : Reached s) : Gate s := by
  obtain ⟨start, calls, isStart, rfl⟩ := reached
  have preserved : ∀ (s : Server) (call : Call), Gated Promise.isSet s → True →
      Gated Promise.isSet (s.exec call) := fun _ _ gated _ => exec_gated gated
  have initial : Gated Promise.isSet start := ⟨isStart.inv Timeout.noConfusion, isStart.gate⟩
  exact (run_invariant preserved initial (Meets.of_all fun _ _ => trivial)).2

end Calls

end Server

end Dimpl.Dtls12
