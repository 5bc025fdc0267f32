import Dimpl.Dtls13.Conduct
import Dimpl.Dtls13.Engine.Sealing
import Dimpl.Dtls13.Selection

/-!
# Numbers of protected records in runs of an endpoint

A HelloRetryRequest lets the handshake count from zero again. A server meets one only before it has
keys, and so does a client that has not failed halfway through the keys of the handshake.
-/

namespace Dimpl.Dtls13

open Nom Program

/-- No number is used twice if none was. -/
def Seals (e e' : Engine) : Prop := e.SealInv → e'.SealInv

/-- No number was used twice, and there are no keys of the handshake. -/
def Engine.Guarded (e : Engine) : Prop := e.SealInv ∧ e.hsSendKeys = none

/-- Both stay true. -/
def Guards (e e' : Engine) : Prop := e.Guarded → e'.Guarded

/-- No number is used twice, and the keys of the handshake stay. -/
def Calm (e e' : Engine) : Prop := Seals e e' ∧ e'.hsSendKeys = e.hsSendKeys

section Relations

variable {S : Bytes → Prop} {K : Prop} {e e' : Engine}

instance : Std.Refl Seals := ⟨fun _ => id⟩

instance : IsTrans Engine Seals := ⟨fun _ _ _ first second inv => second (first inv)⟩

instance : Std.Refl Guards := ⟨fun _ => id⟩

instance : IsTrans Engine Guards := ⟨fun _ _ _ first second inv => second (first inv)⟩

instance : Std.Refl Calm := ⟨fun _ => ⟨id, rfl⟩⟩

instance : IsTrans Engine Calm :=
  ⟨fun _ _ _ first second =>
    ⟨fun inv => second.1 (first.1 inv), second.2.trans first.2⟩⟩

theorem Calm.guards (calm : Calm e e') : Guards e e' :=
  fun guarded => ⟨calm.1 guarded.1, calm.2.trans guarded.2⟩

theorem Moves.seals (moves : Moves Rules.unkeyed e e') : Seals e e' :=
  (moves fun known => absurd known not_false).1.sealInv fun _ allowed => allowed

/-- A step leaves the keys of the handshake alone. -/
theorem Step.hsSendKeys (step : Step S K e e') : e'.hsSendKeys = e.hsSendKeys := by
  cases step with
  | other same => exact congrArg Core.hsSendKeys same
  | @opened sequence slice plaintext fresh decrypted =>
      unfold Engine.replayUpdate Engine.logEvent
      split <;> rfl
  | queue sources => rfl
  | delivered released queued data => rfl
  | assembled carried => rfl
  | @sealed epoch keys available room known =>
      cases e.sendSlot epoch <;> rfl
  | forgotten => rfl

theorem Quiet.calm (quiet : Quiet (fun _ => True) False e e') : Calm e e' := by
  obtain ⟨steps, -⟩ := quiet fun known => absurd known not_false
  refine ⟨(quiet.moves : Moves Rules.unkeyed e e').seals, ?_⟩
  clear quiet
  induction steps with
  | refl => rfl
  | tail _ step inductionHypothesis => exact step.hsSendKeys.trans inductionHypothesis

theorem calm_of_quiet {α : Type} {program : EngineM α}
    (quiet : Along (Quiet (fun _ => True) False) program) : Along Calm program :=
  quiet.mono fun _ _ => Quiet.calm

/-- A change outside the core. -/
theorem calm_of_core (same : e'.core = e.core) : Calm e e' :=
  (Quiet.of_core same fun known => absurd known not_false).calm

theorem seals_of_core (same : e'.core = e.core) : Seals e e' := (calm_of_core same).1

theorem guards_of_core (same : e'.core = e.core) : Guards e e' := (calm_of_core same).guards

theorem createCiphertextRecord_calm {contentType : ContentType} {epoch : Nat} {fragment : Bytes} :
    Along Calm (createCiphertextRecord contentType epoch false fragment) := by
  intro e
  have sends := @createCiphertextRecord_sends (fun _ => True) False e contentType epoch false fragment
    fun known => absurd known not_false
  exact sends.mono (fun _ _ sent => sent.1.calm) fun _ _ sent => sent.1.calm

theorem receivePacket_calm {datagram : Bytes} : Along Calm (receivePacket datagram) := by
  have received : ∀ e : Engine, Calm e (e.logEvent (.received datagram)) := fun e =>
    ⟨fun inv => inv.of_same rfl (sealings_logEvent rfl) (Nat.le_refl _), rfl⟩
  refine along_bind (along_modify received) fun _ => ?_
  exact calm_of_quiet (parsePacket_quiet fun _ _ => trivial)

theorem calm_idles : Idles Calm where
  sendData := createCiphertextRecord_calm
  pollOutput := calm_of_quiet pollOutput_quiet
  sendAlert := createCiphertextRecord_calm
  cancelFlights _ := calm_of_core rfl
  abort _ := calm_of_core rfl

/-- Before there are keys nothing that handlers of hellos do uses a number twice. -/
theorem guards_greets : Greets Guards where
  nextHandshake := (calm_of_quiet nextHandshakeWithOptions_quiet).mono fun _ _ => Calm.guards
  advance _ := guards_of_core rfl
  flightBegin _ := guards_of_core rfl
  createHandshake reads :=
    (calm_of_quiet (createHandshake_quiet reads.along)).mono fun _ _ => Calm.guards
  truncate _ _ := guards_of_core rfl
  setCipherSuite _ _ := guards_of_core rfl
  replaceTranscript :=
    replaceTranscriptWithMessageHash_along fun _ _ => guards_of_core rfl
  resetForHelloRetry _ guarded :=
    ⟨(resetForHelloRetry_moves guarded.2 : Moves Rules.unkeyed _ _).seals guarded.1, guarded.2⟩

theorem seals_converses : Converses Seals where
  nextHandshake := (calm_of_quiet nextHandshakeWithOptions_quiet).mono fun _ _ => And.left
  advance _ := seals_of_core rfl
  sendData := createCiphertextRecord_calm.mono fun _ _ => And.left
  sendAck := (calm_of_quiet sendAck_quiet).mono fun _ _ => And.left
  createKeyUpdate := createKeyUpdate_moves.mono fun _ _ => Moves.seals
  updateRecvKeys := updateRecvKeys_moves.mono fun _ _ => Moves.seals

/-- Behind the hellos nothing that handlers do uses a number twice. -/
theorem seals_exchanges : Exchanges Seals where
  toConverses := seals_converses
  flightBegin _ := seals_of_core rfl
  flightStop _ := seals_of_core rfl
  createHandshake reads := (calm_of_quiet (createHandshake_quiet reads.along)).mono fun _ _ => And.left
  setCipherSuite _ _ := seals_of_core rfl
  enablePeerEncryption e :=
    (@enablePeerEncryption_moves Rules.unkeyed e trivial fun _ _ _ _ => trivial).mono
      (fun _ _ => Moves.seals) fun _ _ => Moves.seals
  installHandshakeKeys := installHandshakeKeys_moves.mono fun _ _ => Moves.seals
  deriveApplicationSecrets := deriveApplicationSecrets_along fun _ _ => seals_of_core rfl
  installApplicationKeys e :=
    (@installApplicationKeys_moves Rules.unkeyed e _ _ fun known => absurd known not_false).mono
      (fun _ _ => Moves.seals) fun _ _ => Moves.seals
  release _ := (releaseApplicationData_moves trivial : Moves Rules.unkeyed _ _).seals

theorem handleTimeout_calm {now : Instant} :
    Along (InvImage Calm Endpoint.engine) (Endpoint.handleTimeout now) :=
  Endpoint.handleTimeout_conduct (calm_of_quiet handleTimeout_quiet) fun _ _ => calm_of_core rfl

theorem seals_application :
    Along (InvImage (Conducted Seals) Endpoint.stamped) Endpoint.awaitApplicationData :=
  Endpoint.awaitApplicationData_conduct seals_converses fun _ => seals_of_core rfl

end Relations

namespace Client

variable {c : Client} {state next : State}

/-- No number was used twice, and a client that waits for a ServerHello has no keys. -/
structure Numbered (c : Client) : Prop where
  seals : c.engine.SealInv
  unkeyed : c.state.greeting = true → c.engine.hsSendKeys = none

section Handlers

theorem withEndpoint_still {α : Type} {program : EndpointM α} :
    Along (Keeps Client.state) (withEndpoint program) :=
  along_zoom (R := fun _ _ => True) (fun _ => post_self.mono (fun _ _ _ => trivial) fun _ _ _ => trivial)
    fun _ _ _ => rfl

theorem onHandshake_still {wanted : MessageType} {stay : State} {handle : Body → Bytes → ClientM State}
    (stays : stay.greeting = false)
    (handles : ∀ body buffer, Leads (Keeps Client.state) (handle body buffer) fun next _ =>
      next.greeting = false) :
    Leads (Keeps Client.state) (onHandshake wanted stay handle) fun next _ => next.greeting = false := by
  refine leads_bind withEndpoint_still fun found => ?_
  cases found with
  | none => exact leads_pure fun _ => stays
  | some message => exact handles _ _

theorem advance_still (late : next.greeting = false) :
    Leads (Keeps Client.state) (advance next) fun next _ => next.greeting = false :=
  leads_bind withEndpoint_still fun _ => leads_pure fun _ => late

/-- Behind the ServerHello no handler leads back to the hellos. -/
theorem handlers_still (late : state.greeting = false) :
    Leads (Keeps Client.state) state.makeProgress fun next _ => next.greeting = false := by
  cases state with
  | sendClientHello => cases late
  | awaitServerHello => cases late
  | awaitEncryptedExtensions =>
      unfold State.makeProgress Client.awaitEncryptedExtensions
      refine onHandshake_still rfl fun body buffer => ?_
      split
      · refine leads_bind ?_ fun _ => advance_still rfl
        exact (@readEncryptedExtensions_within True True _ _).mono fun _ _ within => within.state
      · exact leads_throw
  | awaitCertificateRequest =>
      refine leads_bind along_get fun c => leads_ite (fun _ => leads_pure fun _ => rfl) fun _ => ?_
      refine onHandshake_still rfl fun body buffer => ?_
      split
      · split
        · exact leads_throw
        · exact leads_bind (along_modify fun _ => rfl) fun _ => advance_still rfl
      · exact leads_throw
  | awaitCertificate =>
      unfold State.makeProgress Client.awaitCertificate
      refine onHandshake_still rfl fun body buffer => ?_
      split
      · refine leads_ite (fun _ => leads_throw) fun _ => leads_ite (fun _ => leads_throw) fun _ => ?_
        exact leads_bind withEndpoint_still fun _ => advance_still rfl
      · exact leads_throw
  | awaitCertificateVerify =>
      refine leads_bind along_get fun c => leads_bind withEndpoint_still fun _ => ?_
      refine onHandshake_still rfl fun body buffer => ?_
      split
      · exact leads_bind withEndpoint_still fun _ => leads_pure fun _ => rfl
      · exact leads_throw
  | awaitFinished =>
      refine leads_bind along_get fun c => leads_bind along_get fun c => ?_
      refine leads_bind along_orThrow fun _ => leads_bind withEndpoint_still fun _ => ?_
      refine onHandshake_still rfl fun body buffer => ?_
      split
      · refine leads_bind withEndpoint_still fun _ => leads_bind withEndpoint_still fun _ => ?_
        refine leads_bind along_get fun c => leads_pure fun _ => ?_
        split <;> rfl
      · exact leads_throw
  | sendCertificate =>
      refine leads_bind withEndpoint_still fun _ => leads_bind along_get fun c => ?_
      refine leads_bind along_get fun c => leads_ite (fun _ => ?_) fun _ => ?_
      · exact leads_bind withEndpoint_still fun _ => leads_pure fun _ => rfl
      · exact leads_bind withEndpoint_still fun _ => leads_pure fun _ => rfl
  | sendCertificateVerify => exact leads_bind withEndpoint_still fun _ => leads_pure fun _ => rfl
  | sendFinished =>
      refine leads_bind along_get fun c => leads_bind withEndpoint_still fun _ => ?_
      refine leads_bind along_get fun c => leads_bind along_orThrow fun _ => ?_
      refine leads_bind withEndpoint_still fun _ => leads_bind withEndpoint_still fun _ => ?_
      exact leads_pure fun _ => rfl
  | awaitApplicationData => exact leads_bind withEndpoint_still fun _ => leads_pure fun _ => rfl
  | halfClosedLocal =>
      refine leads_bind withEndpoint_still fun isClosed => leads_pure fun _ => ?_
      split <;> rfl
  | closed => exact leads_pure fun _ => rfl

/-- A ServerHello leads on. -/
theorem handleServerHello_still {hello : ServerHello} {buffer : Bytes} :
    Leads (Keeps Client.state) (handleServerHello hello buffer) fun next _ => next.greeting = false := by
  refine leads_bind along_get fun c => ?_
  split
  · exact leads_throw
  · refine leads_bind withEndpoint_still fun _ => leads_bind (along_modify fun _ => rfl) fun _ => ?_
    split
    · exact leads_throw
    · split
      · exact leads_throw
      · exact leads_throw
      · refine leads_bind ?_ fun _ => ?_
        · exact (@completeExchange_within True True _ _).mono fun _ _ within => within.state
        · refine leads_bind withEndpoint_still fun _ => leads_bind withEndpoint_still fun _ => ?_
          exact advance_still rfl

/-- The handlers of the hellos leave the state alone. -/
theorem greeters_still (isGreeting : state.greeting = true) :
    Along (Keeps Client.state) state.makeProgress := by
  cases state with
  | sendClientHello =>
      exact fun c => (sendClientHello_leads c).mono (fun _ _ led => led.1.state) fun _ _ within =>
        within.state
  | awaitServerHello =>
      exact fun c => (awaitServerHello_leads c).mono (fun _ _ led => led.1.state) fun _ _ within =>
        within.state
  | _ => cases isGreeting

theorem awaitServerHello_numbered (guarded : c.engine.Guarded) :
    Post awaitServerHello c
      (fun next c' => c'.engine.SealInv ∧ (next.greeting = true → c'.engine.hsSendKeys = none))
      (fun _ c' => c'.engine.SealInv) := by
  unfold awaitServerHello onHandshake
  rw [post_bind, post_get, post_bind]
  have reads := withEngine_conduct (R := Guards) (@guards_greets.nextHandshake .serverHello true false) c
  refine reads.mono (fun found c₁ moved => ?_) fun _ _ moved => (moved.2 guarded).1
  have guarded₁ : c₁.engine.Guarded := moved.2 guarded
  cases found with
  | none => exact ⟨guarded₁.1, fun _ => guarded₁.2⟩
  | some message =>
      dsimp only
      split
      · rw [post_ite]
        refine ⟨fun _ => ?_, fun _ => ?_⟩
        · refine (handleHelloRetryRequest_conduct guards_greets c₁).mono
            (fun _ _ moved => ?_) fun _ _ moved => (moved.2 guarded₁).1
          have guarded₂ := moved.2 guarded₁
          exact ⟨guarded₂.1, fun _ => guarded₂.2⟩
        · refine ((handleServerHello_conduct seals_exchanges c₁).and (handleServerHello_still c₁)).mono
            (fun next c₂ moved => ?_) fun _ _ moved => moved.1.2 guarded₁.1
          refine ⟨moved.1.2 guarded₁.1, fun isGreeting => ?_⟩
          rw [moved.2.2] at isGreeting
          cases isGreeting
      · exact guarded₁.1

theorem greeters_numbered (isGreeting : c.state.greeting = true) (guarded : c.engine.Guarded) :
    Post c.state.makeProgress c
      (fun next c' => c'.engine.SealInv ∧ (next.greeting = true → c'.engine.hsSendKeys = none))
      (fun _ c' => c'.engine.SealInv) := by
  cases isState : c.state with
  | sendClientHello =>
      refine (sendClientHello_conduct guards_greets c).mono (fun _ _ moved => ?_)
        fun _ _ moved => (moved.2 guarded).1
      have guarded' := moved.2 guarded
      exact ⟨guarded'.1, fun _ => guarded'.2⟩
  | awaitServerHello => exact awaitServerHello_numbered guarded
  | _ =>
      rw [isState] at isGreeting
      cases isGreeting

/-- Every handler behind the hellos uses no number twice. -/
theorem handlers_seals (late : state.greeting = false) :
    Along (InvImage (Conducted Seals) Client.stamped) state.makeProgress := by
  by_cases connected : state = .awaitApplicationData
  · rw [connected]
    exact along_bind (withEndpoint_conduct seals_application) fun _ => along_pure
  · exact handlers_behind seals_exchanges late connected

/-- A handler uses no number twice, and leads back to the hellos only without keys. -/
theorem handlers_numbered (numbered : c.Numbered) :
    Post c.state.makeProgress c
      (fun next c' => c'.state = c.state ∧ c'.engine.SealInv ∧
        (next.greeting = true → c'.engine.hsSendKeys = none))
      (fun _ c' => c'.state = c.state ∧ c'.engine.SealInv) := by
  cases isGreeting : c.state.greeting with
  | true =>
      have guarded : c.engine.Guarded := ⟨numbered.seals, numbered.unkeyed isGreeting⟩
      have moved := (greeters_still isGreeting c).and (greeters_numbered isGreeting guarded)
      exact moved.mono (fun _ _ both => both) fun _ _ both => both
  | false =>
      have moved := (handlers_still isGreeting c).and (handlers_seals isGreeting c)
      refine moved.mono (fun next _ both => ?_) fun _ _ both => ⟨both.1, both.2.2 numbered.seals⟩
      refine ⟨both.1.1, both.2.2 numbered.seals, fun back => ?_⟩
      rw [both.1.2] at back
      cases back

theorem progressLoop_numbered {fuel : Nat} (numbered : c.Numbered) :
    Post (progressLoop fuel) c (fun _ c' => c'.Numbered) (fun _ c' => c'.engine.SealInv) := by
  induction fuel generalizing c with
  | zero => exact numbered.seals
  | succ fuel inductionHypothesis =>
      unfold progressLoop
      rw [post_bind, post_get, post_bind]
      refine (handlers_numbered numbered).mono (fun next c₁ moved => ?_) fun _ _ failed => failed.2
      obtain ⟨still, seals, unkeyed⟩ := moved
      rw [post_ite]
      refine ⟨fun isSame => ?_, fun _ => ?_⟩
      · refine ⟨seals, fun isGreeting => unkeyed ?_⟩
        rwa [isSame, ← still]
      · rw [post_bind, post_modify]
        exact inductionHypothesis ⟨seals, unkeyed⟩

theorem makeProgress_seals (numbered : c.Numbered) :
    Post makeProgress c (fun _ c' => c'.engine.SealInv) (fun _ c' => c'.engine.SealInv) :=
  (progressLoop_numbered numbered).mono (fun _ _ numbered => numbered.seals) fun _ _ seals => seals

/-- What leaves the state and the keys of the handshake alone. -/
theorem Numbered.of_calm {c' : Client} (numbered : c.Numbered) (state : c'.state = c.state)
    (calm : Calm c.engine c'.engine) : c'.Numbered :=
  ⟨calm.1 numbered.seals, fun isGreeting => calm.2.trans (numbered.unkeyed (state ▸ isGreeting))⟩

theorem exec_seals {call : Call} (numbered : c.Numbered) : (c.exec call).engine.SealInv := by
  cases isIdle : call.isIdle with
  | true => exact (((idle_conduct calm_idles isIdle).finalState c).2).1 numbered.seals
  | false =>
      suffices holds : Post call.program c (fun _ c' => c'.engine.SealInv)
          fun _ c' => c'.engine.SealInv from post_state.mp holds
      cases call with
      | handlePacket packet =>
          unfold Call.program handlePacket
          have progressed : Post (do withEngine (receivePacket packet); makeProgress) c
              (fun _ c' => c'.engine.SealInv) fun _ c' => c'.engine.SealInv := by
            rw [post_bind, withEngine_post]
            refine (receivePacket_calm c.engine).mono (fun _ e moved => ?_) fun _ _ moved =>
              moved.1 numbered.seals
            have received : Numbered { c with endpoint := { c.endpoint with engine := e } } :=
              numbered.of_calm rfl moved
            exact makeProgress_seals received
          rw [post_state, finalState_publicResult]
          exact post_state.mp progressed
      | handleTimeout now =>
          unfold Call.program handleTimeout
          have timed : Along (InvImage Calm Client.engine)
              (withEndpoint (Endpoint.handleTimeout now)) :=
            along_zoom handleTimeout_calm fun _ _ moved => moved
          rw [post_bind]
          refine ((timed c).and (withEndpoint_still c)).mono (fun _ c₁ moved => ?_) fun _ _ moved =>
            moved.1.1 numbered.seals
          rw [post_state, finalState_publicResult]
          exact post_state.mp (makeProgress_seals (numbered.of_calm moved.2 moved.1))
      | _ => cases isIdle

/-- A client that waits for a ServerHello has no keys of the handshake yet. -/
def Unkeyed (c : Client) : Prop := c.state.greeting = true → c.engine.hsSendKeys = none

instance (c : Client) : Decidable c.Unkeyed :=
  decidable_of_iff (c.state.greeting = true → c.engine.hsSendKeys.isNone = true)
    (by rw [Option.isNone_iff_eq_none]; exact Iff.rfl)

/-- In a run whose calls find no client that was left halfway through the keys of the handshake, no
number is used twice. -/
theorem run_seals {start : Client} {calls : List Call} (isStart : Start start)
    (whole : Meets exec (fun c _ => c.Unkeyed) start calls) : (run exec start calls).engine.SealInv := by
  have initial : start.engine.SealInv := by
    cases isStart with
    | fresh config certificate rng rng' entropy now =>
        exact (@SealInv_new config certificate rng true).of_core rfl
    | hybrid random transcriptBytes exchange config certificate rng rng' entropy now =>
        exact (@SealInv_new config certificate rng true).of_core rfl
  have preserved : ∀ c call, c.engine.SealInv → Unkeyed c → (exec c call).engine.SealInv :=
    fun _ _ seals unkeyed => exec_seals ⟨seals, unkeyed⟩
  exact run_invariant preserved initial whole

end Handlers

end Client

namespace Server

variable {s : Server} {state next : State}

/-- No number was used twice, and a server that waits for a ClientHello has no keys. -/
structure Numbered (s : Server) : Prop where
  seals : s.engine.SealInv
  unkeyed : s.state = .awaitClientHello → s.engine.hsSendKeys = none

/-- Every handler behind the ClientHello uses no number twice. -/
theorem handlers_seals (late : state ≠ .awaitClientHello) :
    Along (InvImage (Conducted Seals) Server.stamped) state.makeProgress := by
  by_cases connected : state = .awaitApplicationData
  · rw [connected]
    exact along_bind (withEndpoint_conduct seals_application) fun _ => along_pure
  · exact handlers_behind seals_exchanges late connected

/-- A handler uses no number twice, and leads to a ClientHello only without keys. -/
theorem handlers_numbered (numbered : s.Numbered) :
    Post s.state.makeProgress s
      (fun next s' => s'.state = s.state ∧ s'.engine.SealInv ∧
        (next = .awaitClientHello → s'.engine.hsSendKeys = none))
      (fun _ s' => s'.Numbered) := by
  by_cases early : s.state = .awaitClientHello
  · have guarded : s.engine.Guarded := ⟨numbered.seals, numbered.unkeyed early⟩
    rw [early]
    refine ((awaitClientHello_leads s).and (awaitClientHello_conduct guards_greets s)).mono
      (fun next s' both => ?_) fun _ s' both => ?_
    · have guarded' := both.2.2 guarded
      exact ⟨both.1.1.state.trans early, guarded'.1, fun _ => guarded'.2⟩
    · have guarded' := both.2.2 guarded
      exact ⟨guarded'.1, fun _ => guarded'.2⟩
  · refine ((handlers_later early s).and (handlers_seals early s)).mono (fun next s' both => ?_)
      fun _ s' both => ?_
    · exact ⟨both.1.1, both.2.2 numbered.seals, fun back => absurd back both.1.2.1⟩
    · refine ⟨both.2.2 numbered.seals, fun back => absurd ?_ early⟩
      exact both.1.symm.trans back

theorem progressLoop_numbered {fuel : Nat} (numbered : s.Numbered) :
    Post (progressLoop fuel) s (fun _ s' => s'.Numbered) (fun _ s' => s'.Numbered) := by
  induction fuel generalizing s with
  | zero => exact numbered
  | succ fuel inductionHypothesis =>
      unfold progressLoop
      rw [post_bind, post_get, post_bind]
      refine (handlers_numbered numbered).mono (fun next s₁ moved => ?_) fun _ _ failed => failed
      obtain ⟨still, seals, unkeyed⟩ := moved
      rw [post_ite]
      refine ⟨fun isSame => ?_, fun _ => ?_⟩
      · refine ⟨seals, fun early => unkeyed ?_⟩
        rwa [isSame, ← still]
      · rw [post_bind, post_modify]
        exact inductionHypothesis ⟨seals, unkeyed⟩

theorem commitVersion_numbered (numbered : s.Numbered) : s.commitVersion.Numbered := by
  unfold commitVersion
  split
  · exact ⟨numbered.seals, numbered.unkeyed⟩
  · exact numbered

/-- What leaves the state and the keys of the handshake alone. -/
theorem Numbered.of_calm {s' : Server} (numbered : s.Numbered) (state : s'.state = s.state)
    (calm : Calm s.engine s'.engine) : s'.Numbered :=
  ⟨calm.1 numbered.seals, fun early => calm.2.trans (numbered.unkeyed (state ▸ early))⟩

theorem retainHello_numbered {packet : Bytes} (numbered : s.Numbered) :
    Post (retainHello packet) s (fun _ s' => s'.Numbered) (fun _ s' => s'.Numbered) := by
  unfold retainHello
  rw [post_bind, post_get, post_ite, post_ite]
  refine ⟨fun _ => ⟨fun _ => numbered, fun _ => ?_⟩, fun _ => numbered⟩
  exact ⟨numbered.seals, numbered.unkeyed⟩

theorem handlePacket_numbered {packet : Bytes} (numbered : s.Numbered) :
    (finalState (handlePacket packet) s).Numbered := by
  apply post_state.mp
  unfold handlePacket
  rw [post_bind]
  refine (retainHello_numbered numbered).mono (fun _ s₁ numbered₁ => ?_) fun _ _ numbered₁ => numbered₁
  rw [post_state, finalState_publicResult]
  refine post_state.mp (post_bind.mpr (withEngine_post.mpr ?_))
  refine (receivePacket_calm s₁.engine).mono (fun _ e moved => ?_) fun _ _ moved =>
    numbered₁.of_calm rfl moved
  have received : Numbered { s₁ with endpoint := { s₁.endpoint with engine := e } } :=
    numbered₁.of_calm rfl moved
  rw [post_bind]
  refine (progressLoop_numbered received).mono (fun _ s₂ numbered₂ => ?_) fun _ _ numbered₂ => numbered₂
  exact commitVersion_numbered numbered₂

theorem handleTimeout_numbered {now : Instant} (numbered : s.Numbered) :
    (finalState (handleTimeout now) s).Numbered := by
  have timed : Along (InvImage Calm Server.engine) (withEndpoint (Endpoint.handleTimeout now)) :=
    along_zoom handleTimeout_calm fun _ _ moved => moved
  apply post_state.mp
  unfold handleTimeout
  rw [post_bind]
  refine ((timed s).and (withEndpoint_state s)).mono (fun _ s₁ moved => ?_) fun _ _ moved =>
    numbered.of_calm moved.2 moved.1
  rw [post_state, finalState_publicResult]
  exact post_state.mp (progressLoop_numbered (numbered.of_calm moved.2 moved.1))

/-- A call that runs no handler does not lead back to the ClientHello. -/
theorem idle_state {call : Call} (isIdle : call.isIdle = true) :
    (s.exec call).state = .awaitClientHello → s.state = .awaitClientHello := by
  have still {program : ServerM Unit} (keeps : Along (Keeps Server.state) program) :
      (finalState program s).state = .awaitClientHello → s.state = .awaitClientHello :=
    fun early => (keeps.finalState s).symm.trans early
  cases call with
  | handlePacket packet => cases isIdle
  | handleTimeout now => cases isIdle
  | pollOutput bufLen => exact still (along_bind withEndpoint_state fun _ => along_pure)
  | sendApplicationData data =>
      refine still (along_bind along_get fun s => along_ite (fun _ => along_throw) fun _ => ?_)
      exact along_ite (fun _ => withEndpoint_state) fun _ => withEndpoint_state
  | close =>
      have closed : Post close s
          (fun _ s' => s'.state = .awaitClientHello → s.state = .awaitClientHello)
          (fun _ s' => s'.state = .awaitClientHello → s.state = .awaitClientHello) := by
        unfold close
        rw [post_bind, post_get, post_ite, post_ite]
        refine ⟨fun _ => id, fun _ => ⟨fun _ => ?_, fun _ => ?_⟩⟩
        · rw [post_bind]
          refine (withEndpoint_state s).mono (fun _ _ _ early => ?_) fun _ _ same early =>
            same.symm.trans early
          cases early
        · rw [post_bind]
          refine (withEndpoint_state s).mono (fun _ _ _ early => ?_) fun _ _ same early =>
            same.symm.trans early
          cases early
      exact post_state.mp closed

theorem exec_numbered {call : Call} (numbered : s.Numbered) : (s.exec call).Numbered := by
  cases isIdle : call.isIdle with
  | true =>
      have calm := ((idle_conduct calm_idles isIdle).finalState s).2
      exact ⟨calm.1 numbered.seals, fun early => calm.2.trans (numbered.unkeyed (idle_state isIdle early))⟩
  | false =>
      cases call with
      | handlePacket packet => exact handlePacket_numbered numbered
      | handleTimeout now => exact handleTimeout_numbered numbered
      | _ => cases isIdle

/-- In every run of a server no number is used twice. -/
theorem run_seals {start : Server} (calls : List Call) (isStart : Start start) :
    (run exec start calls).engine.SealInv := by
  have initial : start.Numbered := by
    cases isStart with
    | fresh config certificate rng rng' entropy now autoMode =>
        exact ⟨(@SealInv_new config certificate rng false).of_core rfl, fun _ => rfl⟩
  have meets : Meets exec (fun _ _ => True) start calls := Meets.of_all fun _ _ => trivial
  exact (run_invariant (fun _ _ numbered _ => exec_numbered numbered) initial meets).seals

end Server

end Dimpl.Dtls13
