import Dimpl.Dtls12.Timing
import Dimpl.HandshakeDeadline
import Dimpl.PeerAuthentication

/-!
# The timers of a connection

When a handshake is over, its deadline has to go. Both sides of DTLS 1.2 and the server of DTLS 1.3
see to it. A client of DTLS 1.3 does not: its deadline stays, and strikes the connection.
-/

namespace Dimpl

open Nom Program

namespace Dtls12

/-- Neither timer runs. -/
def Engine.Idle (e : Engine) : Prop := e.connectTimeout = .disabled ∧ e.flightTimeout = .disabled

section Engines

variable {e e' : Engine} {now : Instant}

theorem Engine.Idle.of_clock (idle : e.Idle) (same : e'.clock = e.clock) : e'.Idle :=
  ⟨(congrArg Clock.connectTimeout same).trans idle.1, (congrArg Clock.flightTimeout same).trans idle.2⟩

theorem Engine.Idle.armTimers (idle : e.Idle) : e.armTimers now = e := by
  obtain ⟨connect, flight⟩ := idle
  cases e
  subst connect flight
  rfl

/-- Without a timer a timeout call of the engine does nothing. -/
theorem handleTimeout_idle (idle : e.Idle) : Engine.handleTimeout now e = .ok () e := by
  have does : Post (Engine.handleTimeout now) e (fun _ e' => e' = e) (fun _ _ => False) := by
    unfold Engine.handleTimeout
    rw [post_bind, post_modify, idle.armTimers, post_bind, post_get, idle.1, idle.2, post_ite]
    constructor
    · intro due
      cases due
    · exact fun _ => rfl
  obtain ⟨_, returned, same⟩ | ⟨-, -, never⟩ := does.outcome
  · have ok := ok_of_value returned
    rwa [same] at ok
  · exact never.elim

end Engines

namespace Client

/-- Once the handshake is over no timer runs. -/
def Rested (c : Client) : Prop := c.state.inHandshake = false → c.engine.Idle

/-- State and clock stay. -/
def Halts (c c' : Client) : Prop := c'.state = c.state ∧ c'.engine.clock = c.engine.clock

instance : Std.Refl Halts := ⟨fun _ => ⟨rfl, rfl⟩⟩

instance : IsTrans Client Halts :=
  ⟨fun _ _ _ first second => ⟨second.1.trans first.1, second.2.trans first.2⟩⟩

section Handlers

variable {c c' : Client}

theorem Rested.of_halts (rested : Rested c) (halts : Halts c c') : Rested c' :=
  fun passed => (rested (halts.1 ▸ passed)).of_clock halts.2

theorem withEngine_halts {α : Type} {program : EngineM α} (keeps : Along (Keeps Engine.clock) program) :
    Along Halts (withEngine program) :=
  along_zoom keeps fun _ _ same => ⟨rfl, same⟩

theorem createRecord_halts {contentType : ContentType} {fragment : Bytes} :
    Along Halts (withEngine (createRecord contentType 1 false fragment)) :=
  withEngine_halts (clock_of_posture createRecord_posture)

theorem awaitApplicationData_halts : Along Halts awaitApplicationData := by
  have sends : ∀ queued, Along (Keeps Engine.clock) (sendQueued queued) := by
    intro queued
    induction queued with
    | nil => exact along_pure
    | cons data rest inductionHypothesis =>
        exact along_bind (clock_of_posture createRecord_posture) fun _ => inductionHypothesis
  have discards : Along (Keeps Engine.clock) (modify Engine.discardPendingWrites : EngineM PUnit) :=
    along_modify fun _ => rfl
  refine along_get_bind fun c => ?_
  rw [post_ite]
  constructor
  · intro _
    exact along_bind (withEngine_halts discards) (fun _ =>
      along_bind createRecord_halts fun _ => along_pure) c
  · intro _
    rw [post_bind, post_set]
    exact Along.after (s := c) (along_bind (withEngine_halts (sends _)) fun _ => along_pure) ⟨rfl, rfl⟩

/-- Behind the handshake comes only what its last message leads to. -/
theorem State.over_follows {state next : State} (under : ¬state.inHandshake = false)
    (isNext : next ∈ state :: state.follows) :
    next.inHandshake = false → state = .awaitFinished ∧ next ≠ .awaitFinished := by
  revert next
  cases state <;> first | decide | exact absurd rfl under

/-- The server's Finished stops the timers. -/
theorem awaitFinished_idle :
    Post awaitFinished c (fun next c' => next ≠ .awaitFinished → c'.engine.Idle) (fun _ _ => True) := by
  have completes : ∀ c, Post completeHandshake c (fun _ c' => c'.engine.Idle) (fun _ _ => True) := by
    intro c
    unfold completeHandshake withEngine emitKeyingMaterial
    rw [post_bind, post_zoom, post_modify, post_bind, post_modify, post_bind, post_bind, post_get]
    split
    · exact ⟨rfl, rfl⟩
    · rw [post_bind, post_orThrow]
      exact ⟨fun _ _ => ⟨rfl, rfl⟩, fun _ => trivial⟩
  unfold awaitFinished
  rw [post_bind, post_get, post_bind]
  refine post_self.mono (fun expected c₁ _ => ?_) fun _ _ _ => trivial
  refine onHandshake_post (fun _ _ stays => absurd rfl stays) (fun _ _ _ => trivial) fun c₂ body buffer _ => ?_
  split
  · rw [post_ite]
    refine ⟨fun _ => trivial, fun _ => ?_⟩
    rw [post_bind]
    refine post_self.mono (fun _ c₃ _ => ?_) fun _ _ _ => trivial
    exact (completes c₃).mono (fun _ _ idle _ => idle) fun _ _ _ => trivial
  · trivial

/-- The handlers that end the handshake stop the timers, and those behind it start none. -/
theorem makeProgress_rested (rested : Rested c) :
    Post c.state.makeProgress c (fun next c' => Rested { c' with state := next })
      (fun _ c' => Rested c') := by
  have within := makeProgress_within c.state c
  by_cases isOver : c.state.inHandshake = false
  · have halts : Along Halts c.state.makeProgress := by
      revert isOver
      cases c.state with
      | awaitApplicationData => exact fun _ => awaitApplicationData_halts
      | closed => exact fun _ => along_pure
      | _ => exact fun passed => by cases passed
    refine (halts c).mono (fun next c' kept _ => ?_) fun _ c' kept => rested.of_halts kept
    exact (rested isOver).of_clock kept.2
  · have returns := makeProgress_returns c.state c
    have ends : Post c.state.makeProgress c (fun next c' => c.state = .awaitFinished →
        next ≠ .awaitFinished → c'.engine.Idle) (fun _ _ => True) := by
      by_cases isLast : c.state = .awaitFinished
      · rw [isLast]
        exact awaitFinished_idle.mono (fun _ _ idle _ => idle) fun _ _ _ => trivial
      · exact post_self.mono (fun _ _ _ last => absurd last isLast) fun _ _ _ => trivial
    refine ((within.and returns).and ends).mono ?_ ?_
    · rintro next c' ⟨⟨-, isNext⟩, idle⟩ passed
      obtain ⟨last, moved⟩ := State.over_follows isOver isNext passed
      exact idle last moved
    · rintro _ c' ⟨⟨within, -⟩, -⟩ passed
      rw [within.state] at passed
      exact absurd passed isOver

theorem progressLoop_rested {fuel : Nat} (rested : Rested c) :
    Post (progressLoop fuel) c (fun _ c' => Rested c') (fun _ c' => Rested c') := by
  induction fuel generalizing c with
  | zero => exact rested
  | succ fuel inductionHypothesis =>
      unfold progressLoop
      rw [post_bind, post_get]
      dsimp only
      rw [post_bind]
      refine ((makeProgress_rested rested).and (makeProgress_within c.state c)).mono ?_
        fun _ _ kept => kept.1
      rintro next c' ⟨after, within⟩
      rw [post_ite]
      constructor
      · intro same
        rw [same, ← within.state] at after
        exact after
      · intro _
        rw [post_bind, post_modify]
        exact inductionHypothesis after

end Handlers

section Calls

variable {c : Client}

/-- A program that stops neither the state nor the clock. -/
theorem settled_of_along {α : Type} {program : ClientM α} (rested : Rested c)
    (along : Along Halts program) :
    Post program c (fun _ c' => Rested c') (fun _ c' => Rested c') :=
  (along c).mono (fun _ _ halts => rested.of_halts halts) fun _ _ halts => rested.of_halts halts

theorem handlePacket_rested {packet : Bytes} (rested : Rested c) :
    Post (handlePacket packet) c (fun _ c' => Rested c') (fun _ c' => Rested c') := by
  unfold handlePacket
  rw [post_publicResult, post_bind]
  have received : Along Halts (withEngine (receivePacket packet)) :=
    withEngine_halts (clock_of_posture receivePacket_posture)
  refine (settled_of_along rested received).mono (fun _ c' kept => ?_) fun fault _ kept => by
    cases fault <;> exact kept
  exact (progressLoop_rested kept).mono (fun _ _ done => done) fun fault _ done => by
    cases fault <;> exact done

/-- The timeout call of the engine wakes no timer that was stopped. -/
theorem timers_rested {now : Instant} (rested : Rested c) :
    Post (withEngine (Engine.handleTimeout now)) c (fun _ c' => Rested c') (fun _ c' => Rested c') := by
  unfold withEngine
  rw [post_zoom]
  by_cases isOver : c.state.inHandshake = false
  · unfold Post
    rw [handleTimeout_idle (rested isOver)]
    exact rested
  · exact post_self.mono (fun _ _ _ passed => absurd passed isOver) fun _ _ _ passed => absurd passed isOver

theorem handleTimeout_rested {now : Instant} (rested : Rested c) :
    Post (Client.handleTimeout now) c (fun _ c' => Rested c') (fun _ c' => Rested c') := by
  unfold Client.handleTimeout
  rw [post_bind, post_modify, post_bind]
  have noted : Rested { c with lastNow := now } := rested
  have drawn : Post (initRandom now) { c with lastNow := now }
      (fun _ c' => Rested c') (fun _ _ => False) := by
    unfold initRandom
    rw [post_bind, post_get]
    split
    · exact noted
    · unfold withEngine newRandom randomArr
      simp only [post_bind, post_zoom, post_get, post_set, post_pure, post_modify]
      exact noted
  refine drawn.mono (fun _ c₁ kept => ?_) fun _ _ never => never.elim
  rw [post_bind]
  refine (timers_rested kept).mono (fun _ c₂ timed => ?_) fun _ _ timed => timed
  rw [post_publicResult]
  exact (progressLoop_rested timed).mono (fun _ _ done => done) fun fault _ done => by
    cases fault <;> exact done

theorem pollOutput_halts {bufLen : Nat} : Along Halts (Client.pollOutput bufLen) := by
  refine along_get_bind fun c => ?_
  split
  · rw [post_bind, post_set]
    exact LocalEvent.intoOutput_readOnly.along.after ⟨rfl, rfl⟩
  · exact withEngine_halts (clock_of_posture pollOutput_posture) c

theorem sendApplicationData_halts {data : Bytes} : Along Halts (sendApplicationData data) := by
  refine along_get_bind fun c => ?_
  rw [post_ite]
  refine ⟨fun _ => ⟨rfl, rfl⟩, fun _ => ?_⟩
  rw [post_ite]
  exact ⟨fun _ => ⟨rfl, rfl⟩, fun _ => createRecord_halts c⟩

theorem close_rested (rested : Rested c) :
    Post close c (fun _ c' => Rested c') (fun _ c' => Rested c') := by
  unfold close
  rw [post_bind, post_get, post_ite]
  refine ⟨fun _ => rested, fun _ => ?_⟩
  rw [post_ite]
  constructor
  · intro _ _
    exact ⟨rfl, rfl⟩
  · intro isOpen
    have passed : c.state.inHandshake = false := by
      rw [not_not.mp isOpen]
      rfl
    rw [post_bind]
    refine (createRecord_halts c).mono (fun _ c' halts _ => ?_) fun _ _ halts => rested.of_halts halts
    exact (rested passed).of_clock halts.2

/-- Every call keeps the timers of a finished handshake stopped. -/
theorem exec_rested (rested : Rested c) {call : Call} : Rested (c.exec call) := by
  apply post_state.mp
  cases call with
  | handlePacket packet => exact handlePacket_rested rested
  | handleTimeout now => exact handleTimeout_rested rested
  | pollOutput bufLen =>
      exact post_bind.mpr ((settled_of_along rested pollOutput_halts).mono (fun _ _ kept => kept)
        fun _ _ kept => kept)
  | sendApplicationData data => exact settled_of_along rested sendApplicationData_halts
  | close => exact close_rested rested

theorem Reached.rested (reached : Reached c) : Rested c := by
  obtain ⟨start, calls, isStart, rfl⟩ := reached
  have initial : Rested start := by
    cases isStart <;> exact fun passed => by cases passed
  have preserved : ∀ (c : Client) (call : Call), Rested c → True → Rested (c.exec call) :=
    fun _ _ rested _ => exec_rested rested
  exact run_invariant preserved initial (Meets.of_all fun _ _ => trivial)

end Calls

end Client

namespace Server

/-- Once the handshake is over no timer runs. -/
def Rested (s : Server) : Prop := s.state.inHandshake = false → s.engine.Idle

/-- State and clock stay. -/
def Halts (s s' : Server) : Prop := s'.state = s.state ∧ s'.engine.clock = s.engine.clock

instance : Std.Refl Halts := ⟨fun _ => ⟨rfl, rfl⟩⟩

instance : IsTrans Server Halts :=
  ⟨fun _ _ _ first second => ⟨second.1.trans first.1, second.2.trans first.2⟩⟩

section Handlers

variable {s s' : Server}

theorem Rested.of_halts (rested : Rested s) (halts : Halts s s') : Rested s' :=
  fun passed => (rested (halts.1 ▸ passed)).of_clock halts.2

theorem withEngine_halts {α : Type} {program : EngineM α} (keeps : Along (Keeps Engine.clock) program) :
    Along Halts (withEngine program) :=
  along_zoom keeps fun _ _ same => ⟨rfl, same⟩

theorem createRecord_halts {contentType : ContentType} {fragment : Bytes} :
    Along Halts (withEngine (createRecord contentType 1 false fragment)) :=
  withEngine_halts (clock_of_posture createRecord_posture)

theorem awaitApplicationData_halts : Along Halts awaitApplicationData := by
  have sends : ∀ queued, Along (Keeps Engine.clock) (sendQueued queued) := by
    intro queued
    induction queued with
    | nil => exact along_pure
    | cons data rest inductionHypothesis =>
        exact along_bind (clock_of_posture createRecord_posture) fun _ => inductionHypothesis
  have discards : Along (Keeps Engine.clock) (modify Engine.discardPendingWrites : EngineM PUnit) :=
    along_modify fun _ => rfl
  refine along_get_bind fun s => ?_
  rw [post_ite]
  constructor
  · intro _
    exact along_bind (withEngine_halts discards) (fun _ =>
      along_bind createRecord_halts fun _ => along_pure) s
  · intro _
    rw [post_bind, post_set]
    exact Along.after (s := s) (along_bind (withEngine_halts (sends _)) fun _ => along_pure) ⟨rfl, rfl⟩

/-- Behind the handshake comes only what its last message leads to. -/
theorem State.over_follows {state next : State} (under : ¬state.inHandshake = false)
    (isNext : next ∈ state :: state.follows) :
    next.inHandshake = false → state = .sendFinished ∧ next ≠ .sendFinished := by
  revert next
  cases state <;> first | decide | exact absurd rfl under

/-- The own Finished stops the timers. -/
theorem sendFinished_idle :
    Post sendFinished s (fun next s' => next ≠ .sendFinished → s'.engine.Idle) (fun _ _ => True) := by
  unfold sendFinished withEngine emitKeyingMaterial
  rw [post_bind]
  refine post_self.mono (fun _ s₁ _ => ?_) fun _ _ _ => trivial
  rw [post_bind, post_zoom, post_modify, post_bind, post_modify, post_bind, post_bind, post_get]
  split
  · exact fun _ => ⟨rfl, rfl⟩
  · rw [post_bind, post_orThrow]
    exact ⟨fun _ _ _ => ⟨rfl, rfl⟩, fun _ => trivial⟩

/-- The handlers that end the handshake stop the timers, and those behind it start none. -/
theorem makeProgress_rested (rested : Rested s) :
    Post s.state.makeProgress s (fun next s' => Rested { s' with state := next })
      (fun _ s' => Rested s') := by
  have within := makeProgress_within s.state s
  by_cases isOver : s.state.inHandshake = false
  · have halts : Along Halts s.state.makeProgress := by
      revert isOver
      cases s.state with
      | awaitApplicationData => exact fun _ => awaitApplicationData_halts
      | closed => exact fun _ => along_pure
      | _ => exact fun passed => by cases passed
    refine (halts s).mono (fun next s' kept _ => ?_) fun _ s' kept => rested.of_halts kept
    exact (rested isOver).of_clock kept.2
  · have returns := makeProgress_returns s.state s
    have ends : Post s.state.makeProgress s (fun next s' => s.state = .sendFinished →
        next ≠ .sendFinished → s'.engine.Idle) (fun _ _ => True) := by
      by_cases isLast : s.state = .sendFinished
      · rw [isLast]
        exact sendFinished_idle.mono (fun _ _ idle _ => idle) fun _ _ _ => trivial
      · exact post_self.mono (fun _ _ _ last => absurd last isLast) fun _ _ _ => trivial
    refine ((within.and returns).and ends).mono ?_ ?_
    · rintro next s' ⟨⟨-, isNext⟩, idle⟩ passed
      obtain ⟨last, moved⟩ := State.over_follows isOver isNext passed
      exact idle last moved
    · rintro _ s' ⟨⟨within, -⟩, -⟩ passed
      rw [within.state] at passed
      exact absurd passed isOver

theorem progressLoop_rested {fuel : Nat} (rested : Rested s) :
    Post (progressLoop fuel) s (fun _ s' => Rested s') (fun _ s' => Rested s') := by
  induction fuel generalizing s with
  | zero => exact rested
  | succ fuel inductionHypothesis =>
      unfold progressLoop
      rw [post_bind, post_get]
      dsimp only
      rw [post_bind]
      refine ((makeProgress_rested rested).and (makeProgress_within s.state s)).mono ?_
        fun _ _ kept => kept.1
      rintro next s' ⟨after, within⟩
      rw [post_ite]
      constructor
      · intro same
        rw [same, ← within.state] at after
        exact after
      · intro _
        rw [post_bind, post_modify]
        exact inductionHypothesis after

end Handlers

section Calls

variable {s : Server}

/-- A program that stops neither the state nor the clock. -/
theorem settled_of_along {α : Type} {program : ServerM α} (rested : Rested s)
    (along : Along Halts program) :
    Post program s (fun _ s' => Rested s') (fun _ s' => Rested s') :=
  (along s).mono (fun _ _ halts => rested.of_halts halts) fun _ _ halts => rested.of_halts halts

theorem handlePacket_rested {packet : Bytes} (rested : Rested s) :
    Post (handlePacket packet) s (fun _ s' => Rested s') (fun _ s' => Rested s') := by
  unfold handlePacket
  rw [post_publicResult, post_bind]
  have received : Along Halts (withEngine (receivePacket packet)) :=
    withEngine_halts (clock_of_posture receivePacket_posture)
  refine (settled_of_along rested received).mono (fun _ s' kept => ?_) fun fault _ kept => by
    cases fault <;> exact kept
  exact (progressLoop_rested kept).mono (fun _ _ done => done) fun fault _ done => by
    cases fault <;> exact done

/-- The timeout call of the engine wakes no timer that was stopped. -/
theorem timers_rested {now : Instant} (rested : Rested s) :
    Post (withEngine (Engine.handleTimeout now)) s (fun _ s' => Rested s') (fun _ s' => Rested s') := by
  unfold withEngine
  rw [post_zoom]
  by_cases isOver : s.state.inHandshake = false
  · unfold Post
    rw [handleTimeout_idle (rested isOver)]
    exact rested
  · exact post_self.mono (fun _ _ _ passed => absurd passed isOver) fun _ _ _ passed => absurd passed isOver

theorem handleTimeout_rested {now : Instant} (rested : Rested s) :
    Post (Server.handleTimeout now) s (fun _ s' => Rested s') (fun _ s' => Rested s') := by
  unfold Server.handleTimeout
  rw [post_bind, post_modify, post_bind]
  have noted : Rested { s with lastNow := now } := rested
  have drawn : Post (initRandom now) { s with lastNow := now }
      (fun _ s' => Rested s') (fun _ _ => False) := by
    unfold initRandom
    rw [post_bind, post_get]
    split
    · exact noted
    · unfold withEngine newRandom randomArr
      simp only [post_bind, post_zoom, post_get, post_set, post_pure, post_modify]
      exact noted
  refine drawn.mono (fun _ s₁ kept => ?_) fun _ _ never => never.elim
  rw [post_bind]
  refine (timers_rested kept).mono (fun _ s₂ timed => ?_) fun _ _ timed => timed
  rw [post_publicResult]
  exact (progressLoop_rested timed).mono (fun _ _ done => done) fun fault _ done => by
    cases fault <;> exact done

theorem pollOutput_halts {bufLen : Nat} : Along Halts (Server.pollOutput bufLen) := by
  refine along_get_bind fun s => ?_
  split
  · rw [post_bind, post_set]
    exact LocalEvent.intoOutput_readOnly.along.after ⟨rfl, rfl⟩
  · exact withEngine_halts (clock_of_posture pollOutput_posture) s

theorem sendApplicationData_halts {data : Bytes} : Along Halts (sendApplicationData data) := by
  refine along_get_bind fun s => ?_
  rw [post_ite]
  refine ⟨fun _ => ⟨rfl, rfl⟩, fun _ => ?_⟩
  rw [post_ite]
  exact ⟨fun _ => ⟨rfl, rfl⟩, fun _ => createRecord_halts s⟩

theorem close_rested (rested : Rested s) :
    Post close s (fun _ s' => Rested s') (fun _ s' => Rested s') := by
  unfold close
  rw [post_bind, post_get, post_ite]
  refine ⟨fun _ => rested, fun _ => ?_⟩
  rw [post_ite]
  constructor
  · intro _ _
    exact ⟨rfl, rfl⟩
  · intro isOpen
    have passed : s.state.inHandshake = false := by
      rw [not_not.mp isOpen]
      rfl
    rw [post_bind]
    refine (createRecord_halts s).mono (fun _ s' halts _ => ?_) fun _ _ halts => rested.of_halts halts
    exact (rested passed).of_clock halts.2

/-- Every call keeps the timers of a finished handshake stopped. -/
theorem exec_rested (rested : Rested s) {call : Call} : Rested (s.exec call) := by
  apply post_state.mp
  cases call with
  | handlePacket packet => exact handlePacket_rested rested
  | handleTimeout now => exact handleTimeout_rested rested
  | pollOutput bufLen =>
      exact post_bind.mpr ((settled_of_along rested pollOutput_halts).mono (fun _ _ kept => kept)
        fun _ _ kept => kept)
  | sendApplicationData data => exact settled_of_along rested sendApplicationData_halts
  | close => exact close_rested rested

theorem Reached.rested (reached : Reached s) : Rested s := by
  obtain ⟨start, calls, isStart, rfl⟩ := reached
  have initial : Rested start := by
    cases isStart
    exact fun passed => by cases passed
  have preserved : ∀ (s : Server) (call : Call), Rested s → True → Rested (s.exec call) :=
    fun _ _ rested _ => exec_rested rested
  exact run_invariant preserved initial (Meets.of_all fun _ _ => trivial)

end Calls

end Server

end Dtls12

namespace Dtls13

/-- The settings and the deadline. -/
def Endpoint.deadline (p : Endpoint) : Config × Timeout := (p.engine.config, p.engine.connectTimeout)

/-- The state, the settings and the deadline. -/
def Client.deadline (c : Client) : Client.State × Config × Timeout := (c.state, c.endpoint.deadline)

namespace Client

/-- Whether `close` was not called. -/
def State.isOpen (state : State) : Bool := state ≠ .halfClosedLocal && state ≠ .closed

section Handlers

variable {early busy : Prop} {c : Client}

theorem Within.deadline {c' : Client} (within : Within early busy c c') : c'.deadline = c.deadline :=
  Prod.ext within.state (Prod.ext within.endures.engine.config within.endures.engine.deadline)

theorem deadline_of_within {α : Type} {program : ClientM α} (along : Along (Within early busy) program) :
    Along (Keeps deadline) program :=
  along.mono fun _ _ within => within.deadline

theorem deadline_of_leads {program : ClientM State} {T : State → Client → Prop}
    (leads : Leads (Within early busy) program T) : Along (Keeps deadline) program :=
  fun c => (leads c).mono (fun _ _ moved => moved.1.deadline) fun _ _ within => within.deadline

theorem withEngine_deadline {α : Type} {program : EngineM α} (framed : Along (Frame True) program) :
    Along (Keeps deadline) (withEngine program) :=
  deadline_of_within (@withEngine_framed True True α program framed)

theorem onHandshake_deadline {wanted : MessageType} {stay : State}
    {handle : Body → Bytes → ClientM State}
    (handles : ∀ body buffer, Along (Keeps deadline) (handle body buffer)) :
    Along (Keeps deadline) (onHandshake wanted stay handle) := by
  refine along_bind (withEngine_deadline nextHandshakeWithOptions_frame) fun found => ?_
  cases found with
  | none => exact along_pure
  | some message => exact handles _ _

theorem withEndpoint_deadline {α : Type} {program : EndpointM α}
    (along : Along (Keeps Endpoint.deadline) program) : Along (Keeps deadline) (withEndpoint program) :=
  along_zoom along fun _ _ same => congrArg (Prod.mk _) same

theorem withEndpoint_kept {α : Type} {program : EndpointM α}
    (endures : Along (Endures True True) program) : Along (Keeps deadline) (withEndpoint program) :=
  deadline_of_within (withEndpoint_within endures)

theorem advance_deadline {next : State} : Along (Keeps deadline) (advance next) :=
  deadline_of_leads (@advance_leads True True (fun _ _ => True) next fun _ => trivial)

theorem awaitCertificateRequest_deadline : Along (Keeps deadline) awaitCertificateRequest := by
  refine along_bind along_get fun c => along_ite (fun _ => along_pure) fun _ => ?_
  refine onHandshake_deadline fun body buffer => ?_
  split
  · split
    · exact along_throw
    · exact along_bind (along_modify fun _ => rfl) fun _ => advance_deadline
  · exact along_throw

theorem awaitCertificate_deadline : Along (Keeps deadline) awaitCertificate := by
  have takes : ∀ certificate buffer, Along (Keeps Endpoint.deadline)
      (Endpoint.takeCertificates certificate buffer) := by
    intro certificate buffer p
    refine Endpoint.takeCertificates_post.mono (fun _ p' taken => ?_) fun _ _ never => never.elim
    exact Prod.ext taken.2.engine.config taken.2.engine.deadline
  refine onHandshake_deadline fun body buffer => ?_
  split
  · refine along_ite (fun _ => along_throw) fun _ => along_ite (fun _ => along_throw) fun _ => ?_
    exact along_bind (withEndpoint_deadline (takes _ _)) fun _ => advance_deadline
  · exact along_throw

theorem awaitCertificateVerify_deadline : Along (Keeps deadline) awaitCertificateVerify := by
  refine along_bind along_get fun c => ?_
  refine along_bind (withEngine_deadline transcriptHash_readOnly.along) fun _ => ?_
  refine onHandshake_deadline fun body buffer => ?_
  split
  · exact along_bind (withEndpoint_kept Endpoint.checkCertificateVerify_endures) fun _ => along_pure
  · exact along_throw

theorem awaitFinished_deadline : Along (Keeps deadline) awaitFinished := by
  refine along_bind along_get fun c => along_bind along_get fun c => along_bind along_orThrow fun _ => ?_
  refine along_bind (withEngine_deadline computeVerifyData_readOnly.along) fun _ => ?_
  refine onHandshake_deadline fun body buffer => ?_
  split
  · refine along_bind (withEndpoint_kept Endpoint.checkFinished_endures) fun _ => ?_
    refine along_bind (withEndpoint_kept Endpoint.installApplicationSecrets_endures) fun _ => ?_
    exact along_bind along_get fun _ => along_pure
  · exact along_throw

theorem sendFinished_deadline : Along (Keeps deadline) sendFinished := by
  have completes : Along (Keeps Endpoint.deadline) Endpoint.completeHandshake := by
    refine along_bind (along_modify fun _ => rfl) fun _ => along_bind ?_ fun _ => ?_
    · refine along_bind along_get fun p => ?_
      split
      · exact along_pure
      · split
        · exact along_modify fun _ => rfl
        · exact along_throw
        · exact along_pure
    · have releases : Along (Keeps fun e : Engine => (e.config, e.connectTimeout))
          (modify Engine.releaseApplicationData : EngineM PUnit) := along_modify fun _ => rfl
      exact along_zoom releases fun _ _ same => same
  refine along_bind along_get fun c => along_bind ?_ fun _ => ?_
  · exact deadline_of_within (@withEngine_within True True _ _
      (along_runIf fun _ => along_modify fun _ => flightBegin_steady))
  · refine along_bind along_get fun c => along_bind along_orThrow fun secret => ?_
    refine along_bind (withEngine_deadline (createHandshake_frame computeVerifyData_readOnly.along))
      fun _ => ?_
    exact along_bind (withEndpoint_deadline completes) fun _ => along_pure

/-- No handler of a client touches the deadline. -/
theorem makeProgress_deadline (state : State) : Along (Keeps deadline) state.makeProgress := by
  cases state with
  | sendClientHello => exact deadline_of_leads sendClientHello_leads
  | awaitServerHello => exact deadline_of_leads awaitServerHello_leads
  | awaitEncryptedExtensions => exact deadline_of_leads awaitEncryptedExtensions_leads
  | awaitCertificateRequest => exact awaitCertificateRequest_deadline
  | awaitCertificate => exact awaitCertificate_deadline
  | awaitCertificateVerify => exact awaitCertificateVerify_deadline
  | awaitFinished => exact awaitFinished_deadline
  | sendCertificate => exact deadline_of_leads sendCertificate_leads
  | sendCertificateVerify => exact deadline_of_leads sendCertificateVerify_leads
  | sendFinished => exact sendFinished_deadline
  | awaitApplicationData => exact deadline_of_leads awaitApplicationData_leads
  | halfClosedLocal => exact deadline_of_leads halfClosedLocal_leads
  | closed => exact along_pure

/-- A handler does not open what was closed. -/
theorem makeProgress_opens (state : State) :
    Returns (fun next => next.isOpen = true → state.isOpen = true) state.makeProgress := by
  by_cases isOpen : state.isOpen = true
  · intro c
    exact post_self.mono (fun _ _ _ _ => isOpen) fun _ _ _ => trivial
  · cases state with
    | halfClosedLocal =>
        intro c
        refine (halfClosedLocal_leads c).mono ?_ fun _ _ _ => trivial
        rintro next c' ⟨-, rfl | rfl⟩ opened
        · cases opened
        · cases opened
    | closed => exact returns_pure fun opened => by cases opened
    | _ => exact absurd rfl isOpen

end Handlers

section Calls

variable {due due' : Promise} {c : Client}

/-- What is promised of the deadline holds until the client is closed. -/
def Lasts (due : Promise) (c : Client) : Prop :=
  c.state.isOpen = true → due c.engine.config.handshakeTimeout c.engine.connectTimeout

theorem Lasts.of_deadline {c' : Client} (lasts : Lasts due c) (same : c'.deadline = c.deadline)
    {next : State} (opens : next.isOpen = true → c.state.isOpen = true) :
    Lasts due { c' with state := next } := by
  intro isOpen
  have promised := lasts (opens isOpen)
  have config : c'.engine.config = c.engine.config := congrArg (fun deadline => deadline.2.1) same
  have timer : c'.engine.connectTimeout = c.engine.connectTimeout :=
    congrArg (fun deadline => deadline.2.2) same
  rwa [← config, ← timer] at promised

theorem Lasts.keep {c' : Client} (lasts : Lasts due c) (same : c'.deadline = c.deadline) :
    Lasts due c' := by
  have state : c'.state = c.state := congrArg Prod.fst same
  exact @Lasts.of_deadline due c c' lasts same c'.state fun isOpen => state ▸ isOpen

theorem progressLoop_lasts {fuel : Nat} (lasts : Lasts due c) :
    Post (progressLoop fuel) c (fun _ c' => Lasts due c') (fun _ c' => Lasts due c') := by
  induction fuel generalizing c with
  | zero => exact lasts
  | succ fuel inductionHypothesis =>
      unfold progressLoop
      rw [post_bind, post_get]
      dsimp only
      rw [post_bind]
      refine ((makeProgress_deadline c.state c).and (makeProgress_opens c.state c)).mono ?_ ?_
      · rintro next c' ⟨same, opens⟩
        rw [post_ite]
        constructor
        · exact fun _ => lasts.keep same
        · intro _
          rw [post_bind, post_modify]
          exact inductionHypothesis (lasts.of_deadline same opens)
      · exact fun _ _ kept => lasts.keep kept.1

theorem lasts_of_along {α : Type} {program : ClientM α} (lasts : Lasts due c)
    (along : Along (Keeps deadline) program) :
    Post program c (fun _ c' => Lasts due c') (fun _ c' => Lasts due c') :=
  (along c).mono (fun _ _ same => lasts.keep same) fun _ _ same => lasts.keep same

theorem handlePacket_lasts {packet : Bytes} (lasts : Lasts due c) :
    Post (handlePacket packet) c (fun _ c' => Lasts due c') (fun _ c' => Lasts due c') := by
  unfold handlePacket
  rw [post_publicResult, post_bind]
  refine (lasts_of_along lasts (withEngine_deadline receivePacket_frame)).mono (fun _ c₁ kept => ?_)
    fun fault _ kept => by cases fault <;> exact kept
  exact (progressLoop_lasts kept).mono (fun _ _ done => done) fun fault _ done => by
    cases fault <;> exact done

theorem handleTimeout_lasts {now : Instant} (lasts : Lasts due c)
    (arms : Promise.Arms (some now) due due') :
    Post (Client.handleTimeout now) c (fun _ c' => Lasts due' c') (fun _ c' => Lasts due' c') := by
  have armed : ∀ p : Endpoint, Endures True True { c.endpoint with engine := c.endpoint.engine.armTimers now } p →
      Lasts due' { c with endpoint := p } := by
    intro p endures isOpen
    have promised := arms _ _ (lasts isOpen)
    rw [← Engine.armTimers_connect] at promised
    exact endures.engine.due promised
  unfold Client.handleTimeout withEndpoint
  rw [post_bind, post_zoom]
  refine Endpoint.handleTimeout_endures.mono (fun _ p endures => ?_) fun _ p endures => armed p endures
  rw [post_publicResult]
  exact (progressLoop_lasts (armed p endures)).mono (fun _ _ done => done) fun fault _ done => by
    cases fault <;> exact done

/-- A close that succeeds ends the promise, one that fails changes nothing. -/
theorem close_lasts (lasts : Lasts due c) :
    Post close c (fun _ c' => Lasts due c') (fun _ c' => Lasts due c') := by
  have sent : Along (Endures True True) (Endpoint.withEngine
      (createCiphertextRecord .alert c.endpoint.engine.appSendEpoch false closeNotifyAlert)) :=
    Endpoint.withEngine_framed createCiphertextRecord_frame
  unfold close
  rw [post_bind, post_get, post_ite]
  refine ⟨fun _ => lasts, fun _ => ?_⟩
  rw [post_ite]
  constructor
  · intro _
    rw [post_bind, withEngine_post, post_modify, post_modify]
    exact fun isOpen => by cases isOpen
  · intro _
    unfold withEndpoint Endpoint.closeWrite
    rw [post_bind, post_zoom, post_bind, post_get, post_bind]
    refine (sent c.endpoint).mono (fun _ _ _ => ?_) fun _ p endures => ?_
    · exact fun isOpen => by cases isOpen
    · exact lasts.keep (Prod.ext rfl (Prod.ext endures.engine.config endures.engine.deadline))

theorem sendApplicationData_deadline {data : Bytes} : Along (Keeps deadline) (sendApplicationData data) := by
  refine along_bind along_get fun c => along_ite (fun _ => along_throw) fun _ => along_ite (fun _ => ?_) fun _ => ?_
  · exact withEndpoint_kept Endpoint.queueData_endures
  · exact withEndpoint_kept Endpoint.sendData_endures

/-- Every call keeps what is promised of the deadline. -/
theorem exec_lasts (lasts : Lasts due c) {call : Call} (arms : Promise.Arms call.tick due due') :
    Lasts due' (c.exec call) := by
  have later : call.tick = none → Lasts due' c := by
    intro unticked isOpen
    have armed := arms _ _ (lasts isOpen)
    rwa [unticked, Timeout.arm_none] at armed
  apply post_state.mp
  cases call with
  | handlePacket packet => exact handlePacket_lasts (later rfl)
  | handleTimeout now => exact handleTimeout_lasts lasts arms
  | pollOutput bufLen =>
      have polls : Along (Keeps deadline) (Client.pollOutput bufLen) :=
        withEndpoint_kept Endpoint.pollOutput_endures
      exact post_bind.mpr ((lasts_of_along (later rfl) polls).mono (fun _ _ kept => kept)
        fun _ _ kept => kept)
  | sendApplicationData data => exact lasts_of_along (later rfl) sendApplicationData_deadline
  | close => exact close_lasts (later rfl)

/-- The deadline of a client stays until the client is closed. -/
theorem deadline_lasts : timed.Covers fun c => c.state.isOpen = true :=
  Timed.covers Lasts
    (fun isStart promised => by
      cases isStart with
      | fresh => exact fun _ => promised
      | hybrid => exact fun _ => promised)
    (fun lasts arms => exec_lasts lasts arms)
    (fun lasts isOpen => lasts isOpen)
    (fun armed passed => reports_deadline armed passed)

end Calls

end Client

section Servers

variable {s : Server}

/-- A server that has connected has stopped its deadline. -/
theorem Server.Reached.undated (reached : s.Reached) (isState : s.state = .awaitApplicationData) :
    s.engine.connectTimeout = .disabled := by
  have has := reached.inv
  rw [Server.Inv, isState] at has
  exact has.calm rfl

/-- Without a timer a timeout call of the engine does nothing. -/
theorem handleTimeout_idle {e : Engine} {now : Instant} (connect : e.connectTimeout = .disabled)
    (flight : e.flightTimeout = .disabled) : Engine.handleTimeout now e = .ok () e := by
  have same : e.armTimers now = e := by
    cases e
    subst connect flight
    rfl
  have does : Post (Engine.handleTimeout now) e (fun _ e' => e' = e) (fun _ _ => False) := by
    unfold Engine.handleTimeout
    rw [post_bind, post_modify, same, post_bind, post_get, connect, flight, post_ite]
    constructor
    · intro due
      cases due
    · exact fun _ => rfl
  obtain ⟨_, returned, final⟩ | ⟨-, -, never⟩ := does.outcome
  · have ok := ok_of_value returned
    rwa [final] at ok
  · exact never.elim

end Servers

end Dtls13

/-- What becomes of the timers of a handshake that is over. In DTLS 1.2 both sides have stopped both,
and a timeout call finds nothing to do. A server of DTLS 1.3 has stopped its deadline, and where no
flight is out there is nothing to do either. A client of DTLS 1.3 keeps its deadline until it is
closed: one period after a timeout call the next one fails, connected or not. -/
theorem connection_timers (client12 : Dtls12.Client) (server12 : Dtls12.Server)
    (server13 : Dtls13.Server) (now : Instant) :
    (client12.Reached → client12.state = .awaitApplicationData →
      Dtls12.Engine.handleTimeout now client12.engine = .ok () client12.engine) ∧
      (server12.Reached → server12.state = .awaitApplicationData →
        Dtls12.Engine.handleTimeout now server12.engine = .ok () server12.engine) ∧
      (server13.Reached → server13.state = .awaitApplicationData →
        server13.engine.connectTimeout = .disabled ∧
          (server13.engine.flightTimeout = .disabled →
            Dtls13.Engine.handleTimeout now server13.engine = .ok () server13.engine)) ∧
      Dtls13.Client.timed.Covers fun c => c.state.isOpen = true := by
  refine ⟨fun reached isState => ?_, fun reached isState => ?_, fun reached isState => ?_,
    Dtls13.Client.deadline_lasts⟩
  · exact Dtls12.handleTimeout_idle (reached.rested (by rw [isState]; rfl))
  · exact Dtls12.handleTimeout_idle (reached.rested (by rw [isState]; rfl))
  · have undated := reached.undated isState
    exact ⟨undated, Dtls13.handleTimeout_idle undated⟩

/-- At the end of a handshake the server is safe, and the client fails at its deadline. -/
theorem connection_timers_connected :
    Dtls13.Exchange.connected.server.engine.connectTimeout = .disabled ∧
      Dtls13.Exchange.connected.client.state = .awaitApplicationData ∧
      Dtls13.Exchange.connected.client.engine.connectTimeout ≠ .disabled ∧
      error? (Dtls13.Client.handleTimeout Sample.config.handshakeTimeout)
        Dtls13.Exchange.connected.client = some (.fatal (.timeout .connect)) := by
  have facts : Dtls13.Exchange.connected.server.state = .awaitApplicationData ∧
      Dtls13.Exchange.connected.client.state = .awaitApplicationData ∧
      error? (Dtls13.Client.handleTimeout Sample.config.handshakeTimeout)
        Dtls13.Exchange.connected.client = some (.fatal (.timeout .connect)) := by
    decide +kernel
  obtain ⟨isServer, isClient, fails⟩ := facts
  obtain ⟨-, -, server, client⟩ := connection_timers Dtls12.Client.sample Dtls12.Server.sample
    Dtls13.Exchange.connected.server 0
  obtain ⟨start, calls, isStart, isRun⟩ := Dtls13.Exchange.connected_reached.client
  have stays := client.set start calls isStart
  refine ⟨(server Dtls13.Exchange.connected_reached.server isServer).1, isClient, ?_, fails⟩
  rw [isRun] at isClient ⊢
  exact stays (by rw [Dtls13.Client.timed, isClient]; rfl)

end Dimpl
