import Dimpl.Dtls13.Conduct
import Dimpl.Dtls13.Engine.Wakeup
import Dimpl.EndpointDrain

/-!
# The timers of a client and a server

Handlers never arm a timer, so the deadlines after a timeout call are those its engine set.
-/

namespace Dimpl.Dtls13

open Nom Program

/-- Only a timeout call arms a timer. -/
theorem relaxes_conducts : Conducts Relaxes where
  nextHandshake := relaxes_of_keeps nextHandshakeWithOptions_clock
  advance := fun _ => .of_clock rfl
  flightBegin := fun _ => flightBegin_relaxes
  flightStop := fun _ => flightStopResendTimers_relaxes
  createHandshake := fun readOnly => relaxes_of_keeps (createHandshake_clock (readOnly.along))
  truncate := fun _ _ => .of_clock rfl
  setCipherSuite := fun _ _ => .of_clock rfl
  replaceTranscript := relaxes_of_keeps replaceTranscriptWithMessageHash_clock
  resetForHelloRetry := fun _ => .of_clock rfl
  enablePeerEncryption := enablePeerEncryption_relaxes
  installHandshakeKeys := relaxes_of_keeps installHandshakeKeys_clock
  deriveApplicationSecrets := relaxes_of_keeps deriveApplicationSecrets_clock
  installApplicationKeys := relaxes_of_keeps installApplicationKeys_clock
  sendData := relaxes_of_keeps createCiphertextRecord_clock
  sendAck := relaxes_of_keeps sendAck_clock
  createKeyUpdate := createKeyUpdate_relaxes
  updateRecvKeys := relaxes_of_keeps updateRecvKeys_clock
  release := fun _ => .of_clock rfl
  needsKeyUpdate := fun _ => .of_clock rfl
  receivePacket := receivePacket_relaxes
  pollOutput := relaxes_of_keeps pollOutput_clock
  sendAlert := relaxes_of_keeps createCiphertextRecord_clock
  cancelFlights := fun _ => cancelFlights_relaxes
  abort := fun _ => abort_relaxes

section Calls

variable {P Q E : Engine → Prop} {now : Instant}

theorem Endpoint.initRandom_clock {p : Endpoint} :
    Post Endpoint.initRandom p
      (fun _ p' => p'.lastNow = p.lastNow ∧ p'.engine.clock = p.engine.clock) (fun _ _ => False) := by
  unfold Endpoint.initRandom
  rw [post_bind, post_get]
  split
  · exact ⟨rfl, rfl⟩
  · unfold Endpoint.withEngine newRandom randomArr
    simp only [post_bind, post_zoom, post_get, post_set, post_pure, post_modify]
    exact ⟨trivial, rfl⟩

/-- A timeout call notes the time, then its engine handles it. -/
theorem Endpoint.handleTimeout_timing {p : Endpoint}
    (before : ∀ e e', Relaxes e e' → P e → P e')
    (timeout : ∀ e, P e → Post (Engine.handleTimeout now) e (fun _ => Q) (fun _ => E))
    (holds : P p.engine) :
    Post (Endpoint.handleTimeout now) p (fun _ p' => p'.lastNow = now ∧ Q p'.engine)
      (fun _ p' => p'.lastNow = now ∧ E p'.engine) := by
  unfold Endpoint.handleTimeout
  rw [post_bind, post_modify, post_bind]
  refine Endpoint.initRandom_clock.mono (fun _ p₁ drawn => ?_) fun _ _ never => never.elim
  have ready : P p₁.engine := before _ _ (.of_clock drawn.2) holds
  unfold Endpoint.withEngine
  rw [post_zoom]
  exact (timeout _ ready).mono (fun _ _ after => ⟨drawn.1, after⟩) fun _ _ after => ⟨drawn.1, after⟩

/-- Handlers run after the timers; they keep what relaxing a timer keeps. -/
theorem Client.handleTimeout_timing {c : Client}
    (before : ∀ e e', Relaxes e e' → P e → P e')
    (timeout : ∀ e, P e → Post (Engine.handleTimeout now) e (fun _ => Q) (fun _ => E))
    (after : ∀ e e', Relaxes e e' → Q e → Q e') (holds : P c.engine) :
    Post (Client.handleTimeout now) c (fun _ c' => c'.endpoint.lastNow = now ∧ Q c'.engine)
      (fun _ c' => c'.endpoint.lastNow = now ∧ (E c'.engine ∨ Q c'.engine)) := by
  unfold Client.handleTimeout
  rw [post_bind]
  unfold Client.withEndpoint
  rw [post_zoom]
  refine (Endpoint.handleTimeout_timing before timeout holds).mono (fun _ p₁ timed => ?_)
    fun _ p₁ timed => ⟨timed.1, .inl timed.2⟩
  refine (along_publicResult (Client.makeProgress_conduct relaxes_conducts.toConduct) _).mono
    (fun _ c' moved => ?_) fun _ c' moved => ?_
  · exact ⟨moved.1.trans timed.1, after _ _ moved.2 timed.2⟩
  · exact ⟨moved.1.trans timed.1, .inr (after _ _ moved.2 timed.2)⟩

/-- Handlers run after the timers; they keep what relaxing a timer keeps. -/
theorem Server.handleTimeout_timing {s : Server}
    (before : ∀ e e', Relaxes e e' → P e → P e')
    (timeout : ∀ e, P e → Post (Engine.handleTimeout now) e (fun _ => Q) (fun _ => E))
    (after : ∀ e e', Relaxes e e' → Q e → Q e') (holds : P s.engine) :
    Post (Server.handleTimeout now) s (fun _ s' => s'.endpoint.lastNow = now ∧ Q s'.engine)
      (fun _ s' => s'.endpoint.lastNow = now ∧ (E s'.engine ∨ Q s'.engine)) := by
  unfold Server.handleTimeout
  rw [post_bind]
  unfold Server.withEndpoint
  rw [post_zoom]
  refine (Endpoint.handleTimeout_timing before timeout holds).mono (fun _ p₁ timed => ?_)
    fun _ p₁ timed => ⟨timed.1, .inl timed.2⟩
  refine (along_publicResult (Server.makeProgress_conduct relaxes_conducts.toConduct) _).mono
    (fun _ s' moved => ?_) fun _ s' moved => ?_
  · exact ⟨moved.1.trans timed.1, after _ _ moved.2 timed.2⟩
  · exact ⟨moved.1.trans timed.1, .inr (after _ _ moved.2 timed.2)⟩

/-- After a timeout call that succeeds every armed deadline is ahead. -/
theorem Client.handleTimeout_ahead {c : Client} :
    Post (Client.handleTimeout now) c (fun _ c' => c'.endpoint.lastNow = now ∧ c'.engine.Ahead now)
      (fun _ _ => True) := by
  have timed := @Client.handleTimeout_timing (fun _ => True) (Engine.Ahead now) (fun _ => True) now c
    (fun _ _ _ => id) (fun _ _ => Dtls13.handleTimeout_ahead) (fun _ _ relaxes => relaxes.ahead) trivial
  exact timed.mono (fun _ _ after => after) fun _ _ _ => trivial

/-- After a timeout call that succeeds every armed deadline is ahead. -/
theorem Server.handleTimeout_ahead {s : Server} :
    Post (Server.handleTimeout now) s (fun _ s' => s'.endpoint.lastNow = now ∧ s'.engine.Ahead now)
      (fun _ _ => True) := by
  have timed := @Server.handleTimeout_timing (fun _ => True) (Engine.Ahead now) (fun _ => True) now s
    (fun _ _ _ => id) (fun _ _ => Dtls13.handleTimeout_ahead) (fun _ _ relaxes => relaxes.ahead) trivial
  exact timed.mono (fun _ _ after => after) fun _ _ _ => trivial

/-- The clock of the caller does not run back. -/
def Client.Forward (c : Client) (call : Client.Call) : Prop := ∀ now ∈ call.tick, c.endpoint.lastNow ≤ now

/-- The flight is due within its timeout from the last timeout call on. -/
def Client.Paced (c : Client) : Prop := c.engine.Paced c.endpoint.lastNow

/-- A call keeps the pace of the flight. -/
theorem Client.exec_paced {c : Client} {call : Client.Call} (paced : c.Paced) (forward : c.Forward call) :
    (c.exec call).Paced := by
  cases isTick : call.tick with
  | none =>
      have moved := (Client.call_conduct relaxes_conducts isTick).finalState c
      have same : (c.exec call).endpoint.lastNow = c.endpoint.lastNow := moved.1
      unfold Client.Paced
      rw [same]
      exact moved.2.paced paced
  | some now =>
      have later := forward now isTick
      cases call with
      | handleTimeout now' =>
          cases isTick
          have timed := @Client.handleTimeout_timing (Engine.Paced now) (Engine.Paced now) (Engine.Paced now)
            now c (fun _ _ relaxes => relaxes.paced) (fun _ => handleTimeout_paced)
            (fun _ _ relaxes => relaxes.paced) (paced.later later)
          have kept : Post (Client.handleTimeout now) c (fun _ c' => c'.Paced) (fun _ c' => c'.Paced) := by
            refine timed.mono (fun _ c' after => ?_) fun _ c' after => ?_
            · rw [Client.Paced, after.1]
              exact after.2
            · rw [Client.Paced, after.1]
              exact after.2.elim id id
          exact post_state.mp kept
      | _ => cases isTick

theorem Client.run_paced {start : Client} {calls : List Client.Call} (isStart : start.Start)
    (forward : Meets Client.exec Client.Forward start calls) :
    (run Client.exec start calls).Paced := by
  have paced : start.Paced := by
    cases isStart <;> exact fun _ armed => by cases armed
  have step : ∀ (c : Client) call, c.Paced → c.Forward call → (c.exec call).Paced :=
    fun _ _ => Client.exec_paced
  exact run_invariant step paced forward

/-- The clock of the caller does not run back. -/
def Server.Forward (s : Server) (call : Server.Call) : Prop := ∀ now ∈ call.tick, s.endpoint.lastNow ≤ now

/-- The flight is due within its timeout from the last timeout call on. -/
def Server.Paced (s : Server) : Prop := s.engine.Paced s.endpoint.lastNow

/-- A call keeps the pace of the flight. -/
theorem Server.exec_paced {s : Server} {call : Server.Call} (paced : s.Paced) (forward : s.Forward call) :
    (s.exec call).Paced := by
  cases isTick : call.tick with
  | none =>
      have moved := (Server.call_conduct relaxes_conducts isTick).finalState s
      have same : (s.exec call).endpoint.lastNow = s.endpoint.lastNow := moved.1
      unfold Server.Paced
      rw [same]
      exact moved.2.paced paced
  | some now =>
      have later := forward now isTick
      cases call with
      | handleTimeout now' =>
          cases isTick
          have timed := @Server.handleTimeout_timing (Engine.Paced now) (Engine.Paced now) (Engine.Paced now)
            now s (fun _ _ relaxes => relaxes.paced) (fun _ => handleTimeout_paced)
            (fun _ _ relaxes => relaxes.paced) (paced.later later)
          have kept : Post (Server.handleTimeout now) s (fun _ s' => s'.Paced) (fun _ s' => s'.Paced) := by
            refine timed.mono (fun _ s' after => ?_) fun _ s' after => ?_
            · rw [Server.Paced, after.1]
              exact after.2
            · rw [Server.Paced, after.1]
              exact after.2.elim id id
          exact post_state.mp kept
      | _ => cases isTick

theorem Server.run_paced {start : Server} {calls : List Server.Call} (isStart : start.Start)
    (forward : Meets Server.exec Server.Forward start calls) :
    (run Server.exec start calls).Paced := by
  have paced : start.Paced := by
    cases isStart
    exact fun _ armed => by cases armed
  have step : ∀ (s : Server) call, s.Paced → s.Forward call → (s.exec call).Paced :=
    fun _ _ => Server.exec_paced
  exact run_invariant step paced forward

end Calls

end Dimpl.Dtls13
