import Dimpl.Dtls12.Conduct
import Dimpl.Dtls12.Engine.Timers
import Dimpl.EndpointDrain

/-!
# The timers of a client and a server

Handlers never arm a timer, so the deadlines after a timeout call are those its engine set.
-/

namespace Dimpl.Dtls12

open Nom Program

/-- Only a timeout call arms a timer. -/
theorem relaxes_conducts : Conducts Relaxes where
  nextHandshake := relaxes_of_keeps nextHandshake_clock
  nextRecord := relaxes_of_keeps (clock_of_posture nextRecord_posture)
  dropPendingCcs := relaxes_of_keeps (clock_of_posture dropPendingCcs_posture)
  enablePeerEncryption := relaxes_of_keeps enablePeerEncryption_clock
  flightBegin := fun _ => flightBegin_relaxes
  flightStop := fun _ => flightStopResendTimers_relaxes
  createHandshake := createHandshake_relaxes
  createRecord := relaxes_of_keeps (clock_of_posture createRecord_posture)
  resetClient := fun _ => .of_clock rfl
  resetServer := fun _ => .of_clock rfl
  setCipherSuite := relaxes_of_keeps setCipherSuite_clock
  context := fun _ _ => .of_clock rfl
  random := fun _ _ => .of_clock rfl
  discard := fun _ => .of_clock rfl
  release := fun _ => .of_clock rfl
  receivePacket := relaxes_of_keeps (clock_of_posture receivePacket_posture)
  pollOutput := relaxes_of_keeps (clock_of_posture pollOutput_posture)
  abort := fun _ => abort_relaxes

section Calls

variable {now : Instant}

theorem Client.initRandom_clock {c : Client} :
    Post (Client.initRandom now) c
      (fun _ c' => c'.lastNow = c.lastNow ∧ c'.engine.clock = c.engine.clock) (fun _ _ => False) := by
  unfold Client.initRandom
  rw [post_bind, post_get]
  split
  · exact ⟨rfl, rfl⟩
  · unfold Client.withEngine newRandom randomArr
    simp only [post_bind, post_zoom, post_get, post_set, post_pure, post_modify]
    exact ⟨trivial, rfl⟩

/-- The clock of the caller does not run back. -/
def Client.Forward (c : Client) (call : Client.Call) : Prop := ∀ now ∈ call.tick, c.lastNow ≤ now

/-- The flight is due within its timeout from the last timeout call on. -/
def Client.Paced (c : Client) : Prop := c.engine.Paced c.lastNow

/-- Handlers run after the timers and arm none. -/
theorem Client.handleTimeout_paced {c : Client} (paced : c.engine.Paced now) :
    Post (Client.handleTimeout now) c (fun _ c' => c'.Paced) (fun _ c' => c'.Paced) := by
  unfold Client.handleTimeout
  rw [post_bind, post_modify, post_bind]
  refine Client.initRandom_clock.mono (fun _ c₁ drawn => ?_) fun _ _ never => never.elim
  have isNow : c₁.lastNow = now := drawn.1
  have ready : c₁.engine.Paced now := (Relaxes.of_clock drawn.2).paced paced
  rw [post_bind]
  unfold Client.withEngine
  rw [post_zoom]
  refine (Dtls12.handleTimeout_paced ready).mono (fun _ e after => ?_) fun _ e after => ?_
  · have progress := along_publicResult (Client.makeProgress_conduct relaxes_conducts.toConduct)
    refine (progress _).mono (fun _ c' moved => ?_) fun _ c' moved => ?_
    all_goals
      have stands : c'.lastNow = now := moved.1.trans isNow
      rw [Client.Paced, stands]
      exact moved.2.paced after
  · rw [Client.Paced, isNow]
    exact after

/-- A call keeps the pace of the flight. -/
theorem Client.exec_paced {c : Client} {call : Client.Call} (paced : c.Paced) (forward : c.Forward call) :
    (c.exec call).Paced := by
  cases isTick : call.tick with
  | none =>
      have moved := (Client.call_conduct relaxes_conducts isTick).finalState c
      have same : (c.exec call).lastNow = c.lastNow := moved.1
      unfold Client.Paced
      rw [same]
      exact moved.2.paced paced
  | some now =>
      have later := forward now isTick
      cases call with
      | handleTimeout now' =>
          cases isTick
          exact post_state.mp (Client.handleTimeout_paced (Engine.Paced.later paced later))
      | _ => cases isTick

theorem Client.run_paced {start : Client} {calls : List Client.Call} (isStart : start.Start)
    (forward : Meets Client.exec Client.Forward start calls) : (run Client.exec start calls).Paced := by
  have paced : start.Paced := by
    cases isStart <;> exact fun _ armed => by cases armed
  have step : ∀ (c : Client) call, c.Paced → c.Forward call → (c.exec call).Paced :=
    fun _ _ => Client.exec_paced
  exact run_invariant step paced forward

theorem Server.initRandom_clock {s : Server} :
    Post (Server.initRandom now) s
      (fun _ s' => s'.lastNow = s.lastNow ∧ s'.engine.clock = s.engine.clock) (fun _ _ => False) := by
  unfold Server.initRandom
  rw [post_bind, post_get]
  split
  · exact ⟨rfl, rfl⟩
  · unfold Server.withEngine newRandom randomArr
    simp only [post_bind, post_zoom, post_get, post_set, post_pure, post_modify]
    exact ⟨trivial, rfl⟩

/-- The clock of the caller does not run back. -/
def Server.Forward (s : Server) (call : Server.Call) : Prop := ∀ now ∈ call.tick, s.lastNow ≤ now

/-- The flight is due within its timeout from the last timeout call on. -/
def Server.Paced (s : Server) : Prop := s.engine.Paced s.lastNow

/-- Handlers run after the timers and arm none. -/
theorem Server.handleTimeout_paced {s : Server} (paced : s.engine.Paced now) :
    Post (Server.handleTimeout now) s (fun _ s' => s'.Paced) (fun _ s' => s'.Paced) := by
  unfold Server.handleTimeout
  rw [post_bind, post_modify, post_bind]
  refine Server.initRandom_clock.mono (fun _ s₁ drawn => ?_) fun _ _ never => never.elim
  have isNow : s₁.lastNow = now := drawn.1
  have ready : s₁.engine.Paced now := (Relaxes.of_clock drawn.2).paced paced
  rw [post_bind]
  unfold Server.withEngine
  rw [post_zoom]
  refine (Dtls12.handleTimeout_paced ready).mono (fun _ e after => ?_) fun _ e after => ?_
  · have progress := along_publicResult (Server.makeProgress_conduct relaxes_conducts.toConduct)
    refine (progress _).mono (fun _ s' moved => ?_) fun _ s' moved => ?_
    all_goals
      have stands : s'.lastNow = now := moved.1.trans isNow
      rw [Server.Paced, stands]
      exact moved.2.paced after
  · rw [Server.Paced, isNow]
    exact after

/-- A call keeps the pace of the flight. -/
theorem Server.exec_paced {s : Server} {call : Server.Call} (paced : s.Paced) (forward : s.Forward call) :
    (s.exec call).Paced := by
  cases isTick : call.tick with
  | none =>
      have moved := (Server.call_conduct relaxes_conducts isTick).finalState s
      have same : (s.exec call).lastNow = s.lastNow := moved.1
      unfold Server.Paced
      rw [same]
      exact moved.2.paced paced
  | some now =>
      have later := forward now isTick
      cases call with
      | handleTimeout now' =>
          cases isTick
          exact post_state.mp (Server.handleTimeout_paced (Engine.Paced.later paced later))
      | _ => cases isTick

theorem Server.run_paced {start : Server} {calls : List Server.Call} (isStart : start.Start)
    (forward : Meets Server.exec Server.Forward start calls) : (run Server.exec start calls).Paced := by
  have paced : start.Paced := by
    cases isStart
    exact fun _ armed => by cases armed
  have step : ∀ (s : Server) call, s.Paced → s.Forward call → (s.exec call).Paced :=
    fun _ _ => Server.exec_paced
  exact run_invariant step paced forward

end Calls

end Dimpl.Dtls12
