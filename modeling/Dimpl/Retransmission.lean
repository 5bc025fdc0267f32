import Dimpl.Dtls12.Timing
import Dimpl.Dtls13.Exchange
import Dimpl.Dtls13.Timing

/-!
# When a lost flight is noticed

A flight that begins while a packet is handled has no deadline yet: its timer is armed by
the next timeout call. Until then the caller is told of the other timers only.
-/

namespace Dimpl

open Nom Program

namespace Dtls13

/-- A flight was sent and may have to be sent again. -/
def Engine.Outstanding (e : Engine) : Prop :=
  e.flightSavedRecords ≠ [] ∧ e.flightTimeout ≠ .disabled

/-- One of the timers that are armed falls within the timeout of the flight: its own does. -/
def Engine.Timely (now : Instant) (e : Engine) : Prop :=
  (∃ deadline, e.flightTimeout = .armed deadline) ∨
    (∃ deadline, e.ackDeadline now = some deadline ∧ deadline ≤ now + e.flightBackoff.rto) ∨
    match e.connectTimeout with
    | .armed deadline => deadline ≤ now + e.flightBackoff.rto
    | _ => distantFuture ≤ e.flightBackoff.rto

section Wakeup

variable {e : Engine} {now : Instant}

theorem Engine.nextDeadline_le_iff (paced : e.Paced now) :
    e.nextDeadline now ≤ now + e.flightBackoff.rto ↔
      (∃ deadline, e.flightTimeout = .armed deadline) ∨
        match e.connectTimeout with
        | .armed deadline => deadline ≤ now + e.flightBackoff.rto
        | _ => distantFuture ≤ e.flightBackoff.rto := by
  have pick : ∀ first second : Instant, second ≤ now + e.flightBackoff.rto →
      (if first < second then first else second) ≤ now + e.flightBackoff.rto := by
    intro first second inTime
    split
    · rename_i earlier
      exact Nat.le_trans (Nat.le_of_lt earlier) inTime
    · exact inTime
  unfold Engine.nextDeadline Engine.pollTimeout
  dsimp only
  cases isFlight : e.flightTimeout with
  | armed deadline =>
      have inTime := paced deadline isFlight
      refine iff_of_true ?_ (.inl ⟨deadline, rfl⟩)
      cases e.connectTimeout with
      | armed connect => exact pick connect deadline inTime
      | disabled => exact inTime
      | unarmed => exact inTime
  | disabled | unarmed =>
      cases e.connectTimeout with
      | armed connect => simp
      | disabled | unarmed => simp

/-- The instant reported is within the timeout of the flight when a timer is. -/
theorem Engine.wakeup_le_iff (paced : e.Paced now) :
    e.wakeup now ≤ now + e.flightBackoff.rto ↔ e.Timely now := by
  unfold Engine.Timely
  rw [or_left_comm, ← Engine.nextDeadline_le_iff paced, Engine.wakeup_eq]
  cases e.ackDeadline now with
  | none => simp
  | some deadline => simp

end Wakeup

end Dtls13

namespace Dtls12

/-- A flight was sent and may have to be sent again. -/
def Engine.Outstanding (e : Engine) : Prop :=
  e.flightSavedRecords ≠ [] ∧ e.flightTimeout ≠ .disabled

/-- The timer of the flight is armed, or that of the handshake is not, or it is so close to
its end. -/
def Engine.Timely (now : Instant) (e : Engine) : Prop :=
  (∃ deadline, e.flightTimeout = .armed deadline) ∨
    ∀ deadline, e.connectTimeout = .armed deadline → deadline ≤ now + e.flightBackoff.rto

section Wakeup

variable {e e' : Engine} {now : Instant} {bufLen : Nat}

theorem Engine.pollTimeout_of_clock (same : e'.clock = e.clock) :
    e'.pollTimeout now = e.pollTimeout now := by
  have connect := congrArg Clock.connectTimeout same
  have flight := congrArg Clock.flightTimeout same
  simp only [Engine.clock] at connect flight
  simp only [Engine.pollTimeout, connect, flight]

/-- What a poll does to the instant it reports. -/
theorem pollOutput_timeout {output : Output} (polled : Engine.pollOutput bufLen now e = .ok output e') :
    e'.clock = e.clock ∧ ∀ t, output = .timeout t → t = e.pollTimeout now := by
  have kept := clock_of_posture (@pollOutput_posture bufLen now) e
  rw [Post, polled] at kept
  have last : Post (Engine.pollOutput bufLen now) e
      (fun output e' => ∀ t, output = .timeout t → t = e'.pollTimeout now) (fun _ _ => True) := by
    unfold Engine.pollOutput
    rw [post_bind, post_modify, post_bind]
    refine post_self.mono (fun data e₁ _ => ?_) fun _ _ _ => trivial
    cases data with
    | some data => exact fun _ isTimeout => by cases isTimeout
    | none =>
        rw [post_bind]
        refine post_self.mono (fun packet e₂ _ => ?_) fun _ _ _ => trivial
        cases packet with
        | some packet => exact fun _ isTimeout => by cases isTimeout
        | none =>
            rw [post_bind, post_get, post_ite]
            refine ⟨fun _ _ isTimeout => (by cases isTimeout), fun _ t isTimeout => ?_⟩
            cases isTimeout
            rfl
  rw [Post, polled] at last
  refine ⟨kept, fun t isTimeout => ?_⟩
  rw [last t isTimeout, Engine.pollTimeout_of_clock kept]

/-- A drain reports the next deadline. -/
theorem drained_timeout {t : Instant} (drained : Drained (Engine.pollOutput bufLen now) e t e') :
    t = e.pollTimeout now := by
  obtain ⟨e₁, before, polled⟩ := drained.last_poll (I := fun e₁ => e₁.clock = e.clock)
    (fun e₁ output e₂ before polled _ => (pollOutput_timeout polled).1.trans before) rfl
  rw [(pollOutput_timeout polled).2 t rfl, Engine.pollTimeout_of_clock before]

/-- The instant reported is within the timeout of the flight when a timer is. -/
theorem Engine.pollTimeout_le_iff (paced : e.Paced now) (isSet : e.flightTimeout ≠ .disabled) :
    e.pollTimeout now ≤ now + e.flightBackoff.rto ↔ e.Timely now := by
  unfold Engine.pollTimeout Engine.Timely
  cases isFlight : e.flightTimeout with
  | disabled => exact absurd isFlight isSet
  | armed deadline =>
      have inTime := paced deadline isFlight
      refine iff_of_true ?_ (.inl ⟨deadline, rfl⟩)
      cases e.connectTimeout with
      | disabled => exact inTime
      | unarmed => exact inTime
      | armed connect =>
          dsimp only
          split
          · rename_i earlier
            exact Nat.le_trans (Nat.le_of_lt earlier) inTime
          · exact inTime
  | unarmed =>
      cases e.connectTimeout with
      | disabled => simp
      | unarmed => simp
      | armed connect => simp

end Wakeup

end Dtls12

/-- In every run whose clock does not go back, a drain that leaves a flight outstanding
reports an instant within the timeout of the flight exactly when it starts with the timer of
the flight armed, or with another timer that falls within. -/
theorem retransmission_timely_iff (bufLen : Nat) (t : Instant) :
    (∀ (start c' : Dtls13.Client) (calls : List Dtls13.Client.Call), start.Start →
      Meets Dtls13.Client.exec Dtls13.Client.Forward start calls →
      Drained (Dtls13.Client.pollOutput bufLen) (run Dtls13.Client.exec start calls) t c' →
      let c := run Dtls13.Client.exec start calls
      c.engine.Outstanding → (t ≤ c.endpoint.lastNow + c.engine.flightBackoff.rto ↔
        c.engine.Timely c.endpoint.lastNow)) ∧
    (∀ (start s' : Dtls13.Server) (calls : List Dtls13.Server.Call), start.Start →
      Meets Dtls13.Server.exec Dtls13.Server.Forward start calls →
      Drained (Dtls13.Server.pollOutput bufLen) (run Dtls13.Server.exec start calls) t s' →
      let s := run Dtls13.Server.exec start calls
      s.engine.Outstanding → (t ≤ s.endpoint.lastNow + s.engine.flightBackoff.rto ↔
        s.engine.Timely s.endpoint.lastNow)) ∧
    (∀ (start c' : Dtls12.Client) (calls : List Dtls12.Client.Call), start.Start →
      Meets Dtls12.Client.exec Dtls12.Client.Forward start calls →
      Drained (Dtls12.Client.pollOutput bufLen) (run Dtls12.Client.exec start calls) t c' →
      let c := run Dtls12.Client.exec start calls
      c.engine.Outstanding → (t ≤ c.lastNow + c.engine.flightBackoff.rto ↔
        c.engine.Timely c.lastNow)) ∧
    (∀ (start s' : Dtls12.Server) (calls : List Dtls12.Server.Call), start.Start →
      Meets Dtls12.Server.exec Dtls12.Server.Forward start calls →
      Drained (Dtls12.Server.pollOutput bufLen) (run Dtls12.Server.exec start calls) t s' →
      let s := run Dtls12.Server.exec start calls
      s.engine.Outstanding → (t ≤ s.lastNow + s.engine.flightBackoff.rto ↔
        s.engine.Timely s.lastNow)) := by
  refine ⟨fun start c' calls isStart forward drained => ?_, fun start s' calls isStart forward drained => ?_,
    fun start c' calls isStart forward drained => ?_, fun start s' calls isStart forward drained => ?_⟩
  · have paced := Dtls13.Client.run_paced isStart forward
    intro c _
    rw [Dtls13.drained_wakeup (Dtls13.Client.drained_engine drained)]
    exact Dtls13.Engine.wakeup_le_iff paced
  · have paced := Dtls13.Server.run_paced isStart forward
    intro s _
    rw [Dtls13.drained_wakeup (Dtls13.Server.drained_engine drained)]
    exact Dtls13.Engine.wakeup_le_iff paced
  · have paced := Dtls12.Client.run_paced isStart forward
    intro c outstanding
    rw [Dtls12.drained_timeout (Dtls12.Client.drained_engine drained)]
    exact Dtls12.Engine.pollTimeout_le_iff paced outstanding.2
  · have paced := Dtls12.Server.run_paced isStart forward
    intro s outstanding
    rw [Dtls12.drained_timeout (Dtls12.Server.drained_engine drained)]
    exact Dtls12.Engine.pollTimeout_le_iff paced outstanding.2

/-- A client that is called for the first time, at time 0, sends its hello. -/
def Dtls13.Client.greeting : Client :=
  run Client.exec (Exchange.sample { Sample.config with mtu := 150 } Sample.certificate).client
    [.handleTimeout 0]

/-- That client asks to be called again at the end of the handshake only. -/
theorem not_retransmission_timely :
    ∃ (start c c' : Dtls13.Client) (calls : List Dtls13.Client.Call) (t : Instant), start.Start ∧
      Meets Dtls13.Client.exec Dtls13.Client.Forward start calls ∧
      c = run Dtls13.Client.exec start calls ∧ Drained (Dtls13.Client.pollOutput 2000) c t c' ∧
      c.engine.Outstanding ∧ ¬t ≤ c.endpoint.lastNow + c.engine.flightBackoff.rto := by
  have late : (drain? (Dtls13.Client.pollOutput 2000) 2 Dtls13.Client.greeting).map Prod.fst =
      some 40000000000 := by
    decide +kernel
  have facts : Dtls13.Client.greeting.engine.flightSavedRecords.length = 1 ∧
      Dtls13.Client.greeting.engine.flightTimeout = .unarmed ∧
      Dtls13.Client.greeting.endpoint.lastNow + Dtls13.Client.greeting.engine.flightBackoff.rto <
        40000000000 := by
    decide +kernel
  obtain ⟨c', drained⟩ := exists_drained late
  refine ⟨_, Dtls13.Client.greeting, c', [.handleTimeout 0], _, Dtls13.Exchange.sample_start.1,
    ⟨fun now isNow => ?_, trivial⟩, rfl, drained, ⟨fun empty => ?_, fun disabled => ?_⟩,
    Nat.not_le.mpr facts.2.2⟩
  · exact Nat.zero_le now
  · have saved := facts.1
    rw [empty] at saved
    cases saved
  · cases disabled.symm.trans facts.2.1

end Dimpl
