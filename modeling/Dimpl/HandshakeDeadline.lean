import Dimpl.Dtls12.ClientInv
import Dimpl.Dtls12.ServerInv
import Dimpl.Dtls13.ClientInv
import Dimpl.Dtls13.Exchange
import Dimpl.Dtls13.ServerInv

/-!
# The handshake deadline

A handshake that does not end fails with the connect timeout, one period after a
timeout call at the latest. A DTLS 1.3 server stops both timers when it reads the
client's Certificate; from then on nothing ends its handshake.
-/

namespace Dimpl

open Nom Program

section Passed

variable {deadline now : Instant}

/-- A passed deadline is what a timeout call of the engine reports. -/
theorem Dtls12.handleTimeout_due {e : Dtls12.Engine} (armed : e.connectTimeout = .armed deadline)
    (passed : deadline ≤ now) :
    Post (Dtls12.Engine.handleTimeout now) e (fun _ _ => False)
      (fun fault _ => fault = .fatal (.timeout .connect)) := by
  have same : (e.armTimers now).connectTimeout = .armed deadline := by
    simp [Dtls12.Engine.armTimers, armed]
  unfold Dtls12.Engine.handleTimeout
  rw [post_bind, post_modify, post_bind, post_get, post_ite]
  refine ⟨fun _ => rfl, fun early => absurd ?_ early⟩
  rw [same]
  exact decide_eq_true passed

theorem Dtls13.handleTimeout_due {e : Dtls13.Engine} (armed : e.connectTimeout = .armed deadline)
    (passed : deadline ≤ now) :
    Post (Dtls13.Engine.handleTimeout now) e (fun _ _ => False)
      (fun fault _ => fault = .fatal (.timeout .connect)) := by
  have same : (e.armTimers now).connectTimeout = .armed deadline := by
    simp [Dtls13.Engine.armTimers, armed]
  unfold Dtls13.Engine.handleTimeout
  rw [post_bind, post_modify, post_bind, post_get, post_ite]
  refine ⟨fun _ => rfl, fun early => absurd ?_ early⟩
  rw [same]
  exact decide_eq_true passed

end Passed

namespace Dtls12

/-- A client with its deadline. -/
def Client.timed : Timed Client Client.Call where
  start := Client.Start
  exec := Client.exec
  tick := Client.Call.tick
  handleTimeout := Client.handleTimeout
  period := fun c => c.engine.config.handshakeTimeout
  timer := fun c => c.engine.connectTimeout

/-- A server with its deadline. -/
def Server.timed : Timed Server Server.Call where
  start := Server.Start
  exec := Server.exec
  tick := Server.Call.tick
  handleTimeout := Server.handleTimeout
  period := fun s => s.engine.config.handshakeTimeout
  timer := fun s => s.engine.connectTimeout

section Reports

variable {deadline now : Instant}

/-- Drawing the random cannot fail and leaves the deadline alone. -/
theorem Client.initRandom_deadline {c : Client} :
    Post (Client.initRandom now) c
      (fun _ c' => c'.engine.connectTimeout = c.engine.connectTimeout) (fun _ _ => False) := by
  unfold Client.initRandom
  rw [post_bind, post_get]
  split
  · rfl
  · unfold Client.withEngine newRandom randomArr
    simp only [post_bind, post_zoom, post_get, post_set, post_pure, post_modify]

theorem Client.reports_deadline {c : Client} (armed : c.engine.connectTimeout = .armed deadline)
    (passed : deadline ≤ now) :
    error? (Client.handleTimeout now) c = some (.fatal (.timeout .connect)) := by
  apply error_of_post
  unfold Client.handleTimeout
  rw [post_bind, post_modify, post_bind]
  refine Client.initRandom_deadline.mono (fun _ c' same => ?_) fun _ _ never => never.elim
  unfold Client.withEngine
  rw [post_bind, post_zoom]
  exact (handleTimeout_due (same.trans armed) passed).mono (fun _ _ never => never.elim)
    fun _ _ fault => fault

/-- Drawing the random cannot fail and leaves the deadline alone. -/
theorem Server.initRandom_deadline {s : Server} :
    Post (Server.initRandom now) s
      (fun _ s' => s'.engine.connectTimeout = s.engine.connectTimeout) (fun _ _ => False) := by
  unfold Server.initRandom
  rw [post_bind, post_get]
  split
  · rfl
  · unfold Server.withEngine newRandom randomArr
    simp only [post_bind, post_zoom, post_get, post_set, post_pure, post_modify]

theorem Server.reports_deadline {s : Server} (armed : s.engine.connectTimeout = .armed deadline)
    (passed : deadline ≤ now) :
    error? (Server.handleTimeout now) s = some (.fatal (.timeout .connect)) := by
  apply error_of_post
  unfold Server.handleTimeout
  rw [post_bind, post_modify, post_bind]
  refine Server.initRandom_deadline.mono (fun _ s' same => ?_) fun _ _ never => never.elim
  unfold Server.withEngine
  rw [post_bind, post_zoom]
  exact (handleTimeout_due (same.trans armed) passed).mono (fun _ _ never => never.elim)
    fun _ _ fault => fault

end Reports

/-- The deadline of a client covers its handshake. -/
theorem Client.deadline_covers : Client.timed.Covers fun c => c.state.inHandshake = true :=
  Timed.covers Client.Inv (fun isStart promised => isStart.inv promised)
    (fun inv arms => Client.exec_inv inv arms)
    (fun inv isWaiting => inv.deadline isWaiting)
    (fun armed passed => Client.reports_deadline armed passed)

/-- The deadline of a server covers its handshake. -/
theorem Server.deadline_covers : Server.timed.Covers fun s => s.state.inHandshake = true :=
  Timed.covers Server.Inv (fun isStart promised => isStart.inv promised)
    (fun inv arms => Server.exec_inv inv arms)
    (fun inv isWaiting => inv.deadline isWaiting)
    (fun armed passed => Server.reports_deadline armed passed)

end Dtls12

namespace Dtls13

/-- A client with its deadline. -/
def Client.timed : Timed Client Client.Call where
  start := Client.Start
  exec := Client.exec
  tick := Client.Call.tick
  handleTimeout := Client.handleTimeout
  period := fun c => c.engine.config.handshakeTimeout
  timer := fun c => c.engine.connectTimeout

/-- A server with its deadline. -/
def Server.timed : Timed Server Server.Call where
  start := Server.Start
  exec := Server.exec
  tick := Server.Call.tick
  handleTimeout := Server.handleTimeout
  period := fun s => s.engine.config.handshakeTimeout
  timer := fun s => s.engine.connectTimeout

section Reports

variable {deadline now : Instant}

/-- Drawing the random cannot fail, so a passed deadline is reported. -/
theorem Endpoint.handleTimeout_due {p : Endpoint} (armed : p.engine.connectTimeout = .armed deadline)
    (passed : deadline ≤ now) :
    Post (Endpoint.handleTimeout now) p (fun _ _ => False)
      (fun fault _ => fault = .fatal (.timeout .connect)) := by
  unfold Endpoint.handleTimeout
  rw [post_bind, post_modify, post_bind]
  have drawn : Post Endpoint.initRandom { p with lastNow := now }
      (fun _ p' => Endures False False { p with lastNow := now } p') (fun _ _ => False) :=
    Endpoint.initRandom_endures
  refine drawn.mono (fun _ p' endures => ?_) fun _ _ never => never.elim
  unfold Endpoint.withEngine
  rw [post_zoom]
  exact Dtls13.handleTimeout_due (endures.engine.deadline.trans armed) passed

theorem Client.reports_deadline {c : Client} (armed : c.engine.connectTimeout = .armed deadline)
    (passed : deadline ≤ now) :
    error? (Client.handleTimeout now) c = some (.fatal (.timeout .connect)) := by
  apply error_of_post
  unfold Client.handleTimeout Client.withEndpoint
  rw [post_bind, post_zoom]
  exact (Endpoint.handleTimeout_due armed passed).mono (fun _ _ never => never.elim)
    fun _ _ fault => fault

theorem Server.reports_deadline {s : Server} (armed : s.engine.connectTimeout = .armed deadline)
    (passed : deadline ≤ now) :
    error? (Server.handleTimeout now) s = some (.fatal (.timeout .connect)) := by
  apply error_of_post
  unfold Server.handleTimeout Server.withEndpoint
  rw [post_bind, post_zoom]
  exact (Endpoint.handleTimeout_due armed passed).mono (fun _ _ never => never.elim)
    fun _ _ fault => fault

end Reports

/-- The deadline of a client covers its handshake. -/
theorem Client.deadline_covers : Client.timed.Covers fun c => c.state.inHandshake = true :=
  Timed.covers Client.Inv (fun isStart promised => isStart.inv promised)
    (fun inv arms => Client.exec_inv inv arms)
    (fun inv isWaiting => inv.deadline isWaiting)
    (fun armed passed => Client.reports_deadline armed passed)

/-- The deadline of a server covers its handshake up to the client's Certificate. -/
theorem Server.deadline_covers :
    Server.timed.Covers fun s => s.state.waits s.endpoint.clientAuthRequested = true :=
  Timed.covers Server.Inv (fun isStart promised => isStart.inv promised)
    (fun inv arms => Server.exec_inv inv arms)
    (fun inv isWaiting => inv.deadline isWaiting)
    (fun armed passed => Server.reports_deadline armed passed)

end Dtls13

/-- The deadline covers every handshake of a client and of a DTLS 1.2 server. A DTLS
1.3 server in a handshake has its deadline exactly until it has read the Certificate
it asked for, and up to then it is covered as well. -/
theorem handshake_deadline (s : Dtls13.Server) :
    (Dtls12.Client.timed.Covers fun c => c.state.inHandshake = true) ∧
      (Dtls12.Server.timed.Covers fun s => s.state.inHandshake = true) ∧
      (Dtls13.Client.timed.Covers fun c => c.state.inHandshake = true) ∧
      (Dtls13.Server.timed.Covers fun s => s.state.inHandshake = true ∧
        s.state.stopped s.endpoint.clientAuthRequested = false) ∧
      (s.Reached → s.state.inHandshake = true →
        (s.engine.connectTimeout ≠ .disabled ↔
          s.state.stopped s.endpoint.clientAuthRequested = false)) := by
  have server := Dtls13.Server.deadline_covers
  have waits : ∀ s : Dtls13.Server, s.state.inHandshake = true →
      s.state.stopped s.endpoint.clientAuthRequested = false →
      s.state.waits s.endpoint.clientAuthRequested = true := by
    intro s inHandshake running
    simp [Dtls13.Server.State.waits, inHandshake, running]
  refine ⟨Dtls12.Client.deadline_covers, Dtls12.Server.deadline_covers,
    Dtls13.Client.deadline_covers, ?_, fun reached inHandshake => ⟨fun set => ?_, fun running => ?_⟩⟩
  · exact
      { set := fun start calls isStart both => server.set start calls isStart (waits _ both.1 both.2)
        fails := fun start before call after startedAt now isStart ticks ordered both =>
          server.fails start before call after startedAt now isStart ticks ordered
            (waits _ both.1 both.2) }
  · by_contra stopped
    refine set (Dtls13.Server.Has.calm reached.inv ?_)
    simp only [Bool.not_eq_false] at stopped
    simp [Dtls13.Server.State.waits, stopped]
  · exact Dtls13.Server.Has.deadline reached.inv (waits s inHandshake running)

/-- A server that asks for a certificate, after the first datagram of the client's last
flight: its Certificate and its CertificateVerify. The second datagram, with the
Finished, is lost. -/
def Dtls13.Exchange.withoutFinished : Dtls13.Exchange :=
  run Dtls13.Exchange.exec
    (Dtls13.Exchange.sample { Sample.config with requireClientCertificate := true, mtu := 150 }
      Sample.certificate)
    (Dtls13.Exchange.flights ++ [.toServer 1])

/-- The handshake of that server goes on without a deadline: a timeout call ten
periods after the first one succeeds. -/
theorem not_handshake_deadline :
    ∃ s : Dtls13.Server, s.Reached ∧ s.state.inHandshake = true ∧
      s.engine.connectTimeout = .disabled ∧
      error? (Dtls13.Server.handleTimeout (10 * s.engine.config.handshakeTimeout)) s = none := by
  have reached : Dtls13.Exchange.withoutFinished.Reached :=
    ⟨_, _, Dtls13.Exchange.sample_start, rfl⟩
  refine ⟨_, reached.server, ?_⟩
  decide +kernel

end Dimpl
