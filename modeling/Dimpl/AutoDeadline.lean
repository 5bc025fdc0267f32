import Dimpl.AutoRun
import Dimpl.AutoSafety
import Dimpl.Dtls13.Timing
import Dimpl.HandshakeDeadline

/-!
# The handshake deadline of an auto-sensing instance

A client that waits for the version knows nothing of the handshake timeout: it sends its
hello again until its retries are used up. The endpoint that replaces it, or that a server
falls back to, arms a deadline of its own at the time of the last timeout call.
-/

namespace Dimpl

open Nom Program

namespace ClientPending

/-- The retries are used up, and the last one is due. -/
def Exhausted (now : Instant) (pending : ClientPending) : Prop :=
  pending.config.flightRetries ≤ pending.retransmitCount ∧ ∃ due ∈ pending.retransmitAt, due ≤ now

/-- A client that waits reports a timeout when its retries are used up, and not before. -/
theorem reports_iff {pending : ClientPending} {now : Instant} :
    (∃ reason, error? (handleTimeout now) pending = some (.fatal (.timeout reason))) ↔
      pending.Exhausted now := by
  unfold Exhausted error? handleTimeout
  simp only [bind, EStateM.bind, run_modify, run_get]
  cases pending.retransmitAt with
  | none => simp [run_set]
  | some deadline =>
      dsimp only
      by_cases isDue : now ≥ deadline
      · by_cases used : pending.retransmitCount ≥ pending.config.flightRetries
        · simp [isDue, used, run_throw]
        · simp [isDue, used, run_set]
      · simp [isDue, pure, EStateM.pure]

end ClientPending

namespace Dtls

/-- A datagram that ends the waiting finds the last timeout call not after a time. -/
def ForksBy (time : Instant) (d : Dtls) (call : Auto.Call) : Prop :=
  ∀ pending rng entropy packet, d.inner = some (.clientPending pending) →
    call = .handlePacket rng entropy packet → Auto.serverHelloVersion packet ≠ .ok .unknown →
    pending.lastNow ≤ time

/-- The instance is in a handshake that a timeout call at a time has to end: it waits with
its retries used up, or it has settled on a version. -/
def Waits (now : Instant) (d : Dtls) : Prop :=
  match d.inner with
  | none => False
  | some (.clientPending pending) => pending.Exhausted now
  | some (.client12 c) => c.state.inHandshake = true
  | some (.client13 c) => c.state.inHandshake = true

/-- The handshake timeout of an instance. -/
def period (d : Dtls) : Duration :=
  match d.inner with
  | none => 0
  | some (.clientPending pending) => pending.config.handshakeTimeout
  | some (.client12 c) => c.engine.config.handshakeTimeout
  | some (.client13 c) => c.engine.config.handshakeTimeout

/-- The invariant of the client inside. -/
def Inv (due : Promise) (d : Dtls) : Prop :=
  match d.inner with
  | some (.client12 c) => c.Inv due
  | some (.client13 c) => c.Inv due
  | _ => True

section Runs

variable {due due' : Promise} {d : Dtls} {time now : Instant}

theorem Start.inv (start : Start d) (promised : ∀ period, due period .unarmed) : Inv due d := by
  cases start with
  | pending => exact trivial
  | psk config rng rng' entropy now => exact Dtls12.Client.Start.inv (.fresh ..) (promised _)

/-- A client that is built keeps what is allowed of its deadline. -/
theorem install_inv {σ : Type} {wrap : σ → Inner} {construct handle : EStateM Fault σ Unit}
    {initial : σ} {P : σ → Prop} (holds : ∀ s, P s → Inv due (holding (wrap s)))
    (built : Post construct initial (fun _ s => P s) fun _ _ => True)
    (handles : ∀ s, P s → Post handle s (fun _ s' => P s') fun _ s' => P s') :
    Inv due (finalState (install wrap construct handle initial) { inner := none }) := by
  unfold finalState install
  unfold Post at built
  cases ran : construct initial with
  | error fault s => exact trivial
  | ok value s =>
      rw [ran] at built
      have kept := handles s built
      unfold Post at kept
      dsimp only
      cases outcome : handle s with
      | ok value s' =>
          rw [outcome] at kept
          exact holds s' kept
      | error fault s' =>
          rw [outcome] at kept
          cases fault with
          | panic site => exact trivial
          | _ => exact holds s' kept

/-- A datagram for a client that waits: it goes on waiting, or the client that replaces it
has armed its deadline at the last timeout call. -/
theorem handlePacket_pending {pending : ClientPending} {rng entropy : SeededRng} {packet : Bytes}
    (allows : Promise.Allows time due)
    (early : Auto.serverHelloVersion packet ≠ .ok .unknown → pending.lastNow ≤ time) :
    Inv due (finalState (handlePacket rng entropy packet) (holding (.clientPending pending))) := by
  show Inv due (finalState (handlePendingAutoClient rng entropy packet) pending.instance_)
  cases isVersion : Auto.serverHelloVersion packet with
  | error site =>
      unfold handlePendingAutoClient
      rw [isVersion]
      exact trivial
  | ok version =>
      cases version with
      | unknown =>
          unfold handlePendingAutoClient
          rw [isVersion]
          exact trivial
      | dtls12 =>
          have arms := allows.arms (early (by simp [isVersion]))
          unfold finalState
          rw [ClientPending.handle_dtls12 isVersion]
          refine @install_inv due _ _ _ _ _ (Dtls12.Client.Inv due) (fun _ inv => inv) ?_
            fun _ inv => Dtls12.Client.handlePacket_inv inv
          unfold Dtls12.Client.beginHybrid
          rw [post_ite]
          refine ⟨fun _ => trivial, fun _ => ?_⟩
          refine (Dtls12.Client.handleTimeout_inv (Dtls12.Client.Start.inv (.hybrid ..) rfl) arms).mono
            (fun _ _ inv => inv) fun _ _ _ => trivial
      | dtls13 =>
          have arms := allows.arms (early (by simp [isVersion]))
          unfold finalState
          rw [ClientPending.handle_dtls13 isVersion]
          refine @install_inv due _ _ _ _ _ (Dtls13.Client.Inv due) (fun _ inv => inv) ?_
            fun _ inv => Dtls13.Client.handlePacket_inv inv
          exact (Dtls13.Client.handleTimeout_inv (Dtls13.Client.Start.inv (.hybrid ..) rfl) arms).mono
            (fun _ _ inv => inv) fun _ _ _ => trivial

/-- A call keeps the invariant of the client inside. -/
theorem exec_inv {call : Auto.Call} (inv : Inv due d) (forks : d.ForksBy time call)
    (allows : Promise.Allows time due') (arms : Promise.Arms call.tick due due') :
    Inv due' (d.exec call) := by
  obtain ⟨inner⟩ := d
  cases inner with
  | none =>
      rw [exec_lost rfl]
      exact trivial
  | some inner =>
      cases inner with
      | client12 c =>
          show Inv due' ((holding (.client12 c)).exec call)
          rw [exec_client12]
          exact Dtls12.Client.exec_inv inv (Auto.Call.tick_client12 ▸ arms)
      | client13 c =>
          show Inv due' ((holding (.client13 c)).exec call)
          rw [exec_client13]
          exact Dtls13.Client.exec_inv inv (Auto.Call.tick_client13 ▸ arms)
      | clientPending pending =>
          cases call with
          | handlePacket rng entropy packet =>
              exact handlePacket_pending allows (forks pending rng entropy packet rfl rfl)
          | handleTimeout now =>
              have ran : exec ⟨some (.clientPending pending)⟩ (.handleTimeout now) =
                  holding (.clientPending (finalState (ClientPending.handleTimeout now) pending)) :=
                finalState_through (holding (.clientPending pending))
              rw [ran]
              exact trivial
          | pollOutput bufLen =>
              refine post_state.mp (post_bind.mpr ?_)
              show Post (through (holding ∘ .clientPending) _ pending) (holding (.clientPending pending)) _ _
              rw [post_through]
              exact post_state.mpr trivial
          | sendApplicationData data => exact trivial
          | close => exact trivial

/-- What a timeout call reports. -/
theorem reports_timeout (inv : Inv (Promise.dueBy time) d) (waits : d.Waits now)
    (late : time + d.period ≤ now) :
    ∃ reason, error? (handleTimeout now) d = some (.fatal (.timeout reason)) := by
  obtain ⟨inner⟩ := d
  cases inner with
  | none => exact waits.elim
  | some inner =>
      cases inner with
      | client12 c =>
          obtain ⟨deadline, early, armed⟩ := inv.deadline waits
          refine ⟨.connect, ?_⟩
          rw [← Dtls12.Client.reports_deadline armed (Nat.le_trans early late)]
          exact error_through (holding (.client12 c))
      | client13 c =>
          obtain ⟨deadline, early, armed⟩ := Dtls13.Client.Has.deadline inv waits
          refine ⟨.connect, ?_⟩
          rw [← Dtls13.Client.reports_deadline armed (Nat.le_trans early late)]
          exact error_through (holding (.client13 c))
      | clientPending pending =>
          obtain ⟨reason, reported⟩ := ClientPending.reports_iff.mpr waits
          exact ⟨reason, (error_through (holding (.clientPending pending))).trans reported⟩

end Runs

end Dtls

namespace DtlsServer

/-- A datagram that makes the server fall back finds the last timeout call not after a time. -/
def ForksBy (time : Instant) (d : DtlsServer) (call : Auto.Call) : Prop :=
  ∀ s rng entropy packet s', d.inner = some (.server13 s) →
    call = .handlePacket rng entropy packet →
    Dtls13.Server.handlePacket packet s = .error (.fatal .dtls12Fallback) s' →
    s.endpoint.lastNow ≤ time

/-- The instance is in a handshake that has its deadline. -/
def Waits (d : DtlsServer) : Prop :=
  match d.inner with
  | none => False
  | some (.server12 s) => s.state.inHandshake = true
  | some (.server13 s) =>
    s.state.inHandshake = true ∧ s.state.stopped s.endpoint.clientAuthRequested = false

/-- The handshake timeout of an instance. -/
def period (d : DtlsServer) : Duration :=
  match d.inner with
  | none => 0
  | some (.server12 s) => s.engine.config.handshakeTimeout
  | some (.server13 s) => s.engine.config.handshakeTimeout

/-- The invariant of the server inside. -/
def Inv (due : Promise) (d : DtlsServer) : Prop :=
  match d.inner with
  | none => True
  | some (.server12 s) => s.Inv due
  | some (.server13 s) => s.Inv due

section Runs

variable {due due' : Promise} {d : DtlsServer} {time now : Instant}

theorem Start.inv (start : Start d) (promised : ∀ period, due period .unarmed) : Inv due d := by
  cases start with
  | sensing config certificate rng entropy now =>
      exact Dtls13.Server.Start.inv (.fresh config certificate rng _ entropy now true) (promised _)
  | psk config rng entropy now =>
      exact Dtls12.Server.Start.inv (.fresh config .psk rng _ entropy now) (promised _)

/-- The server of a fallback is a new one. -/
theorem newServer12_start {config : Config} {certificate : DtlsCertificate} {psk : Bool}
    {rng entropy : SeededRng} {server : Dtls12.Server}
    (built : newServer12 config certificate psk rng entropy now = .ok server) : server.Start := by
  unfold newServer12 at built
  split_ifs at built
  · cases built
    exact .fresh config .psk rng _ entropy now
  · cases built
    exact .fresh config (.certificate certificate) rng _ entropy now

theorem replay_inv {buffered : List Bytes} {s : Dtls12.Server} (inv : s.Inv due) :
    Post (replay buffered) s (fun _ s' => s'.Inv due) fun _ s' => s'.Inv due := by
  induction buffered generalizing s with
  | nil => exact inv
  | cons packet rest inductionHypothesis =>
      unfold replay
      rw [post_bind]
      exact (Dtls12.Server.handlePacket_inv inv).mono (fun _ _ kept => inductionHypothesis kept)
        fun _ _ kept => kept

/-- The server that is fallen back to has armed its deadline at the last timeout call. -/
theorem handlePendingAutoServer_inv {rng entropy : SeededRng} {server : Dtls13.Server}
    (allows : Promise.Allows time due) (early : server.endpoint.lastNow ≤ time) :
    Inv due (finalState (handlePendingAutoServer rng entropy server) d) := by
  apply post_state.mp
  unfold handlePendingAutoServer
  rw [post_bind, post_set]
  dsimp only
  split
  · exact trivial
  · rename_i server12 built
    have ticked := Dtls12.Server.handleTimeout_inv
      (Dtls12.Server.Start.inv (newServer12_start built) rfl) (allows.arms early)
    unfold Post at ticked
    split
    · exact trivial
    · rename_i server12' isOk
      rw [isOk] at ticked
      rw [post_through]
      exact replay_inv ticked

/-- A datagram for the server of DTLS 1.3. -/
theorem handlePacket_sensing {rng entropy : SeededRng} {packet : Bytes} {s : Dtls13.Server}
    (inv : s.Inv due) (allows : Promise.Allows time due)
    (early : ∀ s', Dtls13.Server.handlePacket packet s = .error (.fatal .dtls12Fallback) s' →
      s.endpoint.lastNow ≤ time) :
    Inv due (finalState (handlePacket rng entropy packet) (holding (.server13 s))) := by
  have kept := @Dtls13.Server.handlePacket_inv due s packet inv
  have stands : (finalState (Dtls13.Server.handlePacket packet) s).endpoint.lastNow = s.endpoint.lastNow :=
    ((Dtls13.Server.call_conduct Dtls13.relaxes_conducts
      (rfl : (Dtls13.Server.Call.handlePacket packet).tick = none)).finalState s).1
  unfold Post at kept
  unfold finalState at stands
  apply post_state.mp
  unfold handlePacket
  rw [post_bind, post_get]
  dsimp only [holding]
  split
  · rename_i s' ran
    rw [ran] at kept
    exact kept
  · rename_i fault s' ran
    rw [ran] at kept stands
    rw [post_bind, post_set, post_ite]
    refine ⟨fun falls => post_state.mpr ?_, fun _ => kept⟩
    simp only [Bool.and_eq_true, decide_eq_true_eq] at falls
    rw [falls.2] at ran
    exact handlePendingAutoServer_inv allows (stands ▸ early s' ran)

/-- A call keeps the invariant of the server inside. -/
theorem exec_inv {call : Auto.Call} (inv : Inv due d) (forks : d.ForksBy time call)
    (allows : Promise.Allows time due') (arms : Promise.Arms call.tick due due') :
    Inv due' (d.exec call) := by
  obtain ⟨inner⟩ := d
  cases inner with
  | none =>
      rw [exec_lost rfl]
      exact trivial
  | some inner =>
      cases inner with
      | server12 s =>
          show Inv due' ((holding (.server12 s)).exec call)
          rw [exec_server12]
          exact Dtls12.Server.exec_inv inv (Auto.Call.tick_server12 ▸ arms)
      | server13 s =>
          have called : s.Inv due → (s.exec call.onServer13).Inv due' := fun inv =>
            Dtls13.Server.exec_inv inv (Auto.Call.tick_server13 ▸ arms)
          have later : call.tick = none → s.Inv due' := fun unticked =>
            Dtls13.Server.Has.promise inv fun period timer promised => by
              have armed := arms period timer promised
              rwa [unticked, Timeout.arm_none] at armed
          cases call with
          | handlePacket rng entropy packet =>
              exact handlePacket_sensing (later rfl) allows fun s' ran =>
                forks s rng entropy packet s' rfl rfl ran
          | handleTimeout now =>
              have ran : exec ⟨some (.server13 s)⟩ (.handleTimeout now) =
                  holding (.server13 (s.exec (.handleTimeout now))) :=
                finalState_through (holding (.server13 s))
              rw [ran]
              exact called inv
          | pollOutput bufLen =>
              refine post_state.mp (post_bind.mpr ?_)
              show Post (through (holding ∘ .server13) _ s) (holding (.server13 s)) _ _
              rw [post_through]
              exact Dtls13.Server.pollOutput_inv (later rfl)
          | sendApplicationData data =>
              refine post_state.mp ?_
              show Post (if s.autoMode then throw _ else through (holding ∘ .server13) _ s)
                (holding (.server13 s)) _ _
              rw [post_ite, post_through]
              exact ⟨fun _ => later rfl, fun _ => Dtls13.Server.sendApplicationData_inv (later rfl)⟩
          | close =>
              refine post_state.mp ?_
              show Post (if s.autoMode then throw _ else through (holding ∘ .server13) _ s)
                (holding (.server13 s)) _ _
              rw [post_ite, post_through]
              exact ⟨fun _ => later rfl, fun _ => Dtls13.Server.close_inv (later rfl)⟩

/-- What a timeout call reports. -/
theorem reports_timeout (inv : Inv (Promise.dueBy time) d) (waits : d.Waits)
    (late : time + d.period ≤ now) :
    error? (handleTimeout now) d = some (.fatal (.timeout .connect)) := by
  obtain ⟨inner⟩ := d
  cases inner with
  | none => exact waits.elim
  | some inner =>
      cases inner with
      | server12 s =>
          obtain ⟨deadline, early, armed⟩ := inv.deadline waits
          rw [← Dtls12.Server.reports_deadline armed (Nat.le_trans early late)]
          exact error_through (holding (.server12 s))
      | server13 s =>
          have isWaiting : s.state.waits s.endpoint.clientAuthRequested = true := by
            simp [Dtls13.Server.State.waits, waits.1, waits.2]
          obtain ⟨deadline, early, armed⟩ := Dtls13.Server.Has.deadline inv isWaiting
          rw [← Dtls13.Server.reports_deadline armed (Nat.le_trans early late)]
          exact error_through (holding (.server13 s))

end Runs

end DtlsServer

/-- In every run of an auto-sensing instance whose timeout calls before the version was
settled were not after the first one, the deadline covers the handshake. It does not cover a
client that waits for the version with retries left, nor an instance that was lost when its
endpoint could not be built, nor a server of DTLS 1.3 that has stopped its timers. -/
theorem auto_deadline (client : Dtls) (server : DtlsServer) (before after : List Auto.Call)
    (call : Auto.Call) (startedAt now : Instant) :
    (client.Start → call.tick = some startedAt →
      (∀ earlier ∈ before, ∀ time ∈ earlier.tick, time ≤ startedAt) →
      Meets Dtls.exec (Dtls.ForksBy startedAt) client (before ++ call :: after) →
      (run Dtls.exec client (before ++ call :: after)).Waits now →
      startedAt + (run Dtls.exec client (before ++ call :: after)).period ≤ now →
      ∃ reason, error? (Dtls.handleTimeout now) (run Dtls.exec client (before ++ call :: after)) =
        some (.fatal (.timeout reason))) ∧
    (server.Start → call.tick = some startedAt →
      (∀ earlier ∈ before, ∀ time ∈ earlier.tick, time ≤ startedAt) →
      Meets DtlsServer.exec (DtlsServer.ForksBy startedAt) server (before ++ call :: after) →
      (run DtlsServer.exec server (before ++ call :: after)).Waits →
      startedAt + (run DtlsServer.exec server (before ++ call :: after)).period ≤ now →
      ∃ reason, error? (DtlsServer.handleTimeout now)
        (run DtlsServer.exec server (before ++ call :: after)) = some (.fatal (.timeout reason))) := by
  refine ⟨fun start ticks ordered forks waits late => ?_, fun start ticks ordered forks waits late => ?_⟩
  · have preserved : ∀ {d call} {due due' : Promise}, Dtls.Inv due d → Dtls.ForksBy startedAt d call →
        Promise.Allows startedAt due' → Promise.Arms (Auto.Call.tick call) due due' →
        Dtls.Inv due' (Dtls.exec d call) := Dtls.exec_inv
    have inv := Promise.run_due preserved (start.inv fun _ => .inl rfl) ticks ordered forks
    exact Dtls.reports_timeout inv waits late
  · have preserved : ∀ {d call} {due due' : Promise}, DtlsServer.Inv due d →
        DtlsServer.ForksBy startedAt d call → Promise.Allows startedAt due' →
        Promise.Arms (Auto.Call.tick call) due due' → DtlsServer.Inv due' (DtlsServer.exec d call) :=
      DtlsServer.exec_inv
    have inv := Promise.run_due preserved (start.inv fun _ => .inl rfl) ticks ordered forks
    exact ⟨.connect, DtlsServer.reports_timeout inv waits late⟩

/-- A client that waits, one handshake timeout after its first timeout call: the next one
succeeds, and the hello is sent again. -/
theorem not_auto_deadline :
    ∃ d : Dtls, d.Start ∧ error? (Dtls.handleTimeout (0 + d.period)) (run Dtls.exec d [.handleTimeout 0]) = none :=
  ⟨_, .pending ClientPending.sample.hybrid [] Sample.config Sample.certificate 0, rfl⟩

end Dimpl
