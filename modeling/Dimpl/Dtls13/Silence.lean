import Dimpl.Drain
import Dimpl.Dtls13.ClientInv
import Dimpl.Dtls13.Conduct
import Dimpl.Dtls13.Engine.Ledger
import Dimpl.Dtls13.Engine.Wakeup
import Dimpl.Dtls13.ServerInv
import Dimpl.Lib.Outputs

/-!
# An aborted connection is silent

A close during the handshake throws away what was still to be sent. What is received later
finds no flight to resend, no timer that runs and no data that may be handed out.
-/

namespace Dimpl.Dtls13

open Nom Program

/-- Nothing is to be sent, no timer runs and application data is kept back. -/
structure Engine.Silent (e : Engine) : Prop where
  packets : e.queueTx = []
  flight : e.flightSavedRecords = []
  resend : e.flightTimeout = .disabled
  connect : e.connectTimeout = .disabled
  data : e.releaseAppData = false

/-- A silent engine stays silent. -/
def Hushes (e e' : Engine) : Prop := e.Silent → e'.Silent

/-- A close that was reported stays reported. -/
def Reports (e e' : Engine) : Prop := e.closeNotifyReported = true → e'.closeNotifyReported = true

section Engines

variable {e : Engine}

instance : Std.Refl Hushes := ⟨fun _ => id⟩

instance : IsTrans Engine Hushes := ⟨fun _ _ _ first second silent => second (first silent)⟩

instance : Std.Refl Reports := ⟨fun _ => id⟩

instance : IsTrans Engine Reports := ⟨fun _ _ _ first second reported => second (first reported)⟩

theorem Engine.abort_silent (data : e.releaseAppData = false) : e.abort.Silent :=
  ⟨rfl, rfl, rfl, rfl, data⟩

/-- An acknowledgement finds no flight. -/
theorem Engine.processAck_hushes {ackData : Bytes} : Hushes e (e.processAck ackData) := by
  have ended : ∀ e : Engine, Hushes e e.endHandshakeFlight := by
    intro e silent
    simp only [Engine.endHandshakeFlight]
    split
    · exact ⟨silent.packets, rfl, rfl, silent.connect, silent.data⟩
    · exact silent
  have forgotten : ∀ e : Engine, Hushes e e.endKeyUpdate := by
    intro e silent
    unfold Engine.endKeyUpdate
    split
    · exact ⟨silent.packets, rfl, rfl, silent.connect, silent.data⟩
    · exact silent
  intro silent
  unfold Engine.processAck
  split
  · exact silent
  · rename_i acked _
    have marked : (e.markAcked acked).Silent :=
      ⟨silent.packets, by simp [Engine.markAcked, silent.flight], silent.resend, silent.connect,
        silent.data⟩
    exact forgotten _ (ended _ marked)

theorem classifyRecords_hushes {records : List Record} : Along Hushes (classifyRecords records) := by
  induction records with
  | nil => exact along_pure
  | cons r rest inductionHypothesis =>
      refine along_bind ?_ fun _ => along_bind inductionHypothesis fun _ => along_pure
      refine along_get_bind fun e => ?_
      have same : Hushes e e := id
      simp only [post_ite, post_pure]
      refine ⟨fun _ => same, fun _ => ⟨fun _ => same, fun _ => ⟨fun _ => ?_, fun _ => ?_⟩⟩⟩
      · rw [post_bind, post_set]
        exact Engine.processAck_hushes
      · refine ⟨fun _ => ?_, fun _ => ⟨fun _ => same, fun _ => same⟩⟩
        cases r.fragment[1]? with
        | none => exact same
        | some description =>
            simp only [post_ite, post_pure, post_throw]
            refine ⟨fun _ => ?_, fun _ => ⟨fun _ => same, fun _ => same⟩⟩
            rw [post_bind, post_set]
            exact fun silent =>
              ⟨silent.packets, silent.flight, silent.resend, silent.connect, silent.data⟩

/-- A duplicate that asks for the flight again gets nothing. -/
theorem flightResend_hushes : Along Hushes flightResend := by
  refine along_get_bind fun e => ?_
  rw [post_bind, post_set]
  by_cases silent : e.Silent
  · rw [silent.flight]
    exact fun _ => ⟨silent.packets, rfl, silent.resend, silent.connect, silent.data⟩
  · exact post_self.mono (fun _ _ _ isSilent => absurd isSilent silent)
      fun _ _ _ isSilent => absurd isSilent silent

theorem insertIncoming_hushes {incoming : Incoming} : Along Hushes (insertIncoming incoming) := by
  have queued : ∀ (e : Engine) numbers queueRx, Hushes e
      { e with receivedRecordNumbers := numbers, queueRx := queueRx } := fun e _ _ silent =>
    ⟨silent.packets, silent.flight, silent.resend, silent.connect, silent.data⟩
  refine along_bind along_get fun e => along_ite (fun _ => along_throw) fun _ => ?_
  split
  · refine along_bind along_get fun e => ?_
    refine along_bind (along_runIf fun _ => flightResend_hushes) fun _ => along_get_bind fun e => ?_
    have same : Hushes e e := id
    dsimp only
    rw [post_ite, post_ite]
    refine ⟨fun _ => same, fun _ => ⟨fun _ => same, fun _ => ?_⟩⟩
    split
    · exact queued e _ _
    · rw [post_ite]
      exact ⟨fun _ => queued e _ _, fun _ => same⟩
  · refine along_get_bind fun e => ?_
    split
    · exact queued e e.receivedRecordNumbers _
    · exact id

theorem receivePacket_hushes {datagram : Bytes} : Along Hushes (receivePacket datagram) := by
  have kept : ∀ e : Engine, e.unopened.Silent ↔ e.Silent := fun e =>
    ⟨fun silent => ⟨silent.packets, silent.flight, silent.resend, silent.connect, silent.data⟩,
      fun silent => ⟨silent.packets, silent.flight, silent.resend, silent.connect, silent.data⟩⟩
  have logged : ∀ e : Engine, Hushes e (e.logEvent (.received datagram)) := fun e silent =>
    ⟨silent.packets, silent.flight, silent.resend, silent.connect, silent.data⟩
  have parsed : Along Hushes (parseRecordsLoop datagram.length datagram []) :=
    parseRecordsLoop_unopened.mono fun e e' same silent => by
      have opened : e'.unopened = e.unopened := same
      rw [← kept, opened, kept]
      exact silent
  refine along_bind (along_modify logged) fun _ => ?_
  refine along_bind (along_bind parsed fun _ => classifyRecords_hushes) fun records => ?_
  split
  · exact along_pure
  · exact insertIncoming_hushes

/-- Without a timer there is nothing to do. -/
theorem handleTimeout_hushes {now : Instant} (silent : e.Silent) :
    Post (Engine.handleTimeout now) e (fun _ e' => e'.Silent) (fun _ e' => e'.Silent) := by
  have resend : (e.armTimers now).flightTimeout = .disabled := by
    simp [Engine.armTimers, silent.resend]
  have connect : (e.armTimers now).connectTimeout = .disabled := by
    simp [Engine.armTimers, silent.connect]
  have armed : (e.armTimers now).Silent := ⟨silent.packets, silent.flight, resend, connect, silent.data⟩
  unfold Engine.handleTimeout
  rw [post_bind, post_modify, post_bind, post_get, connect, resend]
  simpa using armed

theorem Engine.maybeScheduleHandshakeAck_hushes {now : Instant} :
    Hushes e (e.maybeScheduleHandshakeAck now) := by
  intro silent
  rw [Engine.schedule_eq]
  exact ⟨silent.packets, silent.flight, silent.resend, silent.connect, silent.data⟩

/-- A silent engine has at most a close to tell. -/
theorem pollOutput_hushes {bufLen : Nat} {now : Instant} (silent : e.Silent) :
    Post (Engine.pollOutput bufLen now) e (fun output e' => output.carries = false ∧ e'.Silent)
      (fun _ e' => e'.Silent) := by
  unfold Engine.pollOutput
  rw [post_bind, post_modify]
  have purged : e.purgeHandledQueueRx.Silent :=
    ⟨silent.packets, silent.flight, silent.resend, silent.connect, silent.data⟩
  generalize e.purgeHandledQueueRx = e₁ at purged
  unfold pollAppData
  rw [post_bind, post_bind, post_get, purged.data]
  simp only [Bool.not_false, if_true, post_pure]
  rw [post_bind, post_modify]
  have scheduled := @Engine.maybeScheduleHandshakeAck_hushes e₁ now purged
  generalize e₁.maybeScheduleHandshakeAck now = e₂ at scheduled
  unfold pollPacketTx
  rw [post_bind, post_bind, post_get, scheduled.packets]
  simp only [post_pure]
  rw [post_bind, post_get, post_ite]
  refine ⟨fun _ => ?_, fun _ => ⟨rfl, scheduled⟩⟩
  rw [post_bind, post_set]
  exact ⟨rfl, scheduled.packets, scheduled.flight, scheduled.resend, scheduled.connect,
    scheduled.data⟩

end Engines

section Reporting

theorem reports_of_keeps {α : Type} {program : EngineM α} (keeps : Along (Keeps Engine.ledger) program) :
    Along Reports program :=
  keeps.mono fun _ _ same reported => (congrArg Ledger.closeNotifyReported same).trans reported

theorem reports_of_ledger {e e' : Engine} {ledger : Ledger} (moved : e'.ledger = ledger)
    (same : ledger.closeNotifyReported = e.closeNotifyReported) : Reports e e' := fun reported =>
  (congrArg Ledger.closeNotifyReported moved).trans (same.trans reported)

/-- Nothing takes back that a close was reported. -/
theorem reports_conducts : Conducts Reports where
  nextHandshake := reports_of_keeps nextHandshakeWithOptions_ledger
  advance := fun _ => id
  flightBegin := fun _ => id
  flightStop := fun _ => id
  createHandshake := fun readOnly _ => (createHandshake_ledger readOnly).mono
    (fun _ _ moved => reports_of_ledger moved rfl) fun _ _ failed =>
      failed.elim (fun unbuilt => reports_of_ledger unbuilt.2 rfl) fun moved => reports_of_ledger moved rfl
  truncate := fun _ _ => id
  setCipherSuite := fun _ _ => id
  replaceTranscript := reports_of_keeps replaceTranscriptWithMessageHash_ledger
  resetForHelloRetry := fun _ => id
  enablePeerEncryption := reports_of_keeps enablePeerEncryption_ledger
  installHandshakeKeys := reports_of_keeps installHandshakeKeys_ledger
  deriveApplicationSecrets := reports_of_keeps deriveApplicationSecrets_ledger
  installApplicationKeys := fun _ => installApplicationKeys_ledger.mono
    (fun _ _ moved => reports_of_ledger moved rfl) fun _ _ same => reports_of_ledger same rfl
  sendData := reports_of_keeps createCiphertextRecord_ledger
  sendAck := reports_of_keeps sendAck_ledger
  createKeyUpdate := fun _ => createKeyUpdate_ledger.mono
    (fun _ _ moved => reports_of_ledger moved rfl) fun _ _ moved => reports_of_ledger moved rfl
  updateRecvKeys := fun _ => updateRecvKeys_ledger.mono
    (fun _ _ moved => reports_of_ledger moved.1 rfl) fun _ _ failed =>
      failed.elim (fun same => reports_of_ledger same rfl) fun moved => reports_of_ledger moved.2 rfl
  release := fun _ => id
  needsKeyUpdate := fun _ => id
  receivePacket := reports_of_keeps receivePacket_ledger
  pollOutput := fun _ => pollOutput_ledger.mono
    (fun _ _ polled reported => polled.elim (fun kept => reports_of_ledger kept.2 rfl reported)
      fun closes => absurd (closes.2.1.symm.trans reported) Bool.noConfusion)
    fun _ _ same => reports_of_ledger same rfl
  sendAlert := reports_of_keeps createCiphertextRecord_ledger
  cancelFlights := fun _ => id
  abort := fun _ => id

end Reporting

namespace Endpoint

variable {p : Endpoint}

/-- An event tells neither data nor a close. -/
theorem intoOutput_tells {σ : Type} {bufLen : Nat} {peerCerts : List Bytes} {event : LocalEvent} :
    Returns (fun output => output.carries = false ∧ output ≠ .closeNotify)
      (event.intoOutput bufLen peerCerts : EStateM Fault σ Output) := by
  intro s
  cases event with
  | peerCert =>
      cases peerCerts with
      | nil => trivial
      | cons certificate rest =>
          unfold LocalEvent.intoOutput
          dsimp only
          rw [post_ite]
          exact ⟨fun _ => ⟨rfl, Output.noConfusion⟩, fun _ => trivial⟩
  | connected => exact ⟨rfl, Output.noConfusion⟩
  | keyingMaterial material profile => exact ⟨rfl, Output.noConfusion⟩

/-- What is polled is an event or comes from the engine. -/
theorem pollOutput_post {bufLen : Nat} {Q : Output → Engine → Prop} {E : Engine → Prop}
    (events : ∀ output : Output, output.carries = false → output ≠ .closeNotify → Q output p.engine)
    (kept : E p.engine)
    (polls : Post (Engine.pollOutput bufLen p.lastNow) p.engine Q fun _ => E) :
    Post (pollOutput bufLen) p (fun output p' => Q output p'.engine) (fun _ p' => E p'.engine) := by
  unfold pollOutput
  rw [post_bind, post_get]
  split
  · rw [post_bind, post_set]
    refine ((intoOutput_tells _).and (intoOutput_readOnly _)).mono ?_ ?_
    · rintro output _ ⟨⟨notData, notClose⟩, rfl⟩
      exact events output notData notClose
    · rintro _ _ ⟨-, rfl⟩
      exact kept
  · unfold withEngine
    rw [post_zoom]
    exact polls

theorem pollOutput_silent {bufLen : Nat} (silent : p.engine.Silent) :
    Post (pollOutput bufLen) p (fun output p' => output.carries = false ∧ p'.engine.Silent)
      (fun _ p' => p'.engine.Silent) :=
  pollOutput_post (fun _ notData _ => ⟨notData, silent⟩) silent (pollOutput_hushes silent)

theorem pollOutput_closeNotify {bufLen : Nat} :
    Post (pollOutput bufLen) p (fun output p' => output = .closeNotify →
      p.engine.closeNotifyReported = false ∧ p'.engine.closeNotifyReported = true)
      (fun _ _ => True) := by
  refine @pollOutput_post p bufLen (fun output e' => output = .closeNotify →
    p.engine.closeNotifyReported = false ∧ e'.closeNotifyReported = true) (fun _ => True)
    (fun _ _ notClose isClose => absurd isClose notClose) trivial ?_
  refine pollOutput_ledger.mono (fun output e' polled isClose => ?_) fun _ _ _ => trivial
  rcases polled with ⟨notClose, _⟩ | ⟨_, unreported, reported⟩
  · exact absurd isClose notClose
  · exact ⟨unreported, congrArg Ledger.closeNotifyReported reported⟩

theorem handleTimeout_silent {now : Instant} (silent : p.engine.Silent) :
    Post (handleTimeout now) p (fun _ p' => p'.engine.Silent) (fun _ p' => p'.engine.Silent) := by
  have drawn : ∀ p : Endpoint, p.engine.Silent →
      Post initRandom p (fun _ p' => p'.engine.Silent) (fun _ _ => False) := by
    intro p silent
    unfold initRandom
    rw [post_bind, post_get]
    split
    · exact silent
    · unfold withEngine newRandom randomArr
      simp only [post_bind, post_zoom, post_get, post_set, post_pure, post_modify]
      exact ⟨silent.packets, silent.flight, silent.resend, silent.connect, silent.data⟩
  unfold handleTimeout
  rw [post_bind, post_modify, post_bind]
  refine (drawn { p with lastNow := now } silent).mono (fun _ p' silent => ?_) fun _ _ never => never.elim
  unfold withEngine
  rw [post_zoom]
  exact handleTimeout_hushes silent

end Endpoint

namespace Client

/-- What a call hands to the application. -/
def output (c : Client) : Call → Option Output
  | .pollOutput bufLen => value? (Client.pollOutput bufLen) c
  | _ => none

/-- The connection was closed during its handshake. -/
structure Aborted (c : Client) : Prop where
  closed : c.state = .closed
  silent : c.engine.Silent

section Aborting

variable {c : Client}

/-- Closed is where `make_progress` stays. -/
theorem makeProgress_aborted (aborted : Aborted c) :
    Post makeProgress c (fun _ c' => c' = c) (fun _ _ => False) := by
  unfold makeProgress progressLoop
  rw [post_bind, post_get, post_bind, aborted.closed]
  simp [State.makeProgress]

/-- A close during the handshake. -/
theorem close_aborted (reached : c.Reached) (under : c.state.inHandshake = true) :
    Aborted (c.exec .close) := by
  have unreleased : c.engine.releaseAppData = false :=
    Bool.eq_false_of_not_eq_true fun on => reached.inv.unreported under (.inl on)
  simp only [State.inHandshake, ne_eq, Bool.and_eq_true, decide_eq_true_eq] at under
  have closes : Post close c (fun _ c' => Aborted c') (fun _ c' => Aborted c') := by
    unfold close
    rw [post_bind, post_get, if_neg (by tauto), if_pos under.1.1, post_bind, withEngine_post, post_modify, post_modify]
    exact ⟨rfl, Engine.abort_silent unreleased⟩
  exact post_state.mp closes

/-- Nothing ends the silence. -/
theorem exec_aborted (aborted : Aborted c) (call : Call) : Aborted (c.exec call) := by
  have engines : ∀ engine : Engine, engine.Silent →
      Aborted { c with endpoint := { c.endpoint with engine } } := fun _ silent =>
    ⟨aborted.closed, silent⟩
  apply post_state.mp
  cases call with
  | handlePacket packet =>
      unfold Call.program Client.handlePacket
      rw [post_publicResult, post_bind, withEngine_post]
      refine (receivePacket_hushes _).mono (fun _ engine hushed => ?_) fun fault engine hushed => by
        cases fault <;> exact engines engine (hushed aborted.silent)
      have received := engines engine (hushed aborted.silent)
      exact (makeProgress_aborted received).mono (fun _ _ same => same ▸ received) fun _ _ never => never.elim
  | handleTimeout now =>
      unfold Call.program Client.handleTimeout
      rw [post_bind]
      unfold withEndpoint
      rw [post_zoom]
      refine (Endpoint.handleTimeout_silent aborted.silent).mono (fun _ p silent => ?_) fun _ p silent =>
        ⟨aborted.closed, silent⟩
      have timed : Aborted { c with endpoint := p } := ⟨aborted.closed, silent⟩
      rw [post_publicResult]
      exact (makeProgress_aborted timed).mono (fun _ _ same => same ▸ timed) fun _ _ never => never.elim
  | pollOutput bufLen =>
      unfold Call.program Client.pollOutput withEndpoint
      rw [post_bind, post_zoom]
      exact (Endpoint.pollOutput_silent aborted.silent).mono (fun _ p polled => ⟨aborted.closed, polled.2⟩)
        fun _ p silent => ⟨aborted.closed, silent⟩
  | sendApplicationData data =>
      unfold Call.program sendApplicationData
      rw [post_bind, post_get, if_pos (.inl aborted.closed)]
      exact aborted
  | close =>
      unfold Call.program close
      rw [post_bind, post_get, if_pos (.inl aborted.closed)]
      exact aborted

theorem output_aborted (aborted : Aborted c) {call : Call} {value : Output}
    (told : c.output call = some value) : value.carries = false := by
  cases call with
  | pollOutput bufLen =>
      have polled : Post (Client.pollOutput bufLen) c (fun value _ => value.carries = false)
          (fun _ _ => True) := by
        unfold Client.pollOutput withEndpoint
        rw [post_zoom]
        exact (Endpoint.pollOutput_silent aborted.silent).mono (fun _ _ polled => polled.1)
          fun _ _ _ => trivial
      rwa [Post, ok_of_value told] at polled
  | _ => cases told

theorem sendApplicationData_aborted (aborted : Aborted c) (data : Bytes) :
    sendApplicationData data c = .error (.fatal .connectionClosed) c := by
  have closed : c.state = .closed ∨ c.state = .halfClosedLocal := .inl aborted.closed
  simp [sendApplicationData, closed, bind, EStateM.bind, run_get,
    run_throw]

/-- A close that was reported stays so. -/
theorem exec_reports {call : Call} : Reports c.engine (c.exec call).engine :=
  exec_conduct (reports_of_keeps handleTimeout_ledger) (fun _ _ => id) reports_conducts

/-- A close is told when it was not told before. -/
theorem output_closeNotify {call : Call} (told : c.output call = some .closeNotify) :
    c.engine.closeNotifyReported = false ∧ (c.exec call).engine.closeNotifyReported = true := by
  cases call with
  | pollOutput bufLen =>
      have polled : Post (Client.pollOutput bufLen) c (fun value c' => value = .closeNotify →
          c.engine.closeNotifyReported = false ∧ c'.engine.closeNotifyReported = true)
          (fun _ _ => True) := by
        unfold Client.pollOutput withEndpoint
        rw [post_zoom]
        exact Endpoint.pollOutput_closeNotify
      obtain ⟨last, isOk⟩ : ∃ last, Client.pollOutput bufLen c = .ok .closeNotify last :=
        ⟨_, ok_of_value told⟩
      have isLast : c.exec (.pollOutput bufLen) = last := by
        simp only [exec, finalState, Call.program, bind, EStateM.bind, isOk]
        rfl
      rw [Post, isOk] at polled
      rw [isLast]
      exact polled rfl
  | _ => cases told

end Aborting

end Client

namespace Server

/-- What a call hands to the application. -/
def output (s : Server) : Call → Option Output
  | .pollOutput bufLen => value? (Server.pollOutput bufLen) s
  | _ => none

/-- The connection was closed during its handshake. -/
structure Aborted (s : Server) : Prop where
  closed : s.state = .closed
  silent : s.engine.Silent

section Aborting

variable {s : Server}

/-- Closed is where `make_progress` stays. -/
theorem makeProgress_aborted (aborted : Aborted s) :
    Post makeProgress s (fun _ s' => s' = s) (fun _ _ => False) := by
  unfold makeProgress progressLoop
  rw [post_bind, post_get, post_bind, aborted.closed]
  simp [State.makeProgress]

/-- A close during the handshake. -/
theorem close_aborted (reached : s.Reached) (under : s.state.inHandshake = true) :
    Aborted (s.exec .close) := by
  have unreleased : s.engine.releaseAppData = false :=
    Bool.eq_false_of_not_eq_true fun on => reached.inv.unreported under (.inl on)
  simp only [State.inHandshake, ne_eq, Bool.and_eq_true, decide_eq_true_eq] at under
  have closes : Post close s (fun _ s' => Aborted s') (fun _ s' => Aborted s') := by
    unfold close
    rw [post_bind, post_get, if_neg (by tauto), if_pos under.1.1, post_bind, withEngine_post, post_modify, post_modify]
    exact ⟨rfl, Engine.abort_silent unreleased⟩
  exact post_state.mp closes

/-- Nothing ends the silence. -/
theorem exec_aborted (aborted : Aborted s) (call : Call) : Aborted (s.exec call) := by
  have engines : ∀ engine : Engine, engine.Silent →
      Aborted { s with endpoint := { s.endpoint with engine } } := fun _ silent =>
    ⟨aborted.closed, silent⟩
  apply post_state.mp
  cases call with
  | handlePacket packet =>
      have retained : Post (retainHello packet) s (fun _ s' => Aborted s') (fun _ s' => Aborted s') := by
        unfold retainHello
        rw [post_bind, post_get, post_ite, post_ite]
        exact ⟨fun _ => ⟨fun _ => aborted, fun _ => ⟨aborted.closed, aborted.silent⟩⟩, fun _ => aborted⟩
      unfold Call.program Server.handlePacket
      rw [post_bind]
      refine retained.mono (fun _ s aborted => ?_) fun _ _ failed => failed
      rw [post_publicResult, post_bind, withEngine_post]
      refine (receivePacket_hushes _).mono (fun _ engine hushed => ?_) fun fault engine hushed => by
        cases fault <;> exact ⟨aborted.closed, hushed aborted.silent⟩
      have received : Aborted { s with endpoint := { s.endpoint with engine } } :=
        ⟨aborted.closed, hushed aborted.silent⟩
      rw [post_bind]
      refine (makeProgress_aborted received).mono (fun _ s' same => ?_) fun _ _ never => never.elim
      subst same
      rw [post_modify]
      unfold commitVersion
      split
      · exact ⟨received.closed, received.silent⟩
      · exact received
  | handleTimeout now =>
      unfold Call.program Server.handleTimeout
      rw [post_bind]
      unfold withEndpoint
      rw [post_zoom]
      refine (Endpoint.handleTimeout_silent aborted.silent).mono (fun _ p silent => ?_) fun _ p silent =>
        ⟨aborted.closed, silent⟩
      have timed : Aborted { s with endpoint := p } := ⟨aborted.closed, silent⟩
      rw [post_publicResult]
      exact (makeProgress_aborted timed).mono (fun _ _ same => same ▸ timed) fun _ _ never => never.elim
  | pollOutput bufLen =>
      unfold Call.program Server.pollOutput withEndpoint
      rw [post_bind, post_zoom]
      exact (Endpoint.pollOutput_silent aborted.silent).mono (fun _ p polled => ⟨aborted.closed, polled.2⟩)
        fun _ p silent => ⟨aborted.closed, silent⟩
  | sendApplicationData data =>
      unfold Call.program sendApplicationData
      rw [post_bind, post_get, if_pos (.inl aborted.closed)]
      exact aborted
  | close =>
      unfold Call.program close
      rw [post_bind, post_get, if_pos (.inl aborted.closed)]
      exact aborted

theorem output_aborted (aborted : Aborted s) {call : Call} {value : Output}
    (told : s.output call = some value) : value.carries = false := by
  cases call with
  | pollOutput bufLen =>
      have polled : Post (Server.pollOutput bufLen) s (fun value _ => value.carries = false)
          (fun _ _ => True) := by
        unfold Server.pollOutput withEndpoint
        rw [post_zoom]
        exact (Endpoint.pollOutput_silent aborted.silent).mono (fun _ _ polled => polled.1)
          fun _ _ _ => trivial
      rwa [Post, ok_of_value told] at polled
  | _ => cases told

theorem sendApplicationData_aborted (aborted : Aborted s) (data : Bytes) :
    sendApplicationData data s = .error (.fatal .connectionClosed) s := by
  have closed : s.state = .closed ∨ s.state = .halfClosedLocal := .inl aborted.closed
  simp [sendApplicationData, closed, bind, EStateM.bind, run_get,
    run_throw]

/-- A close that was reported stays so. -/
theorem exec_reports {call : Call} : Reports s.engine (s.exec call).engine :=
  exec_conduct (reports_of_keeps handleTimeout_ledger) (fun _ _ => id) reports_conducts

/-- A close is told when it was not told before. -/
theorem output_closeNotify {call : Call} (told : s.output call = some .closeNotify) :
    s.engine.closeNotifyReported = false ∧ (s.exec call).engine.closeNotifyReported = true := by
  cases call with
  | pollOutput bufLen =>
      have polled : Post (Server.pollOutput bufLen) s (fun value s' => value = .closeNotify →
          s.engine.closeNotifyReported = false ∧ s'.engine.closeNotifyReported = true)
          (fun _ _ => True) := by
        unfold Server.pollOutput withEndpoint
        rw [post_zoom]
        exact Endpoint.pollOutput_closeNotify
      obtain ⟨last, isOk⟩ : ∃ last, Server.pollOutput bufLen s = .ok .closeNotify last :=
        ⟨_, ok_of_value told⟩
      have isLast : s.exec (.pollOutput bufLen) = last := by
        simp only [exec, finalState, Call.program, bind, EStateM.bind, isOk]
        rfl
      rw [Post, isOk] at polled
      rw [isLast]
      exact polled rfl
  | _ => cases told

end Aborting

end Server

end Dimpl.Dtls13
