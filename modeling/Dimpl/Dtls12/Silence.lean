import Dimpl.Drain
import Dimpl.Dtls12.Conduct
import Dimpl.Dtls12.Engine.Posture
import Dimpl.Lib.Outputs

/-!
# An aborted connection is silent

A close during the handshake throws away what was still to be sent. What is received later
finds no flight to resend, no timer that runs and no data that may be handed out.
-/

namespace Dimpl.Dtls12

open Nom Program

/-- Nothing is to be sent, no timer runs and application data is kept back. -/
structure Engine.Silent (e : Engine) : Prop where
  packets : e.queueTx = []
  flight : e.flightSavedRecords = []
  resend : e.flightTimeout = .disabled
  connect : e.connectTimeout = .disabled
  data : e.releaseAppData = false

/-- A silent engine stays silent. -/
def Hushes (e e' : Engine) : Prop := e.Silent → e'.Silent

/-- A close that was reported stays reported. -/
def Reports (e e' : Engine) : Prop := e.closeNotifyReported = true → e'.closeNotifyReported = true

instance : Std.Refl Hushes := ⟨fun _ => id⟩

instance : IsTrans Engine Hushes := ⟨fun _ _ _ first second silent => second (first silent)⟩

instance : Std.Refl Reports := ⟨fun _ => id⟩

instance : IsTrans Engine Reports := ⟨fun _ _ _ first second reported => second (first reported)⟩

/-- What is to be sent and handed out, and whether a close was reported. -/
structure Voice where
  queueTx : List Bytes
  flightSavedRecords : List Entry
  clock : Clock
  releaseAppData : Bool
  closeNotifyReported : Bool

/-- The voice of an engine. -/
def Engine.voice (e : Engine) : Voice where
  queueTx := e.queueTx
  flightSavedRecords := e.flightSavedRecords
  clock := e.clock
  releaseAppData := e.releaseAppData
  closeNotifyReported := e.closeNotifyReported

section Receiving

theorem parseRecordsLoop_voice {fuel : Nat} {packet : Bytes} {parsed : List Record} :
    Along (Keeps Engine.voice) (parseRecordsLoop fuel packet parsed) := by
  have one : ∀ recordSlice, Along (Keeps Engine.voice) (parseRecord recordSlice) := by
    intro recordSlice
    refine along_bind along_get fun e => ?_
    split
    · exact along_pure
    · refine along_ite (fun _ => along_pure) fun _ => ?_
      refine along_bind along_get fun e => along_ite (fun _ => along_pure) fun _ => ?_
      refine along_ite (fun _ => along_pure) fun _ => along_bind openNonce_readOnly.along fun nonce => ?_
      split
      · exact along_ite (fun _ => along_pure) fun _ => along_throw
      · refine along_bind (along_modify fun e => rfl) fun _ => ?_
        split
        · exact along_throw
        · exact along_pure
  induction fuel generalizing packet parsed with
  | zero => exact along_pure
  | succ fuel inductionHypothesis =>
      unfold parseRecordsLoop
      refine along_ite (fun _ => along_pure) fun _ => ?_
      split
      · exact along_throw
      · refine along_bind (one _) fun found => ?_
        split
        · exact inductionHypothesis
        · exact along_ite (fun _ => inductionHypothesis) fun _ => along_throw

theorem classifyRecords_voice {records : List Record} :
    Along (Keeps Engine.voice) (classifyRecords records) := by
  have alert : ∀ r, Along (Keeps Engine.voice) (classifyAlert r) := by
    intro r
    refine along_get_bind fun e => ?_
    simp only [post_ite]
    refine ⟨fun _ => ⟨fun _ => rfl, fun _ => ?_⟩, fun _ => ⟨fun _ => rfl, fun _ => ?_⟩⟩
    · split <;> rfl
    · split
      · simp only [post_ite]
        exact ⟨fun _ => rfl, fun _ => ⟨fun _ => rfl, fun _ => rfl⟩⟩
      · rfl
  induction records with
  | nil => exact along_pure
  | cons r rest inductionHypothesis =>
      refine along_bind ?_ fun _ => along_bind inductionHypothesis fun _ => along_pure
      refine along_bind along_get fun e => along_ite (fun _ => along_pure) fun _ => ?_
      refine along_ite (fun _ => along_pure) fun _ => along_ite (fun _ => alert r) fun _ => ?_
      exact along_ite (fun _ => along_pure) fun _ => along_pure

/-- A datagram is queued; only a duplicate may set off more than that. -/
theorem insertIncoming_along {R : Engine → Engine → Prop} [Std.Refl R] [IsTrans Engine R]
    (queued : ∀ (e : Engine) queueRx, R e { e with queueRx }) (resend : Along R flightResend)
    {incoming : Incoming} : Along R (insertIncoming incoming) := by
  refine along_bind along_get fun e => along_ite (fun _ => along_throw) fun _ => ?_
  split
  · refine along_bind along_get fun e => ?_
    refine along_bind (along_runIf fun _ => resend) fun _ => along_get_bind fun e => ?_
    have same : R e e := Std.Refl.refl e
    dsimp only
    simp only [post_ite]
    refine ⟨fun _ => same, fun _ => ⟨fun _ => same, fun _ => ⟨fun _ => same, fun _ => ?_⟩⟩⟩
    split
    · exact queued e _
    · exact same
  · refine along_get_bind fun e => ?_
    have same : R e e := Std.Refl.refl e
    dsimp only
    rw [post_ite]
    refine ⟨fun _ => queued e _, fun _ => ?_⟩
    split
    · exact queued e _
    · rw [post_ite]
      exact ⟨fun _ => same, fun _ => same⟩

/-- A datagram leaves the voice alone until it is queued. -/
theorem parsePacket_along {R : Engine → Engine → Prop} [Std.Refl R] [IsTrans Engine R]
    (same : ∀ e e', Keeps Engine.voice e e' → R e e') (resend : Along R flightResend)
    {packet : Bytes} : Along R (parsePacket packet) := by
  refine along_bind ?_ fun records => ?_
  · exact (along_bind parseRecordsLoop_voice fun _ => classifyRecords_voice).mono same
  · split
    · exact along_pure
    · exact insertIncoming_along (fun e _ => same _ _ (rfl : Engine.voice _ = Engine.voice _)) resend

theorem receivePacket_along {R : Engine → Engine → Prop} [Std.Refl R] [IsTrans Engine R]
    (same : ∀ e e', Keeps Engine.voice e e' → R e e') (resend : Along R flightResend)
    {datagram : Bytes} : Along R (receivePacket datagram) :=
  along_bind (along_modify fun _ => same _ _ (rfl : Engine.voice _ = Engine.voice _)) fun _ =>
    parsePacket_along same resend

end Receiving

section Silence

variable {e e' : Engine}

theorem Engine.Silent.of_voice (silent : e.Silent) (same : e'.voice = e.voice) : e'.Silent where
  packets := (congrArg Voice.queueTx same).trans silent.packets
  flight := (congrArg Voice.flightSavedRecords same).trans silent.flight
  resend := (congrArg (fun v => v.clock.flightTimeout) same).trans silent.resend
  connect := (congrArg (fun v => v.clock.connectTimeout) same).trans silent.connect
  data := (congrArg Voice.releaseAppData same).trans silent.data

theorem Engine.abort_silent (data : e.releaseAppData = false) : e.abort.Silent :=
  ⟨rfl, rfl, rfl, rfl, data⟩

/-- A duplicate that asks for the flight again gets nothing. -/
theorem flightResend_hushes : Along Hushes flightResend := by
  refine along_get_bind fun e => ?_
  dsimp only
  rw [post_bind, post_set, post_ensuring]
  by_cases silent : e.Silent
  · rw [silent.flight]
    have queue : (if (!e.releaseAppData) = true then [] else e.queueTx) = [] := by
      simp [silent.packets]
    exact fun _ => ⟨queue, rfl, silent.resend, silent.connect, silent.data⟩
  · exact post_self.mono (fun _ _ _ isSilent => absurd isSilent silent)
      fun _ _ _ isSilent => absurd isSilent silent

theorem receivePacket_hushes {datagram : Bytes} : Along Hushes (receivePacket datagram) :=
  receivePacket_along (fun _ _ same silent => silent.of_voice same) flightResend_hushes

/-- Without a timer there is nothing to do. -/
theorem handleTimeout_hushes {now : Instant} (silent : e.Silent) :
    Post (Engine.handleTimeout now) e (fun _ e' => e'.Silent) (fun _ e' => e'.Silent) := by
  have resend : (e.armTimers now).flightTimeout = .disabled := by
    simp [Engine.armTimers, silent.resend]
  have connect : (e.armTimers now).connectTimeout = .disabled := by
    simp [Engine.armTimers, silent.connect]
  have armed : (e.armTimers now).Silent := ⟨silent.packets, silent.flight, resend, connect, silent.data⟩
  unfold Engine.handleTimeout
  rw [post_bind, post_modify, post_bind, post_get, connect, resend]
  simpa using armed

/-- A silent engine has at most a close to tell. -/
theorem pollOutput_hushes {bufLen : Nat} {now : Instant} (silent : e.Silent) :
    Post (Engine.pollOutput bufLen now) e (fun output e' => output.carries = false ∧ e'.Silent)
      (fun _ e' => e'.Silent) := by
  unfold Engine.pollOutput
  rw [post_bind, post_modify]
  have purged : e.purgeHandledQueueRx.Silent := silent.of_voice rfl
  generalize e.purgeHandledQueueRx = e₁ at purged
  unfold pollAppData
  rw [post_bind, post_bind, post_get, purged.data]
  simp only [Bool.not_false, if_true, post_pure]
  unfold pollPacketTx
  rw [post_bind, post_bind, post_get, purged.packets]
  simp only [post_pure]
  rw [post_bind, post_get, post_ite]
  refine ⟨fun _ => ?_, fun _ => ⟨rfl, purged⟩⟩
  rw [post_bind, post_set]
  exact ⟨rfl, purged.packets, purged.flight, purged.resend, purged.connect, purged.data⟩

end Silence

section Reporting

theorem createRecordInner_reported {contentType : ContentType} {epoch : Nat}
    {saveFragment forceNewDatagram : Bool} {fragment : Bytes} : Along (Keeps Engine.closeNotifyReported)
      (createRecordInner contentType epoch saveFragment forceNewDatagram fragment) := by
  have emitted : ∀ (e : Engine) contentType epoch append fragment,
      (e.emit contentType epoch append fragment).closeNotifyReported = e.closeNotifyReported := by
    intro e contentType epoch append fragment
    unfold Engine.emit Engine.enqueueRecord Engine.countRecord
    split <;> split <;> rfl
  have nonce : ∀ suite iv sequence,
      Along (Keeps Engine.closeNotifyReported) (sendNonce suite iv sequence) := by
    intro suite iv sequence
    have xor : ReadOnly (xorNonce iv sequence) := along_ite (fun _ => along_pure) fun _ => along_throw
    have join : ∀ explicitNonce, ReadOnly (joinNonce iv explicitNonce) := fun _ =>
      along_ite (fun _ => along_pure) fun _ => along_throw
    refine along_bind along_get fun e => along_ite (fun _ => ?_) fun _ => along_ite (fun _ => ?_) fun _ =>
      along_throw
    · exact along_bind xor.along fun _ => along_pure
    · refine along_bind (along_get_bind fun e => rfl) fun explicitNonce => ?_
      exact along_bind (join explicitNonce).along fun _ => along_pure
  refine along_bind along_get fun e => along_ite (fun _ => along_throw) fun _ => ?_
  refine along_bind (along_runIf fun _ => along_modify fun _ => rfl) fun _ => ?_
  refine along_bind checkQueueTx_readOnly.along fun _ => along_ite (fun _ => ?_) fun _ => ?_
  · exact along_modify fun _ => emitted _ _ _ _ _
  · refine along_bind ?_ fun _ => along_modify fun _ => emitted _ _ _ _ _
    refine along_bind selectedCipherSuite_readOnly.along fun suite => along_bind along_get fun e => ?_
    refine along_bind along_orThrow fun iv => along_bind (nonce _ _ _) fun nonces => ?_
    refine along_bind along_liftCrypto fun cipher => ?_
    exact along_bind along_liftCrypto fun ciphertext => along_pure

theorem flightResend_reported : Along (Keeps Engine.closeNotifyReported) flightResend := by
  have entries : ∀ entries forceNewDatagram,
      Along (Keeps Engine.closeNotifyReported) (resendEntries forceNewDatagram entries) := by
    intro entries
    induction entries with
    | nil => exact fun _ => along_pure
    | cons entry rest inductionHypothesis =>
        exact fun _ => along_bind createRecordInner_reported fun _ => inductionHypothesis _
  refine along_get_bind fun e => ?_
  dsimp only
  rw [post_bind, post_set, post_ensuring]
  exact (entries _ _ _).mono (fun _ _ same => same) fun _ _ same => same

theorem createHandshake_reports {type : MessageType} {writeBody : EngineM Bytes}
    (builds : Along Reports writeBody) : Along Reports (createHandshake type writeBody) := by
  have fragments : ∀ header epoch fixedOverhead body fuel offset, Along (Keeps Engine.closeNotifyReported)
      (createFragments header epoch fixedOverhead body fuel offset) := by
    intro header epoch fixedOverhead body fuel
    induction fuel with
    | zero => exact fun _ => along_throw
    | succ fuel inductionHypothesis =>
        intro offset
        refine along_ite (fun _ => along_bind along_get fun e => ?_) fun _ => along_pure
        exact along_bind createRecordInner_reported fun _ => along_runIf fun _ => inductionHypothesis _
  refine along_bind builds fun body => ?_
  have kept : ∀ e e' : Engine, Keeps Engine.closeNotifyReported e e' → Reports e e' :=
    fun _ _ same reported => same.trans reported
  refine Along.mono (along_get_bind fun e => ?_) kept
  rw [post_bind, post_set]
  refine Along.after (s := e) ?_ rfl
  exact along_bind handshakeOverhead_readOnly.along fun _ => fragments _ _ _ _ _ _

theorem nextHandshake_reported {wanted : MessageType} :
    Along (Keeps Engine.closeNotifyReported) (nextHandshake wanted) := by
  refine along_bind along_get fun e => along_ite (fun _ => ?_) fun _ => along_pure
  split
  · exact along_throw
  · refine along_bind (along_get_bind fun e => ?_) fun _ => ?_
    · dsimp only
      rw [post_bind, post_set]
      refine Along.after (s := e) ?_ rfl
      refine along_ite (fun _ => along_throw) fun _ => along_bind (along_modify fun _ => rfl) fun _ => ?_
      split
      · exact along_throw
      · exact along_ite (fun _ => along_throw) fun _ => along_pure
    · exact along_bind (along_modify fun _ => rfl) fun _ => along_pure

/-- A close is reported when there is one and it was not reported before. -/
theorem pollOutput_reported {e : Engine} {bufLen : Nat} {now : Instant} :
    Post (Engine.pollOutput bufLen now) e
      (fun output e' => (output ≠ .closeNotify ∧ e'.closeNotifyReported = e.closeNotifyReported) ∨
        (output = .closeNotify ∧ e.closeNotifyReported = false ∧ e'.closeNotifyReported = true))
      (fun _ e' => e'.closeNotifyReported = e.closeNotifyReported) := by
  have data : Along (Keeps Engine.closeNotifyReported) (pollAppData bufLen) := by
    refine along_get_bind fun e => ?_
    rw [post_ite]
    refine ⟨fun _ => rfl, fun _ => ?_⟩
    split
    · rfl
    · rw [post_ite]
      refine ⟨fun _ => rfl, fun _ => ?_⟩
      rw [post_bind]
      refine (assertNoHandshakes_readOnly e).mono ?_ fun _ _ same => same ▸ rfl
      rintro _ _ rfl
      rfl
  have packets : Along (Keeps Engine.closeNotifyReported) (pollPacketTx bufLen) := by
    refine along_get_bind fun e => ?_
    split
    · rfl
    · rw [post_bind, post_set, post_ite]
      exact ⟨fun _ => rfl, fun _ => rfl⟩
  unfold Engine.pollOutput
  rw [post_bind, post_modify, post_bind]
  refine (data _).mono (fun found e₁ kept => ?_) fun _ _ kept => kept
  have kept : e₁.closeNotifyReported = e.closeNotifyReported := kept
  cases found with
  | some bytes => exact .inl ⟨Output.noConfusion, kept⟩
  | none =>
      dsimp only
      rw [post_bind]
      refine (packets _).mono (fun found e₂ more => ?_) fun _ _ more => more.trans kept
      have more : e₂.closeNotifyReported = e.closeNotifyReported := more.trans kept
      cases found with
      | some bytes => exact .inl ⟨Output.noConfusion, more⟩
      | none =>
          dsimp only
          rw [post_bind, post_get, post_ite]
          refine ⟨fun closes => ?_, fun _ => .inl ⟨Output.noConfusion, more⟩⟩
          simp only [Bool.and_eq_true, Bool.not_eq_true'] at closes
          rw [post_bind, post_set]
          exact .inr ⟨rfl, more.symm.trans closes.2, rfl⟩

theorem reports_of_keeps {α : Type} {program : EngineM α}
    (keeps : Along (Keeps Engine.closeNotifyReported) program) : Along Reports program :=
  keeps.mono fun _ _ same reported => same.trans reported

theorem Reports.of_voice {e e' : Engine} (same : Keeps Engine.voice e e') : Reports e e' :=
  fun reported => (congrArg Voice.closeNotifyReported same).trans reported

theorem enablePeerEncryption_reports : Along Reports enablePeerEncryption := by
  have again : ∀ buffers, Along Reports (reparse buffers) := by
    intro buffers
    induction buffers with
    | nil => exact along_pure
    | cons buffer rest inductionHypothesis =>
        refine along_bind ?_ fun _ => inductionHypothesis
        exact parsePacket_along (fun _ _ => Reports.of_voice) (reports_of_keeps flightResend_reported)
  refine along_get_bind fun e => ?_
  dsimp only
  rw [post_bind, post_set]
  exact (again _).after (id : Reports e _)

theorem nextRecord_reported {contentType : ContentType} :
    Along (Keeps Engine.closeNotifyReported) (nextRecord contentType) := by
  refine along_get_bind fun e => ?_
  split
  · rfl
  · rw [post_ite]
    refine ⟨fun _ => rfl, fun _ => ?_⟩
    rw [post_bind]
    refine (assertNoHandshakes_readOnly e).mono ?_ fun _ _ same => same ▸ rfl
    rintro _ _ rfl
    rfl

theorem dropPendingCcs_reported : Along (Keeps Engine.closeNotifyReported) dropPendingCcs := by
  refine along_bind along_get fun e => along_bind assertCcs_readOnly.along fun _ => ?_
  exact along_modify fun _ => rfl

theorem setCipherSuite_reported {suite : Dtls12CipherSuite} :
    Along (Keeps Engine.closeNotifyReported) (setCipherSuite suite) := by
  refine along_get_bind fun e => ?_
  rw [post_bind, post_orThrow]
  exact ⟨fun _ _ => rfl, fun _ => rfl⟩

/-- Nothing takes back that a close was reported. -/
theorem reports_conducts : Conducts Reports where
  nextHandshake := reports_of_keeps nextHandshake_reported
  nextRecord := reports_of_keeps nextRecord_reported
  dropPendingCcs := reports_of_keeps dropPendingCcs_reported
  enablePeerEncryption := enablePeerEncryption_reports
  flightBegin := fun _ => id
  flightStop := fun _ => id
  createHandshake := createHandshake_reports
  createRecord := reports_of_keeps createRecordInner_reported
  resetClient := fun _ => id
  resetServer := fun _ => id
  setCipherSuite := reports_of_keeps setCipherSuite_reported
  context := fun _ _ => id
  random := fun _ _ => id
  discard := fun _ => id
  release := fun _ => id
  receivePacket := receivePacket_along (fun _ _ => Reports.of_voice) (reports_of_keeps flightResend_reported)
  pollOutput := fun _ => pollOutput_reported.mono
    (fun _ _ polled reported => polled.elim (fun kept => kept.2.trans reported) fun closes => closes.2.2)
    fun _ _ same reported => same.trans reported
  abort := fun _ => id

end Reporting

/-- An event tells neither data nor a close. -/
theorem LocalEvent.intoOutput_tells {σ : Type} {bufLen : Nat} {peerCerts : List Bytes}
    {event : LocalEvent} :
    Returns (fun output => output.carries = false ∧ output ≠ .closeNotify)
      (event.intoOutput bufLen peerCerts : EStateM Fault σ Output) := by
  intro s
  cases event with
  | peerCert =>
      cases peerCerts with
      | nil => trivial
      | cons certificate rest =>
          unfold LocalEvent.intoOutput
          dsimp only
          rw [post_ite]
          exact ⟨fun _ => ⟨rfl, Output.noConfusion⟩, fun _ => trivial⟩
  | connected => exact ⟨rfl, Output.noConfusion⟩
  | keyingMaterial material profile => exact ⟨rfl, Output.noConfusion⟩

namespace Client

/-- What a call hands to the application. -/
def output (c : Client) : Call → Option Output
  | .pollOutput bufLen => value? (Client.pollOutput bufLen) c
  | _ => none

/-- Application data is kept back while the handshake lasts. -/
def Unreleased (c : Client) : Prop := c.state.inHandshake = true → c.engine.releaseAppData = false

/-- The connection was closed during its handshake. -/
structure Aborted (c : Client) : Prop where
  closed : c.state = .closed
  silent : c.engine.Silent

section Handshake

variable {due : Promise} {c : Client}

/-- A handler releases data only as it ends the handshake. -/
theorem makeProgress_unreleased (inv : Inv due c) (unreleased : Unreleased c) :
    Post c.state.makeProgress c (fun next c' => Unreleased { c' with state := next })
      (fun _ c' => Unreleased c') := by
  have within := makeProgress_within c.state c
  have returns := makeProgress_returns c.state c
  by_cases finished : c.state = .awaitFinished
  · have suite : c.engine.cipherSuite.isSome = true := by
      obtain ⟨suite, isSuite, _⟩ := inv.exchanged (by rw [finished]; rfl)
      simp [isSuite]
    have under : c.state.inHandshake = true := by rw [finished]; rfl
    have held := unreleased under
    rw [finished]
    refine (awaitFinished_post suite).mono ?_ fun _ c' still _ => still.released.trans held
    rintro next c' (⟨rfl, still⟩ | ⟨rfl, _⟩)
    · exact fun _ => still.released.trans held
    · exact fun under => by cases under
  · by_cases data : c.state = .awaitApplicationData
    · rw [data] at within returns ⊢
      refine (within.and returns).mono ?_ ?_
      · rintro next c' ⟨_, isNext⟩ under
        rcases List.mem_cons.mp isNext with rfl | closed
        · cases under
        · cases List.mem_singleton.mp closed
          cases under
      · rintro _ c' ⟨within, _⟩ under
        rw [within.state, data] at under
        cases under
    · have isCalm : c.state.calm := by
        cases state : c.state <;> simp_all [State.calm]
      refine (within.and returns).mono ?_ ?_
      · rintro next c' ⟨within, isNext⟩ under
        have endures := within.engine.endures inv.phase
        exact (endures.unreleased isCalm).trans (unreleased ((State.follows_phase isNext).2.2.1 under))
      · rintro _ c' ⟨within, _⟩ under
        have endures := within.engine.endures inv.phase
        exact (endures.unreleased isCalm).trans (unreleased (within.state ▸ under))

theorem progressLoop_unreleased {fuel : Nat} (inv : Inv due c) (unreleased : Unreleased c) :
    Post (progressLoop fuel) c (fun _ c' => Unreleased c') (fun _ c' => Unreleased c') := by
  induction fuel generalizing c with
  | zero => exact unreleased
  | succ fuel inductionHypothesis =>
      unfold progressLoop
      rw [post_bind, post_get]
      dsimp only
      rw [post_bind]
      refine (((makeProgress_inv inv).and (makeProgress_within c.state c)).and
        (makeProgress_unreleased inv unreleased)).mono ?_ fun _ _ kept => kept.2
      rintro next c' ⟨⟨kept, within⟩, held⟩
      rw [post_ite]
      refine ⟨fun same => ?_, fun _ => ?_⟩
      · rw [same, ← within.state] at held
        exact held
      · rw [post_bind, post_modify]
        exact inductionHypothesis kept held

theorem exec_unreleased (inv : Inv Promise.isSet c) (unreleased : Unreleased c) (call : Call) :
    Unreleased (c.exec call) := by
  have of_engine : ∀ engine : Engine, engine.releaseAppData = c.engine.releaseAppData →
      Unreleased { c with engine } := fun _ same under => same.trans (unreleased under)
  have closed : ∀ c' : Client, Unreleased { c' with state := .closed } := fun _ under => by cases under
  apply post_state.mp
  cases call with
  | handlePacket packet =>
      unfold Call.program Client.handlePacket
      rw [post_publicResult, post_bind]
      have received := withEngine_inv inv (@receivePacket_moves _ packet fun _ _ => trivial)
      unfold Client.withEngine at received ⊢
      rw [post_zoom] at received ⊢
      refine (received.and (receivePacket_posture c.engine)).mono ?_ ?_
      · rintro _ engine ⟨kept, same⟩
        have held := of_engine engine (congrArg Posture.releaseAppData same)
        exact (progressLoop_unreleased kept held).mono (fun _ _ done => done) fun fault _ done => by
          cases fault <;> exact done
      · rintro fault engine ⟨-, same⟩
        have held := of_engine engine (congrArg Posture.releaseAppData same)
        cases fault <;> exact held
  | handleTimeout now =>
      unfold Call.program Client.handleTimeout
      rw [post_bind, post_modify, post_bind]
      have noted : Inv Promise.isSet { c with lastNow := now } :=
        ⟨inv.phase, inv.lengths, inv.reached, inv.exchanged, inv.verified, inv.deadline⟩
      have drawn : ∀ c : Client, Unreleased c → Post (Client.initRandom now) c (fun _ c' => Unreleased c')
          (fun _ _ => True) := by
        intro c held
        unfold Client.initRandom
        rw [post_bind, post_get]
        split
        · exact held
        · unfold Client.withEngine newRandom randomArr
          simp only [post_bind, post_zoom, post_get, post_set, post_pure, post_modify]
          exact held
      refine ((initRandom_inv noted).and (drawn { c with lastNow := now } unreleased)).mono ?_
        fun _ _ never => never.1.elim
      rintro _ c₁ ⟨kept, held⟩
      have timed : Post (Client.withEngine (Engine.handleTimeout now)) c₁ (fun _ c' => Unreleased c')
          (fun _ c' => Unreleased c') := by
        unfold Client.withEngine
        rw [post_zoom]
        have resent : Along (Keeps Engine.releaseAppData) flightResend :=
          flightResend_posture.mono fun _ _ same => congrArg Posture.releaseAppData same
        exact (handleTimeout_along (fun _ _ _ _ _ => rfl) resent _).mono (fun _ _ same under => same.trans (held under))
          fun _ _ same under => same.trans (held under)
      rw [post_bind]
      refine ((timers_inv kept Promise.isSet_arms).and timed).mono ?_ fun _ _ failed => failed.2
      rintro _ c₂ ⟨kept, held⟩
      rw [post_publicResult]
      exact (progressLoop_unreleased kept held).mono (fun _ _ done => done) fun fault _ done => by
        cases fault <;> exact done
  | pollOutput bufLen =>
      unfold Call.program Client.pollOutput
      rw [post_bind, post_bind, post_get]
      split
      · rw [post_bind, post_set]
        exact (LocalEvent.intoOutput_readOnly _).mono (fun _ _ same => same ▸ unreleased)
          fun _ _ same => same ▸ unreleased
      · unfold Client.withEngine
        rw [post_zoom]
        exact (pollOutput_posture _).mono
          (fun _ engine same => of_engine engine (congrArg Posture.releaseAppData same))
          fun _ engine same => of_engine engine (congrArg Posture.releaseAppData same)
  | sendApplicationData data =>
      unfold Call.program sendApplicationData Client.withEngine
      rw [post_bind, post_get, post_ite, post_ite, post_zoom]
      refine ⟨fun _ => unreleased, fun _ => ⟨fun _ => unreleased, fun _ => ?_⟩⟩
      exact (createRecord_posture _).mono
        (fun _ engine same => of_engine engine (congrArg Posture.releaseAppData same))
        fun _ engine same => of_engine engine (congrArg Posture.releaseAppData same)
  | close =>
      unfold Call.program close Client.withEngine
      rw [post_bind, post_get, post_ite, post_ite, post_bind, post_zoom]
      refine ⟨fun _ => unreleased, fun _ => ⟨fun _ => closed _, fun _ => ?_⟩⟩
      exact (createRecord_posture _).mono (fun _ engine _ => closed _)
        fun _ engine same => of_engine engine (congrArg Posture.releaseAppData same)

theorem Reached.unreleased (reached : Reached c) : Unreleased c := by
  obtain ⟨start, calls, isStart, rfl⟩ := reached
  have initial : Unreleased start := by cases isStart <;> exact fun _ => rfl
  have preserved : ∀ (c : Client) (call : Call), Inv Promise.isSet c ∧ Unreleased c → True →
      Inv Promise.isSet (c.exec call) ∧ Unreleased (c.exec call) := fun _ call both _ =>
    ⟨exec_inv both.1 Promise.isSet_arms, exec_unreleased both.1 both.2 call⟩
  exact (run_invariant preserved ⟨isStart.inv Timeout.noConfusion, initial⟩
    (Meets.of_all fun _ _ => trivial)).2

end Handshake

section Aborting

variable {c : Client}

/-- Closed is where `make_progress` stays. -/
theorem makeProgress_aborted (aborted : Aborted c) :
    Post makeProgress c (fun _ c' => c' = c) (fun _ _ => False) := by
  unfold makeProgress progressLoop
  rw [post_bind, post_get, post_bind, aborted.closed]
  simp [State.makeProgress]

/-- A close during the handshake. -/
theorem close_aborted (reached : c.Reached) (under : c.state.inHandshake = true) :
    Aborted (c.exec .close) := by
  have unreleased := reached.unreleased under
  simp only [State.inHandshake, ne_eq, Bool.and_eq_true, decide_eq_true_eq] at under
  have closes : Post close c (fun _ c' => Aborted c') (fun _ c' => Aborted c') := by
    unfold close
    rw [post_bind, post_get, if_neg under.2, if_pos under.1, post_set]
    exact ⟨rfl, Engine.abort_silent unreleased⟩
  exact post_state.mp closes

/-- What is polled is an event or comes from the engine. -/
theorem pollOutput_post {bufLen : Nat} {Q : Output → Client → Prop} {E : Client → Prop}
    (events : ∀ (output : Output) rest, output.carries = false → output ≠ .closeNotify →
      Q output { c with localEvents := rest })
    (kept : ∀ rest, E { c with localEvents := rest })
    (polls : Post (Engine.pollOutput bufLen c.lastNow) c.engine
      (fun output engine => Q output { c with engine }) fun _ engine => E { c with engine }) :
    Post (Client.pollOutput bufLen) c Q (fun _ => E) := by
  unfold Client.pollOutput
  rw [post_bind, post_get]
  split
  · rw [post_bind, post_set]
    refine ((LocalEvent.intoOutput_tells _).and (LocalEvent.intoOutput_readOnly _)).mono ?_ ?_
    · rintro output _ ⟨⟨notData, notClose⟩, rfl⟩
      exact events output _ notData notClose
    · rintro _ _ ⟨-, rfl⟩
      exact kept _
  · unfold Client.withEngine
    rw [post_zoom]
    exact polls

theorem pollOutput_aborted (aborted : Aborted c) {bufLen : Nat} :
    Post (Client.pollOutput bufLen) c (fun output c' => output.carries = false ∧ Aborted c')
      (fun _ c' => Aborted c') := by
  have popped : ∀ rest, Aborted { c with localEvents := rest } := fun _ =>
    ⟨aborted.closed, aborted.silent⟩
  refine pollOutput_post (fun _ rest notData _ => ⟨notData, popped rest⟩) popped ?_
  exact (pollOutput_hushes aborted.silent).mono
    (fun _ engine polled => ⟨polled.1, aborted.closed, polled.2⟩)
    fun _ engine silent => ⟨aborted.closed, silent⟩

theorem handleTimeout_aborted (aborted : Aborted c) {now : Instant} :
    Post (Client.handleTimeout now) c (fun _ c' => Aborted c') (fun _ c' => Aborted c') := by
  have drawn : ∀ c : Client, Aborted c →
      Post (Client.initRandom now) c (fun _ c' => Aborted c') (fun _ _ => False) := by
    intro c aborted
    unfold Client.initRandom
    rw [post_bind, post_get]
    split
    · exact aborted
    · unfold Client.withEngine newRandom randomArr
      simp only [post_bind, post_zoom, post_get, post_set, post_pure, post_modify]
      exact ⟨aborted.closed, aborted.silent.of_voice rfl⟩
  have noted : Aborted { c with lastNow := now } := ⟨aborted.closed, aborted.silent⟩
  unfold Client.handleTimeout
  rw [post_bind, post_modify, post_bind]
  refine (drawn _ noted).mono (fun _ c₁ aborted => ?_) fun _ _ never => never.elim
  unfold Client.withEngine
  rw [post_bind, post_zoom]
  refine (handleTimeout_hushes aborted.silent).mono (fun _ engine silent => ?_) fun _ engine silent =>
    ⟨aborted.closed, silent⟩
  have timed : Aborted { c₁ with engine } := ⟨aborted.closed, silent⟩
  rw [post_publicResult]
  exact (makeProgress_aborted timed).mono (fun _ _ same => same ▸ timed) fun _ _ never => never.elim

/-- Nothing ends the silence. -/
theorem exec_aborted (aborted : Aborted c) (call : Call) : Aborted (c.exec call) := by
  apply post_state.mp
  cases call with
  | handlePacket packet =>
      unfold Call.program Client.handlePacket Client.withEngine
      rw [post_publicResult, post_bind, post_zoom]
      refine (receivePacket_hushes _).mono (fun _ engine hushed => ?_) fun fault engine hushed => by
        cases fault <;> exact ⟨aborted.closed, hushed aborted.silent⟩
      have received : Aborted { c with engine } := ⟨aborted.closed, hushed aborted.silent⟩
      exact (makeProgress_aborted received).mono (fun _ _ same => same ▸ received) fun _ _ never => never.elim
  | handleTimeout now => exact handleTimeout_aborted aborted
  | pollOutput bufLen =>
      unfold Call.program
      rw [post_bind]
      exact (pollOutput_aborted aborted).mono (fun _ _ polled => polled.2) fun _ _ failed => failed
  | sendApplicationData data =>
      unfold Call.program sendApplicationData
      rw [post_bind, post_get, if_pos aborted.closed]
      exact aborted
  | close =>
      unfold Call.program close
      rw [post_bind, post_get, if_pos aborted.closed]
      exact aborted

theorem output_aborted (aborted : Aborted c) {call : Call} {value : Output}
    (told : c.output call = some value) : value.carries = false := by
  cases call with
  | pollOutput bufLen =>
      have polled := @pollOutput_aborted c aborted bufLen
      rw [Post, ok_of_value told] at polled
      exact polled.1
  | _ => cases told

theorem sendApplicationData_aborted (aborted : Aborted c) (data : Bytes) :
    sendApplicationData data c = .error (.fatal .connectionClosed) c := by
  simp [sendApplicationData, aborted.closed, bind, EStateM.bind, run_get, run_throw]

/-- A close that was reported stays so. -/
theorem exec_reports {call : Call} : Reports c.engine (c.exec call).engine := by
  have timeout : ∀ {now}, Along Reports (Engine.handleTimeout now) :=
    handleTimeout_along (fun _ _ _ _ _ => id) (reports_of_keeps flightResend_reported)
  exact exec_conduct timeout reports_conducts

/-- A close is told when it was not told before. -/
theorem output_closeNotify {call : Call} (told : c.output call = some .closeNotify) :
    c.engine.closeNotifyReported = false ∧ (c.exec call).engine.closeNotifyReported = true := by
  cases call with
  | pollOutput bufLen =>
      have polled : Post (Client.pollOutput bufLen) c (fun value c' => value = .closeNotify →
          c.engine.closeNotifyReported = false ∧ c'.engine.closeNotifyReported = true)
          (fun _ _ => True) := by
        refine pollOutput_post (fun _ _ _ notClose isClose => absurd isClose notClose)
          (fun _ => trivial) ?_
        refine pollOutput_reported.mono (fun output engine polled isClose => ?_) fun _ _ _ => trivial
        exact polled.elim (fun kept => absurd isClose kept.1) fun closes => closes.2
      obtain ⟨last, isOk⟩ : ∃ last, Client.pollOutput bufLen c = .ok .closeNotify last :=
        ⟨_, ok_of_value told⟩
      have isLast : c.exec (.pollOutput bufLen) = last := by
        simp only [exec, finalState, Call.program, bind, EStateM.bind, isOk]
        rfl
      rw [Post, isOk] at polled
      rw [isLast]
      exact polled rfl
  | _ => cases told

end Aborting

end Client

namespace Server

/-- What a call hands to the application. -/
def output (s : Server) : Call → Option Output
  | .pollOutput bufLen => value? (Server.pollOutput bufLen) s
  | _ => none

/-- Application data is kept back while the handshake lasts. -/
def Unreleased (s : Server) : Prop := s.state.inHandshake = true → s.engine.releaseAppData = false

/-- The connection was closed during its handshake. -/
structure Aborted (s : Server) : Prop where
  closed : s.state = .closed
  silent : s.engine.Silent

section Handshake

variable {due : Promise} {s : Server}

/-- A handler releases data only as it ends the handshake. -/
theorem makeProgress_unreleased (inv : Inv due s) (unreleased : Unreleased s) :
    Post s.state.makeProgress s (fun next s' => Unreleased { s' with state := next })
      (fun _ s' => Unreleased s') := by
  have within := makeProgress_within s.state s
  have returns := makeProgress_returns s.state s
  by_cases finished : s.state = .sendFinished
  · have suite : s.engine.cipherSuite.isSome = true := inv.has.suite (by rw [finished]; rfl)
    have under : s.state.inHandshake = true := by rw [finished]; rfl
    have held := unreleased under
    rw [finished]
    refine (sendFinished_post suite).mono ?_ fun _ s' still _ => still.1.trans held
    rintro next s' ⟨rfl, _⟩ under
    cases under
  · by_cases data : s.state = .awaitApplicationData
    · rw [data] at within returns ⊢
      refine (within.and returns).mono ?_ ?_
      · rintro next s' ⟨_, isNext⟩ under
        rcases List.mem_cons.mp isNext with rfl | closed
        · cases under
        · cases List.mem_singleton.mp closed
          cases under
      · rintro _ s' ⟨within, _⟩ under
        rw [within.state, data] at under
        cases under
    · have isCalm : s.state.calm := by
        cases state : s.state <;> simp_all [State.calm]
      refine (within.and returns).mono ?_ ?_
      · rintro next s' ⟨within, isNext⟩ under
        have endures := within.engine.endures inv.phase
        exact (endures.unreleased isCalm).trans (unreleased ((State.follows_phase isNext).2.2 under))
      · rintro _ s' ⟨within, _⟩ under
        have endures := within.engine.endures inv.phase
        exact (endures.unreleased isCalm).trans (unreleased (within.state ▸ under))

theorem progressLoop_unreleased {fuel : Nat} (inv : Inv due s) (unreleased : Unreleased s) :
    Post (progressLoop fuel) s (fun _ s' => Unreleased s') (fun _ s' => Unreleased s') := by
  induction fuel generalizing s with
  | zero => exact unreleased
  | succ fuel inductionHypothesis =>
      unfold progressLoop
      rw [post_bind, post_get]
      dsimp only
      rw [post_bind]
      refine (((makeProgress_inv inv).and (makeProgress_within s.state s)).and
        (makeProgress_unreleased inv unreleased)).mono ?_ fun _ _ kept => kept.2
      rintro next s' ⟨⟨kept, within⟩, held⟩
      rw [post_ite]
      refine ⟨fun same => ?_, fun _ => ?_⟩
      · rw [same, ← within.state] at held
        exact held
      · rw [post_bind, post_modify]
        exact inductionHypothesis kept held

theorem exec_unreleased (inv : Inv Promise.isSet s) (unreleased : Unreleased s) (call : Call) :
    Unreleased (s.exec call) := by
  have of_engine : ∀ engine : Engine, engine.releaseAppData = s.engine.releaseAppData →
      Unreleased { s with engine } := fun _ same under => same.trans (unreleased under)
  have closed : ∀ s' : Server, Unreleased { s' with state := .closed } := fun _ under => by cases under
  apply post_state.mp
  cases call with
  | handlePacket packet =>
      unfold Call.program Server.handlePacket
      rw [post_publicResult, post_bind]
      have received := withEngine_inv inv (@receivePacket_moves _ packet fun _ _ => trivial)
      unfold Server.withEngine at received ⊢
      rw [post_zoom] at received ⊢
      refine (received.and (receivePacket_posture s.engine)).mono ?_ ?_
      · rintro _ engine ⟨kept, same⟩
        have held := of_engine engine (congrArg Posture.releaseAppData same)
        exact (progressLoop_unreleased kept held).mono (fun _ _ done => done) fun fault _ done => by
          cases fault <;> exact done
      · rintro fault engine ⟨-, same⟩
        have held := of_engine engine (congrArg Posture.releaseAppData same)
        cases fault <;> exact held
  | handleTimeout now =>
      unfold Call.program Server.handleTimeout
      rw [post_bind, post_modify, post_bind]
      have noted : Inv Promise.isSet { s with lastNow := now } := inv.of_fields rfl rfl rfl rfl id
      have drawn : ∀ s : Server, Unreleased s → Post (Server.initRandom now) s (fun _ s' => Unreleased s')
          (fun _ _ => True) := by
        intro s held
        unfold Server.initRandom
        rw [post_bind, post_get]
        split
        · exact held
        · unfold Server.withEngine newRandom randomArr
          simp only [post_bind, post_zoom, post_get, post_set, post_pure, post_modify]
          exact held
      refine ((initRandom_inv noted).and (drawn { s with lastNow := now } unreleased)).mono ?_
        fun _ _ never => never.1.elim
      rintro _ s₁ ⟨kept, held⟩
      have timed : Post (Server.withEngine (Engine.handleTimeout now)) s₁ (fun _ s' => Unreleased s')
          (fun _ s' => Unreleased s') := by
        unfold Server.withEngine
        rw [post_zoom]
        have resent : Along (Keeps Engine.releaseAppData) flightResend :=
          flightResend_posture.mono fun _ _ same => congrArg Posture.releaseAppData same
        exact (handleTimeout_along (fun _ _ _ _ _ => rfl) resent _).mono (fun _ _ same under => same.trans (held under))
          fun _ _ same under => same.trans (held under)
      rw [post_bind]
      refine ((timers_inv kept Promise.isSet_arms).and timed).mono ?_ fun _ _ failed => failed.2
      rintro _ s₂ ⟨kept, held⟩
      rw [post_publicResult]
      exact (progressLoop_unreleased kept held).mono (fun _ _ done => done) fun fault _ done => by
        cases fault <;> exact done
  | pollOutput bufLen =>
      unfold Call.program Server.pollOutput
      rw [post_bind, post_bind, post_get]
      split
      · rw [post_bind, post_set]
        exact (LocalEvent.intoOutput_readOnly _).mono (fun _ _ same => same ▸ unreleased)
          fun _ _ same => same ▸ unreleased
      · unfold Server.withEngine
        rw [post_zoom]
        exact (pollOutput_posture _).mono
          (fun _ engine same => of_engine engine (congrArg Posture.releaseAppData same))
          fun _ engine same => of_engine engine (congrArg Posture.releaseAppData same)
  | sendApplicationData data =>
      unfold Call.program sendApplicationData Server.withEngine
      rw [post_bind, post_get, post_ite, post_ite, post_zoom]
      refine ⟨fun _ => unreleased, fun _ => ⟨fun _ => unreleased, fun _ => ?_⟩⟩
      exact (createRecord_posture _).mono
        (fun _ engine same => of_engine engine (congrArg Posture.releaseAppData same))
        fun _ engine same => of_engine engine (congrArg Posture.releaseAppData same)
  | close =>
      unfold Call.program close Server.withEngine
      rw [post_bind, post_get, post_ite, post_ite, post_bind, post_zoom]
      refine ⟨fun _ => unreleased, fun _ => ⟨fun _ => closed _, fun _ => ?_⟩⟩
      exact (createRecord_posture _).mono (fun _ engine _ => closed _)
        fun _ engine same => of_engine engine (congrArg Posture.releaseAppData same)

theorem Reached.unreleased (reached : Reached s) : Unreleased s := by
  obtain ⟨start, calls, isStart, rfl⟩ := reached
  have initial : Unreleased start := by
    cases isStart
    exact fun _ => rfl
  have preserved : ∀ (s : Server) (call : Call), Inv Promise.isSet s ∧ Unreleased s → True →
      Inv Promise.isSet (s.exec call) ∧ Unreleased (s.exec call) := fun _ call both _ =>
    ⟨exec_inv both.1 Promise.isSet_arms, exec_unreleased both.1 both.2 call⟩
  exact (run_invariant preserved ⟨isStart.inv Timeout.noConfusion, initial⟩
    (Meets.of_all fun _ _ => trivial)).2

end Handshake

section Aborting

variable {s : Server}

/-- Closed is where `make_progress` stays. -/
theorem makeProgress_aborted (aborted : Aborted s) :
    Post makeProgress s (fun _ s' => s' = s) (fun _ _ => False) := by
  unfold makeProgress progressLoop
  rw [post_bind, post_get, post_bind, aborted.closed]
  simp [State.makeProgress]

/-- A close during the handshake. -/
theorem close_aborted (reached : s.Reached) (under : s.state.inHandshake = true) :
    Aborted (s.exec .close) := by
  have unreleased := reached.unreleased under
  simp only [State.inHandshake, ne_eq, Bool.and_eq_true, decide_eq_true_eq] at under
  have closes : Post close s (fun _ s' => Aborted s') (fun _ s' => Aborted s') := by
    unfold close
    rw [post_bind, post_get, if_neg under.2, if_pos under.1, post_set]
    exact ⟨rfl, Engine.abort_silent unreleased⟩
  exact post_state.mp closes

/-- What is polled is an event or comes from the engine. -/
theorem pollOutput_post {bufLen : Nat} {Q : Output → Server → Prop} {E : Server → Prop}
    (events : ∀ (output : Output) rest, output.carries = false → output ≠ .closeNotify →
      Q output { s with localEvents := rest })
    (kept : ∀ rest, E { s with localEvents := rest })
    (polls : Post (Engine.pollOutput bufLen s.lastNow) s.engine
      (fun output engine => Q output { s with engine }) fun _ engine => E { s with engine }) :
    Post (Server.pollOutput bufLen) s Q (fun _ => E) := by
  unfold Server.pollOutput
  rw [post_bind, post_get]
  split
  · rw [post_bind, post_set]
    refine ((LocalEvent.intoOutput_tells _).and (LocalEvent.intoOutput_readOnly _)).mono ?_ ?_
    · rintro output _ ⟨⟨notData, notClose⟩, rfl⟩
      exact events output _ notData notClose
    · rintro _ _ ⟨-, rfl⟩
      exact kept _
  · unfold Server.withEngine
    rw [post_zoom]
    exact polls

theorem pollOutput_aborted (aborted : Aborted s) {bufLen : Nat} :
    Post (Server.pollOutput bufLen) s (fun output s' => output.carries = false ∧ Aborted s')
      (fun _ s' => Aborted s') := by
  have popped : ∀ rest, Aborted { s with localEvents := rest } := fun _ =>
    ⟨aborted.closed, aborted.silent⟩
  refine pollOutput_post (fun _ rest notData _ => ⟨notData, popped rest⟩) popped ?_
  exact (pollOutput_hushes aborted.silent).mono
    (fun _ engine polled => ⟨polled.1, aborted.closed, polled.2⟩)
    fun _ engine silent => ⟨aborted.closed, silent⟩

theorem handleTimeout_aborted (aborted : Aborted s) {now : Instant} :
    Post (Server.handleTimeout now) s (fun _ s' => Aborted s') (fun _ s' => Aborted s') := by
  have drawn : ∀ s : Server, Aborted s →
      Post (Server.initRandom now) s (fun _ s' => Aborted s') (fun _ _ => False) := by
    intro s aborted
    unfold Server.initRandom
    rw [post_bind, post_get]
    split
    · exact aborted
    · unfold Server.withEngine newRandom randomArr
      simp only [post_bind, post_zoom, post_get, post_set, post_pure, post_modify]
      exact ⟨aborted.closed, aborted.silent.of_voice rfl⟩
  have noted : Aborted { s with lastNow := now } := ⟨aborted.closed, aborted.silent⟩
  unfold Server.handleTimeout
  rw [post_bind, post_modify, post_bind]
  refine (drawn _ noted).mono (fun _ s₁ aborted => ?_) fun _ _ never => never.elim
  unfold Server.withEngine
  rw [post_bind, post_zoom]
  refine (handleTimeout_hushes aborted.silent).mono (fun _ engine silent => ?_) fun _ engine silent =>
    ⟨aborted.closed, silent⟩
  have timed : Aborted { s₁ with engine } := ⟨aborted.closed, silent⟩
  rw [post_publicResult]
  exact (makeProgress_aborted timed).mono (fun _ _ same => same ▸ timed) fun _ _ never => never.elim

/-- Nothing ends the silence. -/
theorem exec_aborted (aborted : Aborted s) (call : Call) : Aborted (s.exec call) := by
  apply post_state.mp
  cases call with
  | handlePacket packet =>
      unfold Call.program Server.handlePacket Server.withEngine
      rw [post_publicResult, post_bind, post_zoom]
      refine (receivePacket_hushes _).mono (fun _ engine hushed => ?_) fun fault engine hushed => by
        cases fault <;> exact ⟨aborted.closed, hushed aborted.silent⟩
      have received : Aborted { s with engine } := ⟨aborted.closed, hushed aborted.silent⟩
      exact (makeProgress_aborted received).mono (fun _ _ same => same ▸ received) fun _ _ never => never.elim
  | handleTimeout now => exact handleTimeout_aborted aborted
  | pollOutput bufLen =>
      unfold Call.program
      rw [post_bind]
      exact (pollOutput_aborted aborted).mono (fun _ _ polled => polled.2) fun _ _ failed => failed
  | sendApplicationData data =>
      unfold Call.program sendApplicationData
      rw [post_bind, post_get, if_pos aborted.closed]
      exact aborted
  | close =>
      unfold Call.program close
      rw [post_bind, post_get, if_pos aborted.closed]
      exact aborted

theorem output_aborted (aborted : Aborted s) {call : Call} {value : Output}
    (told : s.output call = some value) : value.carries = false := by
  cases call with
  | pollOutput bufLen =>
      have polled := @pollOutput_aborted s aborted bufLen
      rw [Post, ok_of_value told] at polled
      exact polled.1
  | _ => cases told

theorem sendApplicationData_aborted (aborted : Aborted s) (data : Bytes) :
    sendApplicationData data s = .error (.fatal .connectionClosed) s := by
  simp [sendApplicationData, aborted.closed, bind, EStateM.bind, run_get, run_throw]

/-- A close that was reported stays so. -/
theorem exec_reports {call : Call} : Reports s.engine (s.exec call).engine := by
  have timeout : ∀ {now}, Along Reports (Engine.handleTimeout now) :=
    handleTimeout_along (fun _ _ _ _ _ => id) (reports_of_keeps flightResend_reported)
  exact exec_conduct timeout reports_conducts

/-- A close is told when it was not told before. -/
theorem output_closeNotify {call : Call} (told : s.output call = some .closeNotify) :
    s.engine.closeNotifyReported = false ∧ (s.exec call).engine.closeNotifyReported = true := by
  cases call with
  | pollOutput bufLen =>
      have polled : Post (Server.pollOutput bufLen) s (fun value s' => value = .closeNotify →
          s.engine.closeNotifyReported = false ∧ s'.engine.closeNotifyReported = true)
          (fun _ _ => True) := by
        refine pollOutput_post (fun _ _ _ notClose isClose => absurd isClose notClose)
          (fun _ => trivial) ?_
        refine pollOutput_reported.mono (fun output engine polled isClose => ?_) fun _ _ _ => trivial
        exact polled.elim (fun kept => absurd isClose kept.1) fun closes => closes.2
      obtain ⟨last, isOk⟩ : ∃ last, Server.pollOutput bufLen s = .ok .closeNotify last :=
        ⟨_, ok_of_value told⟩
      have isLast : s.exec (.pollOutput bufLen) = last := by
        simp only [exec, finalState, Call.program, bind, EStateM.bind, isOk]
        rfl
      rw [Post, isOk] at polled
      rw [isLast]
      exact polled rfl
  | _ => cases told

end Aborting

end Server

end Dimpl.Dtls12
