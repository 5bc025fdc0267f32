import Dimpl.Dtls13.Engine.Frame
import Dimpl.Dtls13.Engine.Scope

/-!
# The timers of an engine

Only a timeout call arms a timer. Everything else leaves the deadlines of the handshake
and of the flight as they are, takes them away or starts them over.
-/

namespace Dimpl.Dtls13

open Nom Program

/-- The two deadlines and the pace of retransmission. -/
structure Clock where
  connectTimeout : Timeout
  flightTimeout : Timeout
  flightBackoff : ExponentialBackoff

/-- The clock of an engine. -/
def Engine.clock (e : Engine) : Clock := ⟨e.connectTimeout, e.flightTimeout, e.flightBackoff⟩

/-- No timer is armed on the way. -/
structure Relaxes (e e' : Engine) : Prop where
  connect : e'.connectTimeout = e.connectTimeout ∨ e'.connectTimeout = .disabled
  flight : (e'.flightTimeout = e.flightTimeout ∧ e'.flightBackoff = e.flightBackoff) ∨
    e'.flightTimeout = .disabled ∨ e'.flightTimeout = .unarmed

section Relation

variable {e e' : Engine}

instance : Std.Refl Relaxes := ⟨fun _ => ⟨.inl rfl, .inl ⟨rfl, rfl⟩⟩⟩

instance : IsTrans Engine Relaxes := by
  refine ⟨fun e e' e'' first second => ⟨?_, ?_⟩⟩
  · rcases second.connect with same | disabled
    · rw [same]
      exact first.connect
    · exact .inr disabled
  · rcases second.flight with ⟨same, pace⟩ | idle
    · rw [same, pace]
      exact first.flight
    · exact .inr idle

theorem Relaxes.of_clock (same : e'.clock = e.clock) : Relaxes e e' :=
  ⟨.inl (congrArg Clock.connectTimeout same),
    .inl ⟨congrArg Clock.flightTimeout same, congrArg Clock.flightBackoff same⟩⟩

theorem relaxes_of_keeps {α : Type} {program : EngineM α} (keeps : Along (Keeps Engine.clock) program) :
    Along Relaxes program :=
  keeps.mono fun _ _ same => .of_clock same

theorem flightBegin_relaxes : Relaxes e e.flightBegin := ⟨.inl rfl, .inr (.inr rfl)⟩

theorem flightStopResendTimers_relaxes : Relaxes e e.flightStopResendTimers :=
  ⟨.inr rfl, .inr (.inl rfl)⟩

theorem cancelFlights_relaxes : Relaxes e e.cancelFlights := ⟨.inr rfl, .inr (.inl rfl)⟩

theorem abort_relaxes : Relaxes e e.abort := ⟨.inr rfl, .inr (.inl rfl)⟩

end Relation

section Sending

theorem createCiphertextRecord_clock {contentType : ContentType} {epoch : Nat}
    {saveFragment : Bool} {fragment : Bytes} :
    Along (Keeps Engine.clock) (createCiphertextRecord contentType epoch saveFragment fragment) :=
  createCiphertextRecord_unspoken.through Engine.clock fun _ => rfl

theorem flightResend_clock : Along (Keeps Engine.clock) flightResend :=
  flightResend_unspoken.through Engine.clock fun _ => rfl

theorem createHandshake_clock {type : MessageType} {writeBody : EngineM Bytes}
    (readOnly : ReadOnly writeBody) :
    Along (Keeps Engine.clock) (createHandshake type writeBody) := by
  have fragments : ∀ header epoch fixedOverhead body fuel offset,
      Along (Keeps Engine.clock) (createFragments header epoch fixedOverhead body fuel offset) :=
    fun _ _ _ _ _ _ => createFragments_unspoken.through Engine.clock fun _ => rfl
  refine along_bind readOnly.along fun body => along_get_bind fun e => ?_
  rw [post_bind, post_set]
  refine Along.after (s := e) ?_ rfl
  refine along_ite (fun _ => fragments _ _ _ _ _ _) fun _ => ?_
  exact along_bind suiteProvider_readOnly.along fun _ => fragments _ _ _ _ _ _

theorem sendAck_clock : Along (Keeps Engine.clock) sendAck :=
  sendAck_unspoken.through Engine.clock fun _ => rfl

end Sending

section Keys

theorem installHandshakeKeys_clock {client server : Bytes} :
    Along (Keeps Engine.clock) (installHandshakeKeys client server) :=
  installHandshakeKeys_unkeyed.through Engine.clock fun _ => rfl

theorem installApplicationKeys_clock {client server : Bytes} :
    Along (Keeps Engine.clock) (installApplicationKeys client server) :=
  installApplicationKeys_unkeyed.through Engine.clock fun _ => rfl

theorem updateRecvKeys_clock : Along (Keeps Engine.clock) updateRecvKeys :=
  updateRecvKeys_unkeyed.through Engine.clock fun _ => rfl

/-- A KeyUpdate is a flight of its own. -/
theorem createKeyUpdate_relaxes {request : KeyUpdateRequest} :
    Along Relaxes (createKeyUpdate request) := by
  have updated : Along (Keeps Engine.clock) updateSendKeys :=
    updateSendKeys_unkeyed.through Engine.clock fun _ => rfl
  refine along_bind (along_modify fun _ => flightBegin_relaxes) fun _ => relaxes_of_keeps ?_
  refine along_get_bind fun e => ?_
  rw [post_bind, post_set]
  refine Along.after (s := e) ?_ rfl
  exact along_bind createCiphertextRecord_clock fun _ => updated

theorem deriveApplicationSecrets_clock {handshakeSecret : Bytes} :
    Along (Keeps Engine.clock) (deriveApplicationSecrets handshakeSecret) :=
  deriveApplicationSecrets_along fun _ _ => rfl

theorem replaceTranscriptWithMessageHash_clock {splitAt : Nat} :
    Along (Keeps Engine.clock) (replaceTranscriptWithMessageHash splitAt) :=
  replaceTranscriptWithMessageHash_along fun _ _ => rfl

end Keys

section Receiving

variable {e : Engine}

/-- An acknowledgement may stop the flight timer. -/
theorem Engine.processAck_relaxes {ackData : Bytes} : Relaxes e (e.processAck ackData) := by
  have ended : ∀ e : Engine, Relaxes e e.endHandshakeFlight := by
    intro e
    simp only [Engine.endHandshakeFlight]
    split
    · exact ⟨.inl rfl, .inr (.inl rfl)⟩
    · exact .of_clock rfl
  have forgotten : ∀ e : Engine, Relaxes e e.endKeyUpdate := by
    intro e
    unfold Engine.endKeyUpdate
    split
    · exact ⟨.inl rfl, .inr (.inl rfl)⟩
    · exact .of_clock rfl
  unfold Engine.processAck
  split
  · exact .of_clock rfl
  · rename_i acked _
    have marked : Relaxes e (e.markAcked acked) := .of_clock rfl
    exact IsTrans.trans _ _ _ (IsTrans.trans _ _ _ marked (ended _)) (forgotten _)

theorem classifyRecord_relaxes {r : Record} : Along Relaxes (classifyRecord r) := by
  refine along_get_bind fun e => ?_
  have same : Relaxes e e := .of_clock rfl
  simp only [post_ite, post_pure]
  refine ⟨fun _ => same, fun _ => ⟨fun _ => same, fun _ => ⟨fun _ => ?_, fun _ => ?_⟩⟩⟩
  · rw [post_bind, post_set]
    exact Engine.processAck_relaxes
  · refine ⟨fun _ => ?_, fun _ => ⟨fun _ => same, fun _ => same⟩⟩
    cases r.fragment[1]? with
    | none => exact same
    | some description =>
        simp only [post_ite, post_pure, post_throw]
        refine ⟨fun _ => ?_, fun _ => ⟨fun _ => same, fun _ => same⟩⟩
        rw [post_bind, post_set]
        exact .of_clock rfl

theorem classifyRecords_relaxes {records : List Record} : Along Relaxes (classifyRecords records) := by
  induction records with
  | nil => exact along_pure
  | cons r rest inductionHypothesis =>
      refine along_bind classifyRecord_relaxes fun _ => ?_
      exact along_bind inductionHypothesis fun _ => along_pure

theorem parsePacket_relaxes {packet : Bytes} : Along Relaxes (parsePacket packet) := by
  have opened : Along (Keeps Engine.clock) (parseRecordsLoop packet.length packet []) :=
    parseRecordsLoop_unopened.through Engine.clock fun _ => rfl
  have inserted : ∀ incoming, Along (Keeps Engine.clock) (insertIncoming incoming) :=
    fun _ => insertIncoming_unqueued.through Engine.clock fun _ => rfl
  refine along_bind (along_bind (relaxes_of_keeps opened) fun _ => classifyRecords_relaxes)
    fun records => ?_
  split
  · exact along_pure
  · exact relaxes_of_keeps (inserted _)

theorem receivePacket_relaxes {datagram : Bytes} : Along Relaxes (receivePacket datagram) :=
  along_bind (along_modify fun _ => .of_clock rfl) fun _ => parsePacket_relaxes

theorem enablePeerEncryption_relaxes : Along Relaxes enablePeerEncryption := by
  have again : ∀ buffers, Along Relaxes (reparse buffers) := by
    intro buffers
    induction buffers with
    | nil => exact along_pure
    | cons buffer rest inductionHypothesis =>
        exact along_bind parsePacket_relaxes fun _ => inductionHypothesis
  refine along_get_bind fun e => ?_
  dsimp only
  rw [post_bind, post_set]
  exact (again _).after (.of_clock rfl)

end Receiving

section Consuming

variable {e : Engine}

theorem nextHandshakeWithOptions_clock {wanted : MessageType}
    {withTranscript allowUnknownClientHelloSuites : Bool} : Along (Keeps Engine.clock)
      (nextHandshakeWithOptions wanted withTranscript allowUnknownClientHelloSuites) :=
  nextHandshakeWithOptions_unread.through Engine.clock fun _ => rfl

theorem Engine.maybeScheduleHandshakeAck_clock {now : Instant} :
    (e.maybeScheduleHandshakeAck now).clock = e.clock := by
  have same : (e.maybeScheduleHandshakeAck now).unspoken.clock = e.unspoken.clock :=
    congrArg Engine.clock Engine.maybeScheduleHandshakeAck_unspoken
  exact same

theorem maybeFlushHandshakeAck_clock {now : Instant} :
    Along (Keeps Engine.clock) (maybeFlushHandshakeAck now) :=
  maybeFlushHandshakeAck_unspoken.through Engine.clock fun _ => rfl

theorem pollOutput_clock {bufLen : Nat} {now : Instant} :
    Along (Keeps Engine.clock) (Engine.pollOutput bufLen now) :=
  pollOutput_unpolled.through Engine.clock fun _ => rfl

end Consuming

namespace Engine

/-- Every armed deadline is ahead. -/
structure Ahead (now : Instant) (e : Engine) : Prop where
  connect : ∀ deadline, e.connectTimeout = .armed deadline → now < deadline
  flight : ∀ deadline, e.flightTimeout = .armed deadline → now < deadline

/-- The flight is due within its timeout from a time on. -/
def Paced (now : Instant) (e : Engine) : Prop :=
  ∀ deadline, e.flightTimeout = .armed deadline → deadline ≤ now + e.flightBackoff.rto

end Engine

section Timeouts

variable {e e' : Engine} {now : Instant}

theorem Relaxes.ahead (relaxes : Relaxes e e') (ahead : e.Ahead now) : e'.Ahead now := by
  refine ⟨fun deadline armed => ?_, fun deadline armed => ?_⟩
  · rcases relaxes.connect with same | disabled
    · exact ahead.connect deadline (same.symm.trans armed)
    · cases disabled.symm.trans armed
  · rcases relaxes.flight with ⟨same, _⟩ | disabled | unarmed
    · exact ahead.flight deadline (same.symm.trans armed)
    · cases disabled.symm.trans armed
    · cases unarmed.symm.trans armed

theorem Relaxes.paced (relaxes : Relaxes e e') (paced : e.Paced now) : e'.Paced now := by
  intro deadline armed
  rcases relaxes.flight with ⟨same, pace⟩ | disabled | unarmed
  · rw [pace]
    exact paced deadline (same.symm.trans armed)
  · cases disabled.symm.trans armed
  · cases unarmed.symm.trans armed

theorem Engine.Paced.later {now' : Instant} (paced : e.Paced now) (later : now ≤ now') :
    e.Paced now' :=
  fun deadline armed => Nat.le_trans (paced deadline armed) (Nat.add_le_add_right later _)

theorem Engine.armTimers_paced (paced : e.Paced now) : (e.armTimers now).Paced now := by
  intro deadline armed
  simp only [Engine.armTimers] at armed ⊢
  split at armed
  · cases armed
    exact Nat.le_refl _
  · exact paced deadline armed

/-- Retransmission sets the timer anew or leaves it where it is. -/
theorem retransmit_paced {flightTimeout : Instant} (paced : e.Paced now) :
    Post (retransmit now flightTimeout) e (fun _ e' => e'.Paced now) (fun _ e' => e'.Paced now) := by
  unfold retransmit
  rw [post_ite]
  refine ⟨fun _ => paced, fun _ => ?_⟩
  rw [post_bind, post_get, post_ite]
  refine ⟨fun _ => ?_, fun _ => paced⟩
  rw [post_bind, post_set]
  refine (flightResend_clock _).mono (fun _ e' same => ?_) fun _ e' same => ?_
  all_goals
    refine (Relaxes.of_clock same).paced ?_
    rintro deadline armed
    cases armed
    exact Nat.le_refl _

/-- A timeout call keeps the pace, however it ends. -/
theorem handleTimeout_paced (paced : e.Paced now) :
    Post (Engine.handleTimeout now) e (fun _ e' => e'.Paced now) (fun _ e' => e'.Paced now) := by
  have armed := Engine.armTimers_paced paced
  unfold Engine.handleTimeout
  rw [post_bind, post_modify, post_bind, post_get, post_ite]
  refine ⟨fun _ => armed, fun _ => ?_⟩
  split
  · rw [post_bind]
    refine (retransmit_paced armed).mono (fun _ e₁ sent => ?_) fun _ _ kept => kept
    have flushed : Along (Keeps Engine.clock) (do
        modify (Engine.maybeScheduleHandshakeAck now)
        maybeFlushHandshakeAck now) :=
      along_bind (along_modify fun _ => Engine.maybeScheduleHandshakeAck_clock) fun _ =>
        maybeFlushHandshakeAck_clock
    exact (flushed e₁).mono (fun _ _ same => (Relaxes.of_clock same).paced sent)
      fun _ _ same => (Relaxes.of_clock same).paced sent
  · exact armed

theorem retransmit_ahead {flightTimeout : Instant} (isFlight : e.flightTimeout = .armed flightTimeout)
    (connect : ∀ deadline, e.connectTimeout = .armed deadline → now < deadline) :
    Post (retransmit now flightTimeout) e (fun _ e' => e'.Ahead now) (fun _ _ => True) := by
  unfold retransmit
  rw [post_ite]
  refine ⟨fun early => ⟨connect, fun deadline armed => ?_⟩, fun _ => ?_⟩
  · cases isFlight.symm.trans armed
    exact early
  · rw [post_bind, post_get, post_ite]
    refine ⟨fun _ => ?_, fun _ => trivial⟩
    rw [post_bind, post_set]
    refine (flightResend_clock _).mono (fun _ e' same => ?_) fun _ _ _ => trivial
    refine (Relaxes.of_clock same).ahead ⟨connect, ?_⟩
    rintro deadline armed
    cases armed
    exact Nat.lt_add_of_pos_right (ExponentialBackoff.rto_pos _)

/-- After a timeout call that succeeds no deadline has passed. -/
theorem handleTimeout_ahead :
    Post (Engine.handleTimeout now) e (fun _ e' => e'.Ahead now) (fun _ _ => True) := by
  unfold Engine.handleTimeout
  rw [post_bind, post_modify, post_bind, post_get, post_ite]
  refine ⟨fun _ => trivial, fun early => ?_⟩
  have connect : ∀ deadline, (e.armTimers now).connectTimeout = .armed deadline → now < deadline := by
    intro deadline armed
    rw [armed] at early
    simp only [ge_iff_le, decide_eq_true_eq, Nat.not_le] at early
    exact early
  split
  · rename_i flightTimeout isFlight
    rw [post_bind]
    refine (retransmit_ahead isFlight connect).mono (fun _ e₁ ahead => ?_) fun _ _ _ => trivial
    rw [post_bind, post_modify]
    refine (maybeFlushHandshakeAck_clock _).mono (fun _ e' same => ?_) fun _ _ _ => trivial
    have scheduled : (e₁.maybeScheduleHandshakeAck now).clock = e₁.clock :=
      Engine.maybeScheduleHandshakeAck_clock
    exact (Relaxes.of_clock (same.trans scheduled)).ahead ahead
  · rename_i notArmed
    exact ⟨connect, fun deadline armed => absurd armed (notArmed deadline)⟩

end Timeouts

end Dimpl.Dtls13
