import Dimpl.Dtls12.Engine.Posture

/-!
# The timers of an engine

Only a timeout call arms a timer. Everything else leaves the deadlines of the handshake
and of the flight as they are, takes them away or starts them over.
-/

namespace Dimpl.Dtls12

open Nom Program

/-- No timer is armed on the way. -/
structure Relaxes (e e' : Engine) : Prop where
  connect : e'.connectTimeout = e.connectTimeout ∨ e'.connectTimeout = .disabled
  flight : (e'.flightTimeout = e.flightTimeout ∧ e'.flightBackoff = e.flightBackoff) ∨
    e'.flightTimeout = .disabled ∨ e'.flightTimeout = .unarmed

section Relation

variable {e e' : Engine}

instance : Std.Refl Relaxes := ⟨fun _ => ⟨.inl rfl, .inl ⟨rfl, rfl⟩⟩⟩

instance : IsTrans Engine Relaxes := by
  refine ⟨fun e e' e'' first second => ⟨?_, ?_⟩⟩
  · rcases second.connect with same | disabled
    · rw [same]
      exact first.connect
    · exact .inr disabled
  · rcases second.flight with ⟨same, pace⟩ | idle
    · rw [same, pace]
      exact first.flight
    · exact .inr idle

theorem Relaxes.of_clock (same : e'.clock = e.clock) : Relaxes e e' :=
  ⟨.inl (congrArg Clock.connectTimeout same),
    .inl ⟨congrArg Clock.flightTimeout same, congrArg Clock.flightBackoff same⟩⟩

theorem relaxes_of_keeps {α : Type} {program : EngineM α} (keeps : Along (Keeps Engine.clock) program) :
    Along Relaxes program :=
  keeps.mono fun _ _ same => .of_clock same

theorem clock_of_posture {α : Type} {program : EngineM α}
    (keeps : Along (Keeps Engine.posture) program) : Along (Keeps Engine.clock) program :=
  keeps.mono fun _ _ same => congrArg Posture.clock same

theorem flightBegin_relaxes : Relaxes e e.flightBegin := ⟨.inl rfl, .inr (.inr rfl)⟩

theorem flightStopResendTimers_relaxes : Relaxes e e.flightStopResendTimers :=
  ⟨.inr rfl, .inr (.inl rfl)⟩

theorem abort_relaxes : Relaxes e e.abort := ⟨.inr rfl, .inr (.inl rfl)⟩

end Relation

section Handshakes

theorem createHandshake_relaxes {type : MessageType} {writeBody : EngineM Bytes}
    (builds : Along Relaxes writeBody) : Along Relaxes (createHandshake type writeBody) := by
  refine along_bind builds fun body => relaxes_of_keeps (along_get_bind fun e => ?_)
  rw [post_bind, post_set]
  refine Along.after (s := e) ?_ rfl
  exact along_bind handshakeOverhead_readOnly.along fun _ => clock_of_posture createFragments_posture

theorem setCipherSuite_clock {suite : Dtls12CipherSuite} :
    Along (Keeps Engine.clock) (setCipherSuite suite) := by
  refine along_get_bind fun e => ?_
  rw [post_bind, post_orThrow]
  exact ⟨fun _ _ => rfl, fun _ => rfl⟩

theorem enablePeerEncryption_clock : Along (Keeps Engine.clock) enablePeerEncryption := by
  have again : ∀ buffers, Along (Keeps Engine.clock) (reparse buffers) := by
    intro buffers
    induction buffers with
    | nil => exact along_pure
    | cons buffer rest inductionHypothesis =>
        exact along_bind (clock_of_posture parsePacket_posture) fun _ => inductionHypothesis
  refine along_get_bind fun e => ?_
  dsimp only
  rw [post_bind, post_set]
  exact (again _).after rfl

theorem nextHandshake_clock {wanted : MessageType} :
    Along (Keeps Engine.clock) (nextHandshake wanted) := by
  refine along_bind along_get fun e => along_ite (fun _ => ?_) fun _ => along_pure
  split
  · exact along_throw
  · refine along_bind (along_get_bind fun e => ?_) fun _ => ?_
    · dsimp only
      rw [post_bind, post_set]
      refine Along.after (s := e) ?_ rfl
      refine along_ite (fun _ => along_throw) fun _ => along_bind (along_modify fun _ => rfl) fun _ => ?_
      split
      · exact along_throw
      · exact along_ite (fun _ => along_throw) fun _ => along_pure
    · exact along_bind (along_modify fun _ => rfl) fun _ => along_pure

end Handshakes

/-- The flight is due within its timeout from a time on. -/
def Engine.Paced (now : Instant) (e : Engine) : Prop :=
  ∀ deadline, e.flightTimeout = .armed deadline → deadline ≤ now + e.flightBackoff.rto

section Timeouts

variable {e e' : Engine} {now : Instant}

theorem Relaxes.paced (relaxes : Relaxes e e') (paced : e.Paced now) : e'.Paced now := by
  intro deadline armed
  rcases relaxes.flight with ⟨same, pace⟩ | disabled | unarmed
  · rw [pace]
    exact paced deadline (same.symm.trans armed)
  · cases disabled.symm.trans armed
  · cases unarmed.symm.trans armed

theorem Engine.Paced.later {now' : Instant} (paced : e.Paced now) (later : now ≤ now') :
    e.Paced now' :=
  fun deadline armed => Nat.le_trans (paced deadline armed) (Nat.add_le_add_right later _)

theorem Engine.armTimers_paced (paced : e.Paced now) : (e.armTimers now).Paced now := by
  intro deadline armed
  simp only [Engine.armTimers] at armed ⊢
  split at armed
  · cases armed
    exact Nat.le_refl _
  · exact paced deadline armed

/-- Retransmission sets the timer anew or leaves it where it is. -/
theorem retransmit_paced {flightTimeout : Instant} (paced : e.Paced now) :
    Post (retransmit now flightTimeout) e (fun _ e' => e'.Paced now) (fun _ e' => e'.Paced now) := by
  unfold retransmit
  rw [post_ite]
  refine ⟨fun _ => paced, fun _ => ?_⟩
  rw [post_bind, post_get, post_ite]
  refine ⟨fun _ => ?_, fun _ => paced⟩
  rw [post_bind, post_set]
  refine (clock_of_posture flightResend_posture _).mono (fun _ e' same => ?_) fun _ e' same => ?_
  all_goals
    refine (Relaxes.of_clock same).paced ?_
    rintro deadline armed
    cases armed
    exact Nat.le_refl _

/-- A timeout call keeps the pace, however it ends. -/
theorem handleTimeout_paced (paced : e.Paced now) :
    Post (Engine.handleTimeout now) e (fun _ e' => e'.Paced now) (fun _ e' => e'.Paced now) := by
  have armed := Engine.armTimers_paced paced
  unfold Engine.handleTimeout
  rw [post_bind, post_modify, post_bind, post_get, post_ite]
  refine ⟨fun _ => armed, fun _ => ?_⟩
  split
  · exact retransmit_paced armed
  · exact armed

end Timeouts

end Dimpl.Dtls12
