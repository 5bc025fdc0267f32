import Dimpl.Dtls13.Engine.Drain
import Dimpl.Dtls13.Engine.Timers

/-!
# The instant a drain reports

Draining hands out what there is without touching the clock. It may schedule an
acknowledgement of the handshake, once.
-/

namespace Dimpl.Dtls13

open Nom Program

namespace Engine

/-- The deadline of an acknowledgement after a poll. -/
def ackDeadline (now : Instant) (e : Engine) : Option Instant :=
  (e.maybeScheduleHandshakeAck now).handshakeAckDeadline

/-- The instant that a poll reports. -/
def wakeup (now : Instant) (e : Engine) : Instant :=
  { e with handshakeAckDeadline := e.ackDeadline now }.pollTimeout now

/-- An acknowledgement of the handshake is due at once: its deadline has passed, or there
is a gap and none is scheduled. -/
def AckDue (now : Instant) (e : Engine) : Prop :=
  e.handshakeInProgress = true ∧
    match e.handshakeAckDeadline with
    | some deadline => deadline ≤ now
    | none => e.hasGapInIncomingHandshake = true

end Engine

section Scheduling

variable {e e' : Engine} {now : Instant}

theorem Engine.purge_scanFragments : e.purgeHandledQueueRx.scanFragments = e.scanFragments := by
  unfold Engine.scanFragments Engine.rxRecords
  have same := @Backlog.dropWhile_purge _ _ Incoming.records Record.isHandled e.queueRx
  unfold Backlog.purge at same
  unfold Engine.purgeHandledQueueRx
  rw [same]

theorem Engine.purge_helpNeeded :
    e.purgeHandledQueueRx.handshakeAckHelpNeeded = e.handshakeAckHelpNeeded := by
  unfold Engine.handshakeAckHelpNeeded Engine.scanFirst
  rw [Engine.purge_scanFragments]
  rfl

theorem Engine.purge_hasGap :
    e.purgeHandledQueueRx.hasGapInIncomingHandshake = e.hasGapInIncomingHandshake := by
  unfold Engine.hasGapInIncomingHandshake Engine.scanFirst
  rw [Engine.purge_scanFragments]
  rfl

/-- A gap asks for help. -/
theorem Engine.helpNeeded_of_gap (gap : e.hasGapInIncomingHandshake = true) :
    e.handshakeAckHelpNeeded = true := by
  unfold Engine.hasGapInIncomingHandshake at gap
  unfold Engine.handshakeAckHelpNeeded
  obtain ⟨first, found, isGap⟩ := (Option.any_eq_true _ _).mp gap
  refine (Option.any_eq_true _ _).mpr ⟨first, found, ?_⟩
  simp only [Bool.or_eq_true, decide_eq_true_eq] at isGap ⊢
  refine isGap.imp_right fun isGap complete => ?_
  cases isGap.symm.trans complete

/-- When an acknowledgement is due. -/
theorem Engine.ackDeadline_eq :
    e.ackDeadline now =
      if e.handshakeInProgress = false then none
      else match e.handshakeAckDeadline with
        | some deadline => some deadline
        | none =>
          if e.handshakeAckHelpNeeded = false then none
          else if e.hasGapInIncomingHandshake = true then some now
          else some (now + e.flightBackoff.rto / 4) := by
  unfold Engine.ackDeadline Engine.maybeScheduleHandshakeAck
  cases e.handshakeInProgress with
  | false => rfl
  | true =>
      cases scheduled : e.handshakeAckDeadline with
      | some deadline => simp [scheduled]
      | none =>
          cases e.handshakeAckHelpNeeded with
          | false => simp [scheduled]
          | true =>
              cases e.hasGapInIncomingHandshake with
              | false => simp
              | true => simp

theorem Engine.purge_ackDeadline : e.purgeHandledQueueRx.ackDeadline now = e.ackDeadline now := by
  rw [Engine.ackDeadline_eq, Engine.ackDeadline_eq, Engine.purge_helpNeeded, Engine.purge_hasGap]
  rfl

theorem Engine.schedule_eq :
    e.maybeScheduleHandshakeAck now = { e with handshakeAckDeadline := e.ackDeadline now } := by
  unfold Engine.ackDeadline Engine.maybeScheduleHandshakeAck
  dsimp only
  split
  · rfl
  · split
    · rfl
    · split <;> rfl

/-- Scheduling once is enough. -/
theorem Engine.schedule_ackDeadline :
    (e.maybeScheduleHandshakeAck now).ackDeadline now = e.ackDeadline now := by
  have kept : { e with handshakeAckDeadline := e.ackDeadline now }.ackDeadline now =
      if e.handshakeInProgress = false then none
      else match e.ackDeadline now with
        | some deadline => some deadline
        | none =>
          if e.handshakeAckHelpNeeded = false then none
          else if e.hasGapInIncomingHandshake = true then some now
          else some (now + e.flightBackoff.rto / 4) := Engine.ackDeadline_eq
  have first := @Engine.ackDeadline_eq e now
  rw [Engine.schedule_eq, kept]
  cases deadline : e.ackDeadline now with
  | some instant =>
      rw [deadline] at first
      split
      · rename_i idle
        rw [if_pos idle] at first
        exact first.symm
      · rfl
  | none =>
      rw [deadline] at first
      split
      · rfl
      · rename_i busy
        rw [if_neg busy] at first
        cases scheduled : e.handshakeAckDeadline with
        | some instant =>
            rw [scheduled] at first
            cases first
        | none =>
            rw [scheduled] at first
            exact first.symm

theorem Engine.ackDeadline_sent {queueTx : List Bytes} :
    { e with queueTx }.ackDeadline now = e.ackDeadline now := by
  rw [Engine.ackDeadline_eq, Engine.ackDeadline_eq]
  rfl

theorem Engine.ackDeadline_closed {closeNotifyReported : Bool} :
    { e with closeNotifyReported }.ackDeadline now = e.ackDeadline now := by
  rw [Engine.ackDeadline_eq, Engine.ackDeadline_eq]
  rfl

/-- What a poll keeps of the instant it reports. -/
def Engine.SameWakeup (now : Instant) (e e' : Engine) : Prop :=
  e'.clock = e.clock ∧ e'.ackDeadline now = e.ackDeadline now

theorem Engine.SameWakeup.wakeup (same : Engine.SameWakeup now e e') :
    e'.wakeup now = e.wakeup now := by
  have connect := congrArg Clock.connectTimeout same.1
  have flight := congrArg Clock.flightTimeout same.1
  simp only [Engine.clock] at connect flight
  simp only [Engine.wakeup, Engine.pollTimeout, connect, flight, same.2]

end Scheduling

section Polling

variable {e e' : Engine} {now : Instant} {bufLen : Nat}

/-- Handing out application data happens behind the handshake only. -/
theorem pollAppData_wakeup :
    Post (pollAppData bufLen) e (fun _ e' => Engine.SameWakeup now e e') (fun _ _ => True) := by
  unfold pollAppData
  rw [post_bind, post_get, post_ite]
  refine ⟨fun _ => ⟨rfl, rfl⟩, fun isReleased => ?_⟩
  split
  · exact ⟨rfl, rfl⟩
  · rename_i r queueRx _
    simp only [post_ite]
    refine ⟨fun _ => trivial, fun _ => ⟨fun _ => trivial, fun _ => ?_⟩⟩
    rw [post_bind, post_set]
    have idle : ∀ e' : Engine, e'.releaseAppData = e.releaseAppData → e'.ackDeadline now = none := by
      intro e' same
      have ended : e'.handshakeInProgress = false := by
        simp only [Bool.not_eq_true, Bool.not_eq_false'] at isReleased
        unfold Engine.handshakeInProgress
        rw [same, isReleased, Bool.not_true, Bool.and_false]
      rw [Engine.ackDeadline_eq, if_pos ended]
    have after := idle ({ e with queueRx }.logEvent (.delivered r.fragment)) rfl
    exact ⟨rfl, after.trans (idle e rfl).symm⟩

/-- What a poll does to the instant it reports. -/
theorem pollOutput_wakeup :
    Post (Engine.pollOutput bufLen now) e
      (fun output e' => Engine.SameWakeup now e e' ∧ ∀ t, output = .timeout t → t = e.wakeup now)
      (fun _ _ => True) := by
  unfold Engine.pollOutput
  rw [post_bind, post_modify, post_bind]
  have purged : Engine.SameWakeup now e e.purgeHandledQueueRx := ⟨rfl, Engine.purge_ackDeadline⟩
  refine (@pollAppData_wakeup e.purgeHandledQueueRx now bufLen).mono ?_ fun _ _ _ => trivial
  intro data e₁ handed
  have before : Engine.SameWakeup now e e₁ :=
    ⟨handed.1.trans purged.1, handed.2.trans purged.2⟩
  cases data with
  | some data => exact ⟨before, fun _ isTimeout => by cases isTimeout⟩
  | none =>
      have scheduled : Engine.SameWakeup now e (e₁.maybeScheduleHandshakeAck now) :=
        ⟨Engine.maybeScheduleHandshakeAck_clock.trans before.1,
          Engine.schedule_ackDeadline.trans before.2⟩
      rw [post_bind, post_modify, post_bind]
      unfold pollPacketTx
      rw [post_bind, post_get]
      split
      · rw [post_pure, post_bind, post_get, post_ite]
        refine ⟨fun _ => ?_, fun _ => ⟨scheduled, fun t isTimeout => ?_⟩⟩
        · rw [post_bind, post_set]
          exact ⟨⟨scheduled.1, Engine.ackDeadline_closed.trans scheduled.2⟩,
            fun _ isTimeout => by cases isTimeout⟩
        · cases isTimeout
          rw [← before.wakeup, Engine.schedule_eq]
          rfl
      · rw [post_bind, post_set, post_ite]
        refine ⟨fun _ => trivial, fun _ => ?_⟩
        exact ⟨⟨scheduled.1, Engine.ackDeadline_sent.trans scheduled.2⟩,
          fun _ isTimeout => by cases isTimeout⟩

/-- A drain reports the instant that was due when it began. -/
theorem drained_wakeup {t : Instant} (drained : Drained (Engine.pollOutput bufLen now) e t e') :
    t = e.wakeup now := by
  have step : ∀ e₁ output e₂, Engine.SameWakeup now e e₁ →
      Engine.pollOutput bufLen now e₁ = .ok output e₂ → Engine.SameWakeup now e e₂ ∧
        ∀ t, output = .timeout t → t = e₁.wakeup now := by
    intro e₁ output e₂ before polled
    have after := @pollOutput_wakeup e₁ now bufLen
    rw [Post, polled] at after
    exact ⟨⟨after.1.1.trans before.1, after.1.2.trans before.2⟩, after.2⟩
  obtain ⟨e₁, before, polled⟩ := drained.last_poll
    (fun e₁ output e₂ before polled _ => (step e₁ output e₂ before polled).1) ⟨rfl, rfl⟩
  rw [(step e₁ _ e' before polled).2 t rfl, before.wakeup]

end Polling

section Instants

variable {e : Engine} {now : Instant}

/-- The next deadline apart from acknowledgements. -/
def Engine.nextDeadline (now : Instant) (e : Engine) : Instant :=
  { e with handshakeAckDeadline := none }.pollTimeout now

theorem Engine.wakeup_eq :
    e.wakeup now = match e.ackDeadline now with
      | some deadline => min deadline (e.nextDeadline now)
      | none => e.nextDeadline now := by
  have pick : ∀ deadline other : Instant,
      (if deadline < other then deadline else other) = min deadline other := by
    intro deadline other
    rcases Nat.lt_or_ge deadline other with early | late
    · rw [if_pos early, Nat.min_eq_left (Nat.le_of_lt early)]
    · rw [if_neg (Nat.not_lt.mpr late), Nat.min_eq_right late]
  unfold Engine.wakeup Engine.nextDeadline Engine.pollTimeout
  cases e.ackDeadline now with
  | none => rfl
  | some deadline => exact pick deadline _

theorem Engine.Ahead.nextDeadline (ahead : e.Ahead now) : now < e.nextDeadline now := by
  unfold Engine.nextDeadline Engine.pollTimeout
  dsimp only
  split
  · rename_i connect flight isConnect isFlight
    split
    · exact ahead.connect connect isConnect
    · exact ahead.flight flight isFlight
  · rename_i connect isConnect _
    exact ahead.connect connect isConnect
  · rename_i flight isFlight _
    exact ahead.flight flight isFlight
  · exact Nat.lt_add_of_pos_right (by decide)

/-- An acknowledgement is due when its deadline is not ahead. -/
theorem Engine.ackDue_iff : e.AckDue now ↔ ∃ deadline, e.ackDeadline now = some deadline ∧ deadline ≤ now := by
  unfold Engine.AckDue
  rw [Engine.ackDeadline_eq]
  cases e.handshakeInProgress with
  | false => simp
  | true =>
      cases e.handshakeAckDeadline with
      | some deadline => simp
      | none =>
          cases gap : e.hasGapInIncomingHandshake with
          | true => simp [Engine.helpNeeded_of_gap gap]
          | false =>
              have later : now < now + e.flightBackoff.rto / 4 := by
                refine Nat.lt_add_of_pos_right (Nat.div_pos ?_ (by decide))
                exact Nat.le_trans (by decide) (Nat.le_max_right _ _)
              cases e.handshakeAckHelpNeeded with
              | false => simp
              | true => simpa using later

/-- With its deadlines ahead, the instant an engine reports is ahead unless an
acknowledgement is due. -/
theorem Engine.lt_wakeup_iff (ahead : e.Ahead now) : now < e.wakeup now ↔ ¬e.AckDue now := by
  rw [Engine.ackDue_iff, Engine.wakeup_eq]
  cases e.ackDeadline now with
  | none => simpa using ahead.nextDeadline
  | some deadline => simpa [Nat.lt_min] using fun _ => ahead.nextDeadline

end Instants

end Dimpl.Dtls13
