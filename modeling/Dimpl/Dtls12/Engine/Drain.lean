import Dimpl.Drain
import Dimpl.Dtls12.Engine.Consume
import Dimpl.Dtls12.Engine.Faults
import Dimpl.Lib.Backlog

/-!
# Draining a DTLS 1.2 engine

`poll_output` hands out application data from anywhere in the receive queue, and removes
from the front the datagrams that are done with.
-/

namespace Dimpl.Dtls12

open Nom Program

/-- Whether a record is application data. -/
def Record.isData (r : Record) : Bool := r.record.contentType = .applicationData

namespace Engine

/-- No datagram of the receive queue holds application data. -/
def NoData (e : Engine) : Prop := ∀ item ∈ e.queueRx, ∀ r ∈ item.records, r.isData = false

/-- Neither behind nor beside a record other than application data that waits to be handled
is there any application data. -/
def Unclogged (e : Engine) : Prop := Backlog.Free Incoming.records Record.isHandled Record.isData e.queueRx

/-- The datagrams from the first one on with such a record. -/
def leftover (e : Engine) : List Incoming :=
  Backlog.stuck Incoming.records Record.isHandled Record.isData e.queueRx

/-- What handing out application data does not change. -/
structure SameBacklog (e e' : Engine) : Prop where
  released : e'.releaseAppData = e.releaseAppData
  config : e'.config = e.config
  kinds : Backlog.stuckKinds Incoming.records Record.isHandled Record.isData e'.queueRx =
    Backlog.stuckKinds Incoming.records Record.isHandled Record.isData e.queueRx

end Engine

section Queue

variable {queue marked : List Incoming} {records markedRecords : List Record} {found : Record}

theorem markFirstRecord_shape
    (taken : markFirstRecord (fun r => r.record.contentType = .applicationData && !r.isHandled)
      records = some (found, markedRecords)) :
    (markedRecords.map fun r => (r.isData, r.isHandled || r.isData)) =
      records.map fun r => (r.isData, r.isHandled || r.isData) := by
  induction records generalizing markedRecords with
  | nil => cases taken
  | cons r rest inductionHypothesis =>
      unfold markFirstRecord at taken
      split at taken
      · rename_i isNext
        have isData : r.isData = true := (Bool.and_eq_true _ _ ▸ isNext).1
        have marks : Record.isData { r with handled := true } = true := isData
        cases taken
        simp only [List.map_cons, isData, marks, Bool.or_true]
      · obtain ⟨⟨other, others⟩, inRest, isMarked⟩ := Option.map_eq_some_iff.mp taken
        cases isMarked
        simp only [List.map_cons, inductionHypothesis inRest]

/-- Handing out a record of application data leaves the shape of the queue. -/
theorem markFirst_shape
    (taken : markFirst (fun r => r.record.contentType = .applicationData && !r.isHandled) queue =
      some (found, marked)) :
    marked.map (Backlog.shape Incoming.records Record.isHandled Record.isData) =
      queue.map (Backlog.shape Incoming.records Record.isHandled Record.isData) := by
  induction queue generalizing marked with
  | nil => cases taken
  | cons incoming rest inductionHypothesis =>
      unfold markFirst at taken
      split at taken
      · rename_i r first others inIncoming
        cases taken
        have shape := markFirstRecord_shape inIncoming
        exact congrArg (· :: _) shape
      · obtain ⟨⟨other, others⟩, inRest, isMarked⟩ := Option.map_eq_some_iff.mp taken
        cases isMarked
        simp only [List.map_cons, inductionHypothesis inRest]

theorem markFirstRecord_none {p : Record → Bool} (missing : markFirstRecord p records = none) :
    ∀ r ∈ records, p r = false := by
  induction records with
  | nil => exact fun _ member => absurd member List.not_mem_nil
  | cons r rest inductionHypothesis =>
      unfold markFirstRecord at missing
      split at missing
      · cases missing
      · rename_i fails
        have others := inductionHypothesis (Option.map_eq_none_iff.mp missing)
        exact List.forall_mem_cons.mpr ⟨Bool.eq_false_of_not_eq_true fails, others⟩

theorem markFirst_none {p : Record → Bool} (missing : markFirst p queue = none) :
    ∀ item ∈ queue, ∀ r ∈ item.records, p r = false := by
  induction queue with
  | nil => exact fun _ member => absurd member List.not_mem_nil
  | cons incoming rest inductionHypothesis =>
      unfold markFirst at missing
      split at missing
      · cases missing
      · rename_i absent
        have others := inductionHypothesis (Option.map_eq_none_iff.mp missing)
        refine List.forall_mem_cons.mpr ⟨markFirstRecord_none ?_, others⟩
        -- A record that is taken leaves at least itself.
        cases taken : markFirstRecord p incoming.records with
        | none => rfl
        | some result =>
            obtain ⟨r, records'⟩ := result
            cases records' with
            | nil => simpa [Incoming.records] using (markFirstRecord_some taken).2.2
            | cons first others => exact absurd taken (absent r first others)

end Queue

/-- What concerns received records is unchanged. -/
structure Engine.SameRx (e e' : Engine) : Prop where
  queue : e'.queueRx = e.queueRx
  released : e'.releaseAppData = e.releaseAppData
  config : e'.config = e.config

instance : Std.Refl Engine.SameRx := ⟨fun _ => ⟨rfl, rfl, rfl⟩⟩

instance : IsTrans Engine Engine.SameRx :=
  ⟨fun _ _ _ first second => ⟨second.queue.trans first.queue,
    second.released.trans first.released, second.config.trans first.config⟩⟩

section Polling

variable {e e' e'' : Engine}

theorem Engine.SameBacklog.trans (first : Engine.SameBacklog e e')
    (second : Engine.SameBacklog e' e'') : Engine.SameBacklog e e'' :=
  ⟨second.released.trans first.released, second.config.trans first.config,
    second.kinds.trans first.kinds⟩

theorem Engine.SameRx.sameBacklog (same : Engine.SameRx e e') : Engine.SameBacklog e e' :=
  ⟨same.released, same.config, by rw [same.queue]⟩

theorem purge_sameBacklog : Engine.SameBacklog e e.purgeHandledQueueRx :=
  ⟨rfl, rfl, Backlog.stuckKinds_purge⟩

/-- `poll_app_data` hands out a record, or there is none left. -/
theorem pollAppData_backlog {bufLen : Nat} :
    Post (pollAppData bufLen) e
      (fun result e' => match result with
        | some _ => Engine.SameBacklog e e'
        | none => e' = e ∧ (e.releaseAppData = true →
            ∀ item ∈ e.queueRx, ∀ r ∈ item.records, r.isData = true → r.isHandled = true))
      (fun _ _ => True) := by
  unfold pollAppData
  rw [post_bind, post_get, post_ite]
  refine ⟨fun closed => ⟨rfl, fun released => ?_⟩, fun _ => ?_⟩
  · simp [released] at closed
  cases taken : markFirst (fun r => r.record.contentType = .applicationData && !r.isHandled)
      e.queueRx with
  | none =>
      refine ⟨rfl, fun _ item inQueue r inItem isData => ?_⟩
      have absent := markFirst_none taken item inQueue r inItem
      by_contra pending
      simp only [Record.isData, decide_eq_true_eq] at isData
      simp [isData, pending] at absent
  | some result =>
      obtain ⟨r, marked⟩ := result
      dsimp only
      rw [post_ite]
      refine ⟨fun _ => trivial, fun _ => ?_⟩
      rw [post_bind]
      unfold assertNoHandshakes
      rw [post_ite]
      refine ⟨fun _ => ?_, fun _ => trivial⟩
      rw [post_pure, post_bind, post_set]
      exact ⟨rfl, rfl, Backlog.stuckKinds_of_shape (markFirst_shape taken)⟩

theorem pollPacketTx_sameRx {bufLen : Nat} : Along Engine.SameRx (pollPacketTx bufLen) := by
  refine along_get_bind fun e => ?_
  split
  · exact ⟨rfl, rfl, rfl⟩
  · rw [post_bind, post_set, post_ite]
    exact ⟨fun _ => ⟨rfl, rfl, rfl⟩, fun _ => ⟨rfl, rfl, rfl⟩⟩

/-- What one poll does to the receive queue. -/
theorem pollOutput_backlog {bufLen : Nat} {now : Instant} :
    Post (Engine.pollOutput bufLen now) e
      (fun output e' => Engine.SameBacklog e e' ∧
        ∀ t, output = .timeout t → e.releaseAppData = true → e'.queueRx = e'.leftover)
      (fun _ _ => True) := by
  unfold Engine.pollOutput
  rw [post_bind, post_modify, post_bind]
  refine pollAppData_backlog.mono ?_ fun _ _ _ => trivial
  intro data e₁ handed
  cases data with
  | some data => exact ⟨purge_sameBacklog.trans handed, fun _ isTimeout => by cases isTimeout⟩
  | none =>
      obtain ⟨rfl, taken⟩ := handed
      -- The rest of the poll does not look at received records.
      have rest : Along Engine.SameRx (do
          match ← pollPacketTx bufLen with
          | some packet => return Output.packet packet
          | none =>
            let e ← get
            if e.closeNotifyReceived && !e.closeNotifyReported then
              set { e with closeNotifyReported := true }
              return .closeNotify
            else
              return .timeout (e.pollTimeout now)) := by
        refine along_bind pollPacketTx_sameRx fun packet => ?_
        cases packet with
        | some packet => exact along_pure
        | none =>
            refine along_get_bind fun e => ?_
            rw [post_ite]
            refine ⟨fun _ => ?_, fun _ => ⟨rfl, rfl, rfl⟩⟩
            rw [post_bind, post_set]
            exact ⟨rfl, rfl, rfl⟩
      refine (rest e.purgeHandledQueueRx).mono (fun output e' same => ?_) fun _ _ _ => trivial
      refine ⟨purge_sameBacklog.trans same.sameBacklog, fun t _ released => ?_⟩
      have purged := Backlog.purge_eq_stuck (taken released)
      have twice : Backlog.purge Incoming.records Record.isHandled e.purgeHandledQueueRx.queueRx =
          e.purgeHandledQueueRx.queueRx := List.dropWhile_idempotent _ _
      unfold Engine.leftover
      rw [same.queue, ← purged, twice]

/-- What a drain leaves in the receive queue. -/
theorem drained_backlog {bufLen : Nat} {now t : Instant}
    (drained : Drained (Engine.pollOutput bufLen now) e t e') (released : e.releaseAppData = true) :
    Engine.SameBacklog e e' ∧ e'.queueRx = e'.leftover := by
  have step : ∀ e₁ output e₂, Engine.SameBacklog e e₁ →
      Engine.pollOutput bufLen now e₁ = .ok output e₂ → Engine.SameBacklog e e₂ ∧
        ∀ t, output = .timeout t → e₁.releaseAppData = true → e₂.queueRx = e₂.leftover := by
    intro e₁ output e₂ before polled
    have after := @pollOutput_backlog e₁ bufLen now
    rw [Post, polled] at after
    exact ⟨before.trans after.1, after.2⟩
  obtain ⟨e₁, before, polled⟩ := drained.last_poll
    (fun e₁ output e₂ before polled _ => (step e₁ output e₂ before polled).1) ⟨rfl, rfl, rfl⟩
  obtain ⟨after, settled⟩ := step e₁ _ e' before polled
  exact ⟨after, settled t rfl (before.released.trans released)⟩

/-- A drain empties the queue of application data exactly when nothing else holds it up. -/
theorem drained_noData_iff {bufLen : Nat} {now t : Instant}
    (drained : Drained (Engine.pollOutput bufLen now) e t e') (released : e.releaseAppData = true) :
    e'.NoData ↔ e.Unclogged := by
  obtain ⟨same, settled⟩ := drained_backlog drained released
  have free : e'.NoData ↔ e'.Unclogged := by
    unfold Engine.NoData Engine.Unclogged Backlog.Free
    rw [settled]
    unfold Engine.leftover
    rw [Backlog.stuck_stuck]
  rw [free]
  unfold Engine.Unclogged
  rw [Backlog.free_iff_stuckKinds, Backlog.free_iff_stuckKinds, same.kinds]

/-- As many datagrams stay as were held up. -/
theorem drained_length {bufLen : Nat} {now t : Instant}
    (drained : Drained (Engine.pollOutput bufLen now) e t e') (released : e.releaseAppData = true) :
    e'.queueRx.length = e.leftover.length := by
  obtain ⟨same, settled⟩ := drained_backlog drained released
  rw [settled]
  unfold Engine.leftover
  rw [← Backlog.length_stuckKinds, ← Backlog.length_stuckKinds, same.kinds]

end Polling

section Receiving

variable {e : Engine}

theorem parseRecord_sameRx {recordSlice : Bytes} : Along Engine.SameRx (parseRecord recordSlice) := by
  refine along_bind along_get fun e => ?_
  split
  · exact along_pure
  · refine along_ite (fun _ => along_pure) fun _ => ?_
    refine along_bind along_get fun e => along_ite (fun _ => along_pure) fun _ => ?_
    refine along_ite (fun _ => along_pure) fun _ => along_bind openNonce_readOnly.along fun nonce => ?_
    split
    · exact along_ite (fun _ => along_pure) fun _ => along_throw
    · refine along_bind (along_modify fun e => ⟨rfl, rfl, rfl⟩) fun _ => ?_
      split
      · exact along_throw
      · exact along_pure

theorem parseRecordsLoop_sameRx {fuel : Nat} {packet : Bytes} {parsed : List Record} :
    Along Engine.SameRx (parseRecordsLoop fuel packet parsed) := by
  induction fuel generalizing packet parsed with
  | zero => exact along_pure
  | succ fuel inductionHypothesis =>
      unfold parseRecordsLoop
      refine along_ite (fun _ => along_pure) fun _ => ?_
      split
      · exact along_throw
      · refine along_bind parseRecord_sameRx fun found => ?_
        split
        · exact inductionHypothesis
        · exact along_ite (fun _ => inductionHypothesis) fun _ => along_throw

theorem classifyAlert_sameRx {r : Record} : Along Engine.SameRx (classifyAlert r) := by
  refine along_get_bind fun e => ?_
  rw [post_ite]
  refine ⟨fun _ => ?_, fun _ => ?_⟩
  · rw [post_ite]
    refine ⟨fun _ => ⟨rfl, rfl, rfl⟩, fun _ => ?_⟩
    split <;> exact ⟨rfl, rfl, rfl⟩
  · rw [post_ite]
    refine ⟨fun _ => ⟨rfl, rfl, rfl⟩, fun _ => ?_⟩
    split
    · rw [post_ite]
      refine ⟨fun _ => ⟨rfl, rfl, rfl⟩, fun _ => ?_⟩
      rw [post_ite]
      exact ⟨fun _ => ⟨rfl, rfl, rfl⟩, fun _ => ⟨rfl, rfl, rfl⟩⟩
    · exact ⟨rfl, rfl, rfl⟩

theorem classifyRecords_sameRx {records : List Record} :
    Along Engine.SameRx (classifyRecords records) := by
  induction records with
  | nil => exact along_pure
  | cons r rest inductionHypothesis =>
      have one : Along Engine.SameRx (classifyRecord r) := by
        refine along_bind along_get fun e => along_ite (fun _ => along_pure) fun _ => ?_
        refine along_ite (fun _ => along_pure) fun _ => ?_
        refine along_ite (fun _ => classifyAlert_sameRx) fun _ => ?_
        exact along_ite (fun _ => along_pure) fun _ => along_pure
      exact along_bind one fun _ => along_bind inductionHypothesis fun _ => along_pure

theorem parseRecord_notFull {recordSlice : Bytes} :
    Throws Fault.NotFull (parseRecord recordSlice) := by
  refine throws_bind throws_get fun e => ?_
  split
  · exact throws_pure
  · refine throws_ite throws_pure ?_
    refine throws_bind throws_get fun e => throws_ite throws_pure (throws_ite throws_pure ?_)
    refine throws_bind ?_ fun nonce => ?_
    · refine throws_bind (throws_bind throws_get fun _ => throws_orThrow trivial) fun iv => ?_
      refine throws_bind throws_get fun e => throws_ite ?_ ?_
      · exact throws_ite throws_pure (throws_throw trivial)
      · exact throws_ite throws_pure (throws_throw trivial)
    · split
      · exact throws_ite throws_pure (throws_throw trivial)
      · refine throws_bind throws_modify fun _ => ?_
        split
        · rename_i err _
          cases err <;> exact throws_throw trivial
        · exact throws_pure

theorem parseRecordsLoop_notFull {fuel : Nat} {packet : Bytes} {parsed : List Record} :
    Throws Fault.NotFull (parseRecordsLoop fuel packet parsed) := by
  induction fuel generalizing packet parsed with
  | zero => exact throws_pure
  | succ fuel inductionHypothesis =>
      unfold parseRecordsLoop
      refine throws_ite throws_pure ?_
      split
      · exact throws_throw trivial
      · refine throws_bind parseRecord_notFull fun found => ?_
        split
        · exact inductionHypothesis
        · exact throws_ite inductionHypothesis (throws_throw trivial)

theorem insertIncomingHandshake_notFull {incoming : Incoming} {handshake : Fragment} :
    Throws Fault.NotFull (insertIncomingHandshake incoming handshake) := by
  have resent : Throws Fault.NotFull flightResend :=
    throws_mono flightResend_inner fun _ inner => inner.notFull
  refine throws_bind throws_get fun e => throws_bind (throws_runIf resent) fun _ => ?_
  refine throws_bind throws_get fun e => throws_ite throws_pure (throws_ite throws_pure ?_)
  refine throws_ite (throws_throw trivial) ?_
  split
  · exact throws_set
  · exact throws_pure

theorem insertIncomingNonHandshake_notFull {incoming : Incoming} :
    Throws Fault.NotFull (insertIncomingNonHandshake incoming) := by
  refine throws_bind throws_get fun e => throws_ite throws_pure ?_
  split
  · dsimp only
    split
    · exact throws_set
    · exact throws_ite throws_pure (throws_throw trivial)
  · split
    · exact throws_set
    · exact throws_ite throws_pure (throws_throw trivial)

/-- The queue is full only when it is: nothing on the way there takes room. -/
theorem receivePacket_full {datagram : Bytes} :
    Post (receivePacket datagram) e (fun _ _ => True)
      (fun fault _ => fault.NotFull ∨ e.config.maxQueueRx ≤ e.queueRx.length) := by
  unfold receivePacket parsePacket parseRecords
  rw [post_bind, post_modify, post_bind, post_bind]
  have looped := (@parseRecordsLoop_sameRx datagram.length datagram []
    (e.logEvent (.received datagram))).and (@parseRecordsLoop_notFull datagram.length datagram [] _)
  refine looped.mono (fun parsed e₁ ⟨first, _⟩ => ?_) fun _ _ ⟨_, notFull⟩ => .inl notFull
  have classified := (@classifyRecords_sameRx parsed e₁).and (@classifyRecords_inner parsed e₁)
  refine classified.mono (fun records e₂ ⟨second, _⟩ => ?_) fun _ _ ⟨_, inner⟩ => .inl inner.notFull
  cases Incoming.ofRecords records with
  | none => trivial
  | some incoming =>
      have same : Engine.SameRx e e₂ := ⟨second.queue.trans first.queue,
        second.released.trans first.released, second.config.trans first.config⟩
      unfold insertIncoming
      rw [post_bind, post_get, post_ite]
      refine ⟨fun full => .inr ?_, fun _ => ?_⟩
      · rw [same.queue, same.config] at full
        exact full
      · refine ((?_ : Throws Fault.NotFull _) e₂).mono (fun _ _ _ => trivial) fun _ _ notFull =>
          .inl notFull
        split
        · exact insertIncomingHandshake_notFull
        · exact insertIncomingNonHandshake_notFull

end Receiving

end Dimpl.Dtls12
