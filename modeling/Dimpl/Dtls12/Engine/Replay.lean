import Dimpl.Dtls12.Engine.Assertions

/-!
# Replay protection of DTLS 1.2

One window serves all protected records. Whatever was opened is rejected by the window from
then on, so that no sequence number is opened twice.
-/

namespace Dimpl.Dtls12

open Nom Program

/-- The number of an opened record. -/
def Event.opening : Event → Option Sequence
  | .opened _ sequence _ _ => some sequence
  | _ => none

/-- The numbers of the records that were opened. -/
def openings (log : List Event) : List Sequence := log.filterMap Event.opening

/-- The window rejects what was opened, and no number was opened twice. -/
structure Engine.ReplayInv (e : Engine) : Prop where
  rejected : ∀ sequence ∈ openings e.log, e.replayCheck sequence = false
  once : ((openings e.log).map Sequence.sequenceNumber).Nodup

/-- The window is the one of the numbers that were opened. -/
def Engine.Tracks (e : Engine) : Prop :=
  ((openings e.log).map Sequence.sequenceNumber).foldl ReplayWindow.update .new = e.replay

section Invariant

variable {S : Bytes → Prop} {K : Prop} {rules : Rules} {e e' : Engine}

theorem openings_logEvent {event : Event} (other : event.opening = none) :
    openings (e.logEvent event).log = openings e.log := by
  simp [openings, Engine.logEvent, List.filterMap_append, other]

theorem Engine.ReplayInv.of_same (inv : e.ReplayInv) (replay : e'.replay = e.replay)
    (log : openings e'.log = openings e.log) : e'.ReplayInv := by
  refine ⟨fun sequence opened => ?_, log ▸ inv.once⟩
  unfold Engine.replayCheck
  rw [replay]
  exact inv.rejected sequence (log ▸ opened)

/-- An opened record was not opened before and is rejected from then on. -/
theorem Engine.ReplayInv.opened {r : Record} {record plaintext : Bytes} (inv : e.ReplayInv)
    (fresh : e.replayCheck r.sequence = true) :
    ((e.noteOpened r.record).logEvent
      (.opened r.record.contentType r.sequence record plaintext)).ReplayInv := by
  have log : openings ((e.noteOpened r.record).logEvent
      (.opened r.record.contentType r.sequence record plaintext)).log =
      openings e.log ++ [r.sequence] := by
    simp [openings, Engine.logEvent, Engine.noteOpened, List.filterMap_append, Event.opening]
  constructor
  · intro sequence opened
    rw [log] at opened
    rcases List.mem_append.mp opened with old | new
    · exact ReplayWindow.update_check_mono _ _ (inv.rejected sequence old)
    · cases List.mem_singleton.mp new
      exact ReplayWindow.update_check_self _ _
  · rw [log, List.map_append]
    refine inv.once.append (List.nodup_singleton _) ?_
    intro number old new
    obtain ⟨sequence, opened, rfl⟩ := List.mem_map.mp old
    have rejected := inv.rejected sequence opened
    have same : sequence.sequenceNumber = r.sequence.sequenceNumber := by simpa using new
    unfold Engine.replayCheck at rejected fresh
    rw [same, fresh] at rejected
    cases rejected

theorem Step.replayInv (step : Step S K e e') (inv : e.ReplayInv) : e'.ReplayInv := by
  cases step with
  | other same =>
      have replay : e'.replay = e.replay := congrArg Core.replay same
      have log : e'.log = e.log := congrArg Core.log same
      exact inv.of_same replay (by rw [log])
  | opened slice parsed fresh decrypted enabled => exact inv.opened fresh
  | queue sources => exact inv.of_same rfl rfl
  | delivered released queued data => exact inv.of_same rfl (openings_logEvent rfl)
  | assembled carried => exact inv.of_same rfl (openings_logEvent rfl)
  | told => exact inv.of_same rfl rfl
  | sealed allowed isNonce => exact inv.of_same rfl (openings_logEvent rfl)

/-- Keys may change, but the window stays. -/
theorem Change.replayInv (change : Change rules e e') (inv : e.ReplayInv) : e'.ReplayInv := by
  cases change with
  | quiet step => exact step.replayInv inv
  | received => exact inv.of_same rfl (openings_logEvent rfl)
  | enabled | released | rekeyed | selected | retold | timed => exact inv.of_same rfl rfl

theorem Changes.replayInv (changes : Changes rules e e') (inv : e.ReplayInv) : e'.ReplayInv := by
  induction changes with
  | refl => exact inv
  | tail _ change inductionHypothesis => exact change.replayInv inductionHypothesis

/-- Every call makes changes, whatever it is. -/
theorem exec_changed {call : Call} : Changes assertRules e (e.exec call) := by
  refine exec_changes (fun plain => plain) ?_
  cases call <;> simp [Rules.Allow, assertRules]

theorem exec_replayInv {call : Call} (inv : e.ReplayInv) : (e.exec call).ReplayInv :=
  exec_changed.replayInv inv

/-- Every engine that calls reach has opened no number twice. -/
theorem run_replayInv {config : Config} {auth : AuthMode} {rng entropy : SeededRng}
    {calls : List Call} :
    (run Engine.exec (Engine.new config auth rng entropy) calls).ReplayInv := by
  have initial : (Engine.new config auth rng entropy).ReplayInv :=
    ⟨fun _ opened => (nomatch opened), List.nodup_nil⟩
  have step : ∀ (e : Engine) call, e.ReplayInv → True → (e.exec call).ReplayInv :=
    fun _ _ inv _ => exec_replayInv inv
  exact run_invariant step initial (.of_all fun _ _ => trivial)

theorem Engine.Tracks.of_same (tracks : e.Tracks) (replay : e'.replay = e.replay)
    (log : openings e'.log = openings e.log) : e'.Tracks := by
  unfold Engine.Tracks
  rw [log, replay]
  exact tracks

theorem Step.tracks (step : Step S K e e') (tracks : e.Tracks) : e'.Tracks := by
  cases step with
  | other same =>
      have replay : e'.replay = e.replay := congrArg Core.replay same
      have log : e'.log = e.log := congrArg Core.log same
      exact tracks.of_same replay (by rw [log])
  | opened slice parsed fresh decrypted enabled =>
      unfold Engine.Tracks at tracks ⊢
      simp only [openings, Engine.logEvent, Engine.noteOpened, List.filterMap_append, List.filterMap_cons,
        List.filterMap_nil, Event.opening, List.map_append, List.map_cons, List.map_nil, List.foldl_append,
        List.foldl_cons, List.foldl_nil] at tracks ⊢
      rw [tracks]
      rfl
  | queue sources => exact tracks.of_same rfl rfl
  | delivered released queued data => exact tracks.of_same rfl (openings_logEvent rfl)
  | assembled carried => exact tracks.of_same rfl (openings_logEvent rfl)
  | told => exact tracks.of_same rfl rfl
  | sealed allowed isNonce => exact tracks.of_same rfl (openings_logEvent rfl)

theorem Changes.tracks (changes : Changes rules e e') (tracks : e.Tracks) : e'.Tracks := by
  induction changes with
  | refl => exact tracks
  | tail _ change inductionHypothesis =>
      cases change with
      | quiet step => exact step.tracks inductionHypothesis
      | received => exact inductionHypothesis.of_same rfl (openings_logEvent rfl)
      | enabled | released | rekeyed | selected | retold | timed => exact inductionHypothesis.of_same rfl rfl

/-- In every run the window admits the numbers that were not opened, as long as none opened is 64
above. -/
theorem run_replayCheck {config : Config} {auth : AuthMode} {rng entropy : SeededRng}
    {calls : List Call} {sequence : Sequence} :
    (run Engine.exec (Engine.new config auth rng entropy) calls).replayCheck sequence = true ↔
      ∀ number ∈ (openings (run Engine.exec (Engine.new config auth rng entropy) calls).log).map
          Sequence.sequenceNumber,
        sequence.sequenceNumber ≠ number ∧ number < sequence.sequenceNumber + 64 := by
  have initial : (Engine.new config auth rng entropy).Tracks := rfl
  have step : ∀ (e : Engine) call, e.Tracks → True → (e.exec call).Tracks :=
    fun _ _ tracks _ => exec_changed.tracks tracks
  have tracks : (run Engine.exec (Engine.new config auth rng entropy) calls).Tracks :=
    run_invariant step initial (.of_all fun _ _ => trivial)
  rw [Engine.replayCheck, ← tracks, ReplayWindow.foldl_update_check_iff]

/-- A record that does not open leaves the whole state as it is, whether it is dropped or
ends the handshake. -/
theorem parseRecord_failed {recordSlice nonce : Bytes} {r : Record} {err : CryptoError}
    (parsed : Record.ofBuffer recordSlice 0 = .ok r) (isProtected : r.sequence.epoch ≠ 0)
    (enabled : e.peerEncryptionEnabled = true)
    (isNonce : value? (openNonce r.record recordSlice) e = some nonce)
    (failed : e.decryptData (recordSlice.drop (DTLSRecord.headerLen + e.explicitNonceLen))
      (e.openAad r.record) nonce = .error err) :
    Post (parseRecord recordSlice) e (fun result e' => result = none ∧ e' = e)
      (fun _ e' => e' = e) := by
  unfold parseRecord
  rw [post_bind, post_get]
  simp only [parsed]
  have opens : ¬(decide (r.sequence.epoch = 0) || !e.peerEncryptionEnabled) = true := by
    simp [isProtected, enabled]
  rw [if_neg opens]
  unfold openRecord
  rw [post_bind, post_get]
  dsimp only
  rw [post_ite]
  refine ⟨fun _ => ⟨rfl, rfl⟩, fun _ => ?_⟩
  rw [post_ite]
  refine ⟨fun _ => ⟨rfl, rfl⟩, fun _ => ?_⟩
  rw [post_bind]
  refine ((openNonce_readOnly e).and post_self).mono ?_ fun _ _ both => both.1.symm
  rintro found _ ⟨rfl, isFound⟩
  have same : found = nonce := Option.some.inj ((value_of_ok isFound).symm.trans isNonce)
  rw [same, failed]
  dsimp only
  rw [post_ite]
  exact ⟨fun _ => ⟨rfl, rfl⟩, fun _ => rfl⟩

end Invariant

end Dimpl.Dtls12
