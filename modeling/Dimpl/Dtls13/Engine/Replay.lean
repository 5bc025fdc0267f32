import Dimpl.Dtls13.Engine.Run
import Dimpl.Sample

/-!
# Replay protection

Every protected record is opened at most once. The invariant ties the history to
the replay windows: whatever was opened under a key that is still in use is
rejected by the window of that key, and keys are never installed twice.
-/

namespace Dimpl.Dtls13

open Nom Program

/-- The receive keys in use, each with its replay window. -/
def Engine.windows (e : Engine) : List (KeyId × ReplayWindow) :=
  (e.hsRecvKeys.map fun keys => (keys.id, e.hsReplay)).toList ++
    e.appRecvKeys.map fun entry => (entry.keys.id, entry.replay)

/-- The key and the sequence number of an opened record. -/
def Event.opening : Event → Option (KeyId × Nat)
  | .opened key sequence _ _ => some (key, sequence.sequenceNumber)
  | _ => none

/-- The records that were opened, by key and sequence number. -/
def openings (log : List Event) : List (KeyId × Nat) := log.filterMap Event.opening

/-- The windows reject what was opened, and nothing was opened twice. -/
structure Engine.ReplayInv (e : Engine) : Prop where
  distinct : (e.windows.map fun window => window.1.installation).Nodup
  live : ∀ window ∈ e.windows, window.1.installation < e.installations
  past : ∀ opening ∈ openings e.log, opening.1.installation < e.installations
  rejected : ∀ window ∈ e.windows, ∀ opening ∈ openings e.log, opening.1 = window.1 →
    window.2.check opening.2 = false
  once : (openings e.log).Nodup

section Invariant

variable {S : Bytes → Prop} {K : Prop} {rules : Rules} {e e' : Engine}

theorem openings_logEvent {event : Event} (other : event.opening = none) :
    openings (e.logEvent event).log = openings e.log := by
  simp [openings, Engine.logEvent, List.filterMap_append, other]

/-- Windows that were there or belong to keys installed since. -/
theorem Engine.ReplayInv.of_windows (inv : e.ReplayInv)
    (log : openings e'.log = openings e.log) (more : e.installations ≤ e'.installations)
    (distinct : (e'.windows.map fun window => window.1.installation).Nodup)
    (windows : ∀ window ∈ e'.windows, window ∈ e.windows ∨
      (e.installations ≤ window.1.installation ∧ window.1.installation < e'.installations)) :
    e'.ReplayInv where
  distinct := distinct
  live := by
    intro window member
    rcases windows window member with old | ⟨_, new⟩
    · exact Nat.lt_of_lt_of_le (inv.live window old) more
    · exact new
  past := fun opening member => Nat.lt_of_lt_of_le (inv.past opening (log ▸ member)) more
  rejected := by
    intro window member opening opened sameKey
    rw [log] at opened
    rcases windows window member with old | ⟨new, _⟩
    · exact inv.rejected window old opening opened sameKey
    · -- Nothing was opened under a key that did not exist.
      have before := inv.past opening opened
      rw [sameKey] at before
      omega
  once := log ▸ inv.once

/-- Nothing the windows depend on has changed. -/
theorem Engine.ReplayInv.of_same (inv : e.ReplayInv) (windows : e'.windows = e.windows)
    (log : openings e'.log = openings e.log) (count : e.installations ≤ e'.installations) :
    e'.ReplayInv :=
  inv.of_windows log count (windows ▸ inv.distinct) fun _ member => .inl (windows ▸ member)

/-- Fewer windows. -/
theorem Engine.ReplayInv.of_sublist (inv : e.ReplayInv) (windows : e'.windows.Sublist e.windows)
    (log : openings e'.log = openings e.log) (count : e.installations ≤ e'.installations) :
    e'.ReplayInv :=
  inv.of_windows log count (inv.distinct.sublist (windows.map _))
    fun _ member => .inl (windows.subset member)

/-- A window of a fresh key is added, somewhere. -/
theorem Engine.ReplayInv.of_added (inv : e.ReplayInv) (fresh : KeyId × ReplayWindow)
    {windows : List (KeyId × ReplayWindow)} (kept : windows.Sublist e.windows)
    (added : e'.windows.Perm (fresh :: windows)) (new : e.installations ≤ fresh.1.installation)
    (log : openings e'.log = openings e.log) (count : fresh.1.installation < e'.installations) :
    e'.ReplayInv := by
  refine inv.of_windows log (by omega) ?_ fun window member => ?_
  · rw [(added.map fun window : KeyId × ReplayWindow => window.1.installation).nodup_iff]
    refine List.nodup_cons.mpr ⟨?_, inv.distinct.sublist (kept.map _)⟩
    intro isOld
    obtain ⟨window, member, same⟩ := List.mem_map.mp isOld
    have before := inv.live window (kept.subset member)
    have same : window.1.installation = fresh.1.installation := same
    omega
  · rcases List.mem_cons.mp (added.subset member) with rfl | old
    · exact .inr ⟨new, count⟩
    · exact .inl (kept.subset old)

theorem updateFirst_append {epoch : Nat} {f : RecvEpochEntry → RecvEpochEntry}
    {entry : RecvEpochEntry} {before after : List RecvEpochEntry}
    (skipped : ∀ other ∈ before, other.epoch ≠ epoch) (isEpoch : entry.epoch = epoch) :
    Engine.updateFirst epoch f (before ++ entry :: after) = before ++ f entry :: after := by
  induction before with
  | nil => simp [Engine.updateFirst, isEpoch]
  | cons other rest inductionHypothesis =>
      have notEpoch := skipped other List.mem_cons_self
      simp only [List.cons_append, Engine.updateFirst, notEpoch, if_false]
      rw [inductionHypothesis fun item member => skipped item (List.mem_cons_of_mem _ member)]

/-- The replay check, the opening and the update all speak of one window. -/
theorem Engine.windows_replayUpdate {header ciphertext plaintext : Bytes} {sequence : Sequence}
    {key : KeyId} (fresh : e.replayCheck sequence = true)
    (decrypted : e.decryptRecord header sequence ciphertext = .ok (key, plaintext)) :
    ∃ before window after, e.windows = before ++ (key, window) :: after ∧
      window.check sequence.sequenceNumber = true ∧
      (e.replayUpdate sequence).windows =
        before ++ (key, window.update sequence.sequenceNumber) :: after := by
  unfold Engine.decryptRecord at decrypted
  split at decrypted
  · cases decrypted
  · rename_i keys found
    have isKey : key = keys.id := by
      cases outcome : keys.cipher.decrypt ciphertext (Aad.newDtls13 header)
          (Nonce.xor keys.iv sequence.sequenceNumber) with
      | error err => simp [outcome, bind, Except.bind] at decrypted
      | ok opened =>
          simp only [outcome, bind, Except.bind, pure, Except.pure, Except.ok.injEq,
            Prod.mk.injEq] at decrypted
          exact decrypted.1.symm
    unfold Engine.recvKeys at found
    by_cases handshake : sequence.epoch = 2
    · simp only [handshake, if_true] at found
      refine ⟨[], e.hsReplay, e.appRecvKeys.map fun entry => (entry.keys.id, entry.replay), ?_, ?_, ?_⟩
      · simp [Engine.windows, found, isKey]
      · simpa [Engine.replayCheck, handshake] using fresh
      · simp [Engine.windows, Engine.replayUpdate, handshake, found, isKey]
    · simp only [handshake, if_false, Option.map_eq_some_iff] at found
      obtain ⟨entry, isEntry, rfl⟩ := found
      obtain ⟨isEpoch, before, after, split, skipped⟩ := List.find?_eq_some_iff_append.mp isEntry
      have updated : Engine.updateFirst sequence.epoch
          (fun entry => entry.receive sequence.sequenceNumber) (before ++ entry :: after) =
          before ++ entry.receive sequence.sequenceNumber :: after :=
        updateFirst_append (fun other member => by simpa using skipped other member)
          (by simpa using isEpoch)
      refine ⟨(e.hsRecvKeys.map fun keys => (keys.id, e.hsReplay)).toList ++
          before.map fun entry => (entry.keys.id, entry.replay), entry.replay,
          after.map fun entry => (entry.keys.id, entry.replay), ?_, ?_, ?_⟩
      · simp [Engine.windows, split, isKey]
      · simpa [Engine.replayCheck, handshake, isEntry] using fresh
      · simp only [Engine.windows, Engine.replayUpdate, handshake, if_false, split, updated]
        simp [isKey, RecvEpochEntry.receive]

theorem replayUpdate_log (e : Engine) (sequence : Sequence) :
    (e.replayUpdate sequence).log = e.log ∧
      (e.replayUpdate sequence).installations = e.installations := by
  unfold Engine.replayUpdate
  split <;> exact ⟨rfl, rfl⟩

/-- An opened record was not opened before and is rejected from then on. -/
theorem Engine.ReplayInv.opened {header ciphertext record plaintext : Bytes} {sequence : Sequence}
    {key : KeyId} (inv : e.ReplayInv) (fresh : e.replayCheck sequence = true)
    (decrypted : e.decryptRecord header sequence ciphertext = .ok (key, plaintext)) :
    ((e.replayUpdate sequence).logEvent (.opened key sequence record plaintext)).ReplayInv := by
  obtain ⟨before, window, after, isWindow, accepts, updated⟩ :=
    Engine.windows_replayUpdate fresh decrypted
  obtain ⟨sameLog, sameCount⟩ := replayUpdate_log e sequence
  have isLive : (key, window) ∈ e.windows := by simp [isWindow]
  have log : openings ((e.replayUpdate sequence).logEvent
      (.opened key sequence record plaintext)).log =
      openings e.log ++ [(key, sequence.sequenceNumber)] := by
    simp [openings, Engine.logEvent, sameLog, List.filterMap_append, Event.opening]
  have windows : ((e.replayUpdate sequence).logEvent
      (.opened key sequence record plaintext)).windows =
      before ++ (key, window.update sequence.sequenceNumber) :: after := updated
  have installed : ((e.replayUpdate sequence).logEvent
      (.opened key sequence record plaintext)).installations = e.installations := sameCount
  -- No other window belongs to the same key.
  have others : ∀ other ∈ before ++ after, other.1 ≠ key := by
    intro other member sameKey
    have distinct := inv.distinct
    rw [isWindow] at distinct
    simp only [List.map_append, List.map_cons] at distinct
    have absent := (List.nodup_cons.mp (List.nodup_middle.mp distinct)).1
    refine absent ?_
    rw [← List.map_append]
    exact List.mem_map.mpr ⟨other, member, by rw [sameKey]⟩
  refine ⟨?_, ?_, ?_, ?_, ?_⟩
  · have distinct := inv.distinct
    rw [isWindow] at distinct
    rw [windows]
    simpa using distinct
  · intro other member
    rw [windows] at member
    rw [installed]
    rcases List.mem_append.mp member with inFront | behind
    · exact inv.live other (by simp [isWindow, inFront])
    · rcases List.mem_cons.mp behind with rfl | inBack
      · exact inv.live (key, window) isLive
      · exact inv.live other (by simp [isWindow, inBack])
  · intro opening member
    rw [log] at member
    rw [installed]
    rcases List.mem_append.mp member with old | new
    · exact inv.past opening old
    · cases List.mem_singleton.mp new
      exact inv.live (key, window) isLive
  · intro other member opening opened sameKey
    rw [windows] at member
    rw [log] at opened
    have isOther : other ∈ before ++ after ∨ other = (key, window.update sequence.sequenceNumber) := by
      simp only [List.mem_append, List.mem_cons] at member ⊢
      tauto
    rcases isOther with inOthers | rfl
    · have queued : other ∈ e.windows := by
        simp only [isWindow, List.mem_append, List.mem_cons] at inOthers ⊢
        tauto
      rcases List.mem_append.mp opened with old | new
      · exact inv.rejected other queued opening old sameKey
      · cases List.mem_singleton.mp new
        exact absurd sameKey.symm (others other inOthers)
    · rcases List.mem_append.mp opened with old | new
      · exact window.update_check_mono _ (inv.rejected (key, window) isLive opening old sameKey)
      · cases List.mem_singleton.mp new
        exact window.update_check_self _
  · rw [log]
    refine inv.once.append (by simp) ?_
    intro opening old new
    cases List.mem_singleton.mp new
    have := inv.rejected (key, window) isLive _ old rfl
    simp [accepts] at this

/-- The windows, the openings and the number of keys depend on the core only. -/
theorem Engine.ReplayInv.of_core (inv : e.ReplayInv) (same : e'.core = e.core) : e'.ReplayInv := by
  have keys : e'.hsRecvKeys = e.hsRecvKeys := congrArg Core.hsRecvKeys same
  have entries : e'.appRecvKeys = e.appRecvKeys := congrArg Core.appRecvKeys same
  have replay : e'.hsReplay = e.hsReplay := congrArg Core.hsReplay same
  have log : e'.log = e.log := congrArg Core.log same
  have count : e'.installations = e.installations := congrArg Core.installations same
  exact inv.of_same (by simp [Engine.windows, keys, entries, replay]) (by rw [log]) count.ge

theorem Step.replayInv (step : Step S K e e') (inv : e.ReplayInv) : e'.ReplayInv := by
  cases step with
  | other same => exact inv.of_core same
  | opened slice fresh decrypted => exact inv.opened fresh decrypted
  | queue sources => exact inv.of_same rfl rfl (Nat.le_refl _)
  | delivered released queued data =>
      exact inv.of_same rfl (openings_logEvent rfl) (Nat.le_refl _)
  | assembled carried => exact inv.of_same rfl (openings_logEvent rfl) (Nat.le_refl _)
  | sealed available room known =>
      refine inv.of_same ?_ ((openings_logEvent rfl).trans ?_) ?_
      · cases e.sendSlot _ <;> rfl
      · cases e.sendSlot _ <;> rfl
      · cases e.sendSlot _ <;> exact Nat.le_refl _
  | forgotten => exact inv.of_same rfl rfl (Nat.le_refl _)

/-- Every change keeps the invariant: new keys have not opened anything yet. -/
theorem Change.replayInv (change : Change rules e e') (inv : e.ReplayInv) : e'.ReplayInv := by
  cases change with
  | quiet step => exact step.replayInv inv
  | received => exact inv.of_same rfl (openings_logEvent rfl) (Nat.le_refl _)
  | counted => exact inv.of_same rfl rfl (Nat.le_succ _)
  | handshakeSend fresh => exact inv.of_same rfl rfl (Nat.le_succ _)
  | @handshakeKeys send recv freshSend freshRecv =>
      refine inv.of_added (recv.id, e.hsReplay) (List.sublist_append_right _ _)
        (List.Perm.refl _) ?_ rfl ?_
      · simp [freshRecv]
      · simp [freshRecv]
  | applicationSend fresh epoch => exact inv.of_same rfl rfl (Nat.le_succ _)
  | @applicationKeys send recv freshSend freshRecv epoch =>
      refine inv.of_added (recv.id, .new) (List.Sublist.refl e.windows) ?_ ?_ rfl ?_
      · simpa [Engine.windows, RecvEpochEntry.fresh] using
          List.perm_append_singleton (recv.id, ReplayWindow.new) e.windows
      · simp [freshRecv]
      · simp [freshRecv]
  | sendLost => exact inv.of_same rfl rfl (Nat.le_refl _)
  | sendRotated current fresh => exact inv.of_same rfl rfl (Nat.le_succ _)
  | recvEvicted =>
      refine inv.of_sublist ?_ rfl (Nat.le_refl _)
      exact (List.Sublist.refl _).append ((List.tail_sublist _).map _)
  | @recvAdded keys fresh =>
      refine inv.of_added (keys.id, .new) (List.Sublist.refl e.windows) ?_ ?_ rfl ?_
      · simpa [Engine.windows, RecvEpochEntry.fresh] using
          List.perm_append_singleton (keys.id, ReplayWindow.new) e.windows
      · exact fresh.ge
      · exact Nat.lt_succ_of_le fresh.le
  | released allowed =>
      refine inv.of_sublist ?_ rfl (Nat.le_refl _)
      exact (List.nil_sublist _).append (List.Sublist.refl _)
  | retried allowed => exact inv.of_same rfl rfl (Nat.le_refl _)
  | enabled allowed => exact inv.of_same rfl rfl (Nat.le_refl _)

theorem Changes.replayInv (changes : Changes rules e e') (inv : e.ReplayInv) : e'.ReplayInv := by
  induction changes with
  | refl => exact inv
  | tail _ change inductionHypothesis => exact change.replayInv inductionHypothesis

/-- An engine without keys has nothing to reject. -/
theorem ReplayInv_new {config : Config} {certificate : DtlsCertificate} {rng : SeededRng}
    {isClient : Bool} : ((Engine.new config certificate rng).setClient isClient).ReplayInv :=
  ⟨List.nodup_nil, by simp [Engine.windows, Engine.new, Engine.setClient],
    by simp [openings, Engine.new, Engine.setClient],
    by simp [Engine.windows, Engine.new, Engine.setClient], List.nodup_nil⟩

/-- Rules that allow every call. -/
def Rules.any : Rules where
  slices := fun _ => True
  known := False
  mayEnable := fun _ => True
  mayRelease := fun _ => True
  mayRetry := fun _ => True

theorem Rules.any_allow {call : Call} : Rules.any.Allow e call := by
  cases call <;> simp [Rules.Allow, Rules.any]

theorem exec_replayInv {call : Call} (inv : e.ReplayInv) : (e.exec call).ReplayInv := by
  have changes : Changes Rules.any e (e.exec call) :=
    exec_changes (fun known => known) Rules.any_allow
  exact changes.replayInv inv

/-- A record that does not open leaves the whole state as it is. -/
theorem openRecord_failed {recordSlice : Bytes} {r : Record} {err : CryptoError}
    (failed : e.decryptRecord (r.buffer.take r.record.fragmentRange.start)
      (e.fullSequence (recordSlice.headD 0) r)
      (r.buffer.drop r.record.fragmentRange.start) = .error err) :
    Post (openRecord recordSlice r) e (fun result e' => result = none ∧ e' = e)
      (fun _ e' => e' = e) := by
  unfold openRecord
  rw [post_bind, post_get]
  dsimp only
  rw [post_ite]
  refine ⟨fun _ => ⟨rfl, rfl⟩, fun _ => ?_⟩
  rw [post_bind]
  refine (suiteProvider_readOnly e).mono ?_ fun _ _ same => same.symm
  rintro suite _ rfl
  rw [post_ite]
  refine ⟨fun _ => ⟨rfl, rfl⟩, fun _ => ?_⟩
  rw [failed]
  exact ⟨rfl, rfl⟩

theorem parseRecord_failed {recordSlice buffer : Bytes} {r : Record} {err : CryptoError}
    (unmasked : decryptSequenceNumber recordSlice e = .ok buffer e)
    (parsed : Record.ofBuffer buffer = .ok r)
    (isProtected : Dtls13Record.isCiphertextHeader (recordSlice.headD 0) = true)
    (enabled : e.peerEncryptionEnabled = true)
    (failed : e.decryptRecord (r.buffer.take r.record.fragmentRange.start)
      (e.fullSequence (recordSlice.headD 0) r)
      (r.buffer.drop r.record.fragmentRange.start) = .error err) :
    Post (parseRecord recordSlice) e (fun result e' => result = none ∧ e' = e)
      (fun _ e' => e' = e) := by
  unfold parseRecord
  rw [post_bind]
  have first : Post (decryptSequenceNumber recordSlice) e
      (fun value e' => value = buffer ∧ e' = e) (fun _ _ => False) := by
    simp [Post, unmasked]
  refine first.mono ?_ (by simp)
  rintro value e₁ ⟨isBuffer, same⟩
  rw [isBuffer, same, post_bind, post_get]
  simp only [parsed]
  have notClear : ¬(!Dtls13Record.isCiphertextHeader (recordSlice.headD 0) ||
      !e.peerEncryptionEnabled) = true := by
    simpa [enabled] using isProtected
  rw [if_neg notClear]
  exact openRecord_failed failed

end Invariant

/-- A client that has just got its handshake keys. -/
def keyedCalls : List Call :=
  [.setCipherSuite .aes128GcmSha256, .installHandshakeKeys [1] [2], .enablePeerEncryption]

/-- The engine after `keyedCalls`. -/
def keyedEngine : Engine :=
  run Engine.exec ((Engine.new Sample.config Sample.certificate (Sample.rng 0)).setClient true)
    keyedCalls

/-- A record of epoch 2 with a checksum of zeros. -/
def forgedRecord : Bytes := [0x2E, 0, 0, 0, 20] ++ List.replicate 20 0

end Dimpl.Dtls13
