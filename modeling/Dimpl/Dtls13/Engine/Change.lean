import Dimpl.Dtls13.Engine.Consume

/-!
# What the other engine functions can do

The functions that install, rotate, release, retry and enable change the core in
ways of their own. `Change` adds these to the steps, so that whatever a client or
a server does to its engine is a sequence of changes.
-/

namespace Dimpl.Dtls13

open Nom Program

/-- What is assumed of the calls that are made. -/
structure Rules where
  /-- The record slices that are parsed. -/
  slices : Bytes → Prop
  /-- Whether the epochs records are sent in have to be those of the keys. -/
  known : Prop
  /-- When the peer's encryption may be enabled. -/
  mayEnable : Engine → Prop
  /-- When application data may be released. -/
  mayRelease : Engine → Prop
  /-- When the handshake may be restarted by a HelloRetryRequest. -/
  mayRetry : Engine → Prop

/-- One change of the core by any engine function. -/
inductive Change (rules : Rules) (e : Engine) : Engine → Prop where
  | quiet {e' : Engine} (step : Step rules.slices rules.known e e') : Change rules e e'
  /-- A datagram comes from the network. -/
  | received {datagram : Bytes} : Change rules e (e.logEvent (.received datagram))
  /-- Keys were derived and not used. -/
  | counted : Change rules e { e with installations := e.installations + 1 }
  /-- Only the send half of the handshake keys was installed. -/
  | handshakeSend {keys : EpochKeys} (fresh : keys.id = ⟨e.installations, 2⟩) :
      Change rules e { e with installations := e.installations + 1, hsSendKeys := some keys }
  | handshakeKeys {send recv : EpochKeys} (freshSend : send.id = ⟨e.installations, 2⟩)
      (freshRecv : recv.id = ⟨e.installations + 1, 2⟩) :
      Change rules e { e with
        installations := e.installations + 2
        hsSendKeys := some send
        hsRecvKeys := some recv
        hsSendSeq := 0 }
  /-- Only the send half of the application keys was installed. -/
  | applicationSend {keys : EpochKeys} (fresh : keys.id = ⟨e.installations, 3⟩)
      (epoch : rules.known → e.appSendEpoch = 3) :
      Change rules e { e with installations := e.installations + 1, appSendKeys := some keys }
  | applicationKeys {send recv : EpochKeys} (freshSend : send.id = ⟨e.installations, 3⟩)
      (freshRecv : recv.id = ⟨e.installations + 1, 3⟩) (epoch : rules.known → e.appSendEpoch = 3) :
      Change rules e { e with
        installations := e.installations + 2
        appSendKeys := some send
        appRecvKeys := e.appRecvKeys ++ [RecvEpochEntry.fresh 3 recv]
        appSendEpoch := 3
        appSendSeq := 0 }
  /-- The send keys were taken out and no new ones derived. -/
  | sendLost : Change rules e { e with appSendKeys := none }
  | sendRotated {old new : EpochKeys} (current : e.appSendKeys = some old)
      (fresh : new.id = ⟨e.installations, (e.appSendEpoch + 1) % 65536⟩) :
      Change rules e { e with
        installations := e.installations + 1
        prevAppSendKeys := some old
        prevAppSendEpoch := e.appSendEpoch
        prevAppSendSeq := e.appSendSeq
        appSendKeys := some new
        appSendEpoch := (e.appSendEpoch + 1) % 65536
        appSendSeq := 0 }
  /-- The oldest receive epoch makes room. -/
  | recvEvicted : Change rules e { e with appRecvKeys := e.appRecvKeys.tail }
  | recvAdded {keys : EpochKeys} (fresh : keys.id.installation = e.installations) :
      Change rules e { e with
        installations := e.installations + 1
        appRecvKeys := e.appRecvKeys ++ [RecvEpochEntry.fresh keys.id.epoch keys] }
  | released (allowed : rules.mayRelease e) : Change rules e e.releaseApplicationData
  | retried (allowed : rules.mayRetry e) : Change rules e { e with hsSendSeq := 0 }
  | enabled (allowed : rules.mayEnable e) :
      Change rules e { e with
        peerEncryptionEnabled := true
        queueRx := e.queueRx.takeWhile fun item => !hasProtected item }

/-- Any number of changes. -/
abbrev Changes (rules : Rules) : Engine → Engine → Prop := Relation.ReflTransGen (Change rules)

/-- Changes that keep the flight's epochs known. -/
def Moves (rules : Rules) (e e' : Engine) : Prop :=
  (rules.known → e.FlightKnown) → Changes rules e e' ∧ (rules.known → e'.FlightKnown)

section Moves

variable {rules : Rules} {e e' : Engine}

instance : Std.Refl (Moves rules) := ⟨fun _ known => ⟨.refl, known⟩⟩

theorem Moves.refl : Moves rules e e := Std.Refl.refl e

instance : IsTrans Engine (Moves rules) :=
  ⟨fun _ _ _ first second known =>
    have ⟨changes, middle⟩ := first known
    have ⟨more, last⟩ := second middle
    ⟨changes.trans more, last⟩⟩

theorem Moves.trans {e₁ e₂ e₃ : Engine} (first : Moves rules e₁ e₂) (second : Moves rules e₂ e₃) :
    Moves rules e₁ e₃ :=
  IsTrans.trans _ _ _ first second

/-- Quiet steps are changes. -/
theorem Quiet.moves (quiet : Quiet rules.slices rules.known e e') : Moves rules e e' := by
  intro known
  obtain ⟨steps, last⟩ := quiet known
  exact ⟨Relation.ReflTransGen.mono (fun _ _ => Change.quiet) _ _ steps, last⟩

theorem moves_of_quiet {α : Type} {x : EngineM α}
    (quiet : Along (Quiet rules.slices rules.known) x) : Along (Moves rules) x :=
  quiet.mono fun _ _ => Quiet.moves

/-- A change that touches neither the flight nor the send epochs. -/
theorem Change.moves (change : Change rules e e')
    (flight : e'.flightSavedRecords = e.flightSavedRecords)
    (epoch : e'.appSendEpoch = e.appSendEpoch) (keys : e'.prevAppSendKeys = e.prevAppSendKeys)
    (previous : e'.prevAppSendEpoch = e.prevAppSendEpoch) : Moves rules e e' := by
  intro known
  refine ⟨.single change, fun k entry member => ?_⟩
  have before := known k entry (flight ▸ member)
  simpa [Engine.EpochKnown, epoch, keys, previous] using before

theorem deriveEpochKeys_post {epoch : Nat} {trafficSecret : Bytes} :
    Post (deriveEpochKeys epoch trafficSecret) e
      (fun keys e' => keys.id = ⟨e.installations, epoch⟩ ∧
        e' = { e with installations := e.installations + 1 })
      (fun _ e' => e' = e) := by
  unfold deriveEpochKeys
  rw [post_bind]
  refine (suiteProvider_readOnly e).mono ?_ fun _ _ same => same.symm
  rintro suite _ rfl
  -- Three expansions, none of which changes the state.
  rw [post_bind]
  refine (expandLabel_readOnly e).mono ?_ fun _ _ same => same.symm
  rintro key _ rfl
  rw [post_bind]
  refine (expandLabel_readOnly e).mono ?_ fun _ _ same => same.symm
  rintro iv _ rfl
  rw [post_bind]
  refine (expandLabel_readOnly e).mono ?_ fun _ _ same => same.symm
  rintro snKey _ rfl
  rw [post_bind, post_liftCrypto]
  refine ⟨fun cipher _ => ?_, fun _ _ => rfl⟩
  rw [post_ite]
  exact ⟨fun _ => ⟨rfl, rfl⟩, fun _ => rfl⟩

theorem installHandshakeKeys_moves {clientTrafficSecret serverTrafficSecret : Bytes} :
    Along (Moves rules) (installHandshakeKeys clientTrafficSecret serverTrafficSecret) := by
  refine along_get_bind fun e => ?_
  dsimp only
  rw [post_bind]
  refine deriveEpochKeys_post.mono ?_ fun _ _ same => same ▸ Moves.refl
  rintro send _ ⟨freshSend, rfl⟩
  rw [post_bind, post_modify, post_bind]
  refine deriveEpochKeys_post.mono ?_ ?_
  · rintro recv _ ⟨freshRecv, rfl⟩
    rw [post_modify]
    exact Change.moves (.handshakeKeys freshSend freshRecv) rfl rfl rfl rfl
  · rintro _ _ rfl
    exact Change.moves (.handshakeSend freshSend) rfl rfl rfl rfl

theorem pushRecvEpoch_post {epoch : Nat} {keys : EpochKeys} :
    Post (pushRecvEpoch epoch keys) e
      (fun _ e' => e' = { e with
        appRecvKeys := e.appRecvKeys ++ [RecvEpochEntry.fresh epoch keys] })
      (fun _ e' => e' = e) := by
  simp [pushRecvEpoch, post_ite]

/-- Installing application keys keeps the flight known before any KeyUpdate. -/
theorem installApplicationKeys_moves {clientTrafficSecret serverTrafficSecret : Bytes}
    (epoch : rules.known → e.appSendEpoch = 3) :
    Post (installApplicationKeys clientTrafficSecret serverTrafficSecret) e
      (fun _ e' => Moves rules e e') (fun _ e' => Moves rules e e') := by
  unfold installApplicationKeys
  rw [post_bind, post_get]
  dsimp only
  rw [post_bind]
  refine deriveEpochKeys_post.mono ?_ fun _ _ same => same ▸ Moves.refl
  rintro send _ ⟨freshSend, rfl⟩
  rw [post_bind, post_modify, post_bind]
  have sendOnly : Moves rules e
      { e with installations := e.installations + 1, appSendKeys := some send } :=
    Change.moves (.applicationSend freshSend epoch) rfl rfl rfl rfl
  refine deriveEpochKeys_post.mono ?_ fun _ _ same => same ▸ sendOnly
  rintro recv _ ⟨freshRecv, rfl⟩
  rw [post_bind]
  refine pushRecvEpoch_post.mono ?_ ?_
  · rintro _ _ rfl
    rw [post_modify]
    intro known
    refine ⟨.single (.applicationKeys freshSend freshRecv epoch), fun k entry member => ?_⟩
    simpa [Engine.EpochKnown, epoch k] using known k entry member
  · rintro _ _ rfl
    exact sendOnly.trans (Change.moves .counted rfl rfl rfl rfl)

theorem deriveNextTrafficSecret_readOnly {current : Bytes} :
    ReadOnly (deriveNextTrafficSecret current) :=
  along_bind hashLen_readOnly fun _ => expandLabel_readOnly

/-- Rotating the send keys keeps a flight of the current epoch known. -/
theorem updateSendKeys_moves
    (flight : rules.known → ∀ entry ∈ e.flightSavedRecords, entry.epoch = e.appSendEpoch) :
    Post updateSendKeys e (fun _ e' => Moves rules e e') (fun _ e' => Moves rules e e') := by
  unfold updateSendKeys
  rw [post_bind, post_get, post_bind, post_orThrow]
  refine ⟨fun old current => ?_, fun _ => Moves.refl⟩
  rw [post_bind, post_modify, post_bind]
  have lost : Moves rules e { e with appSendKeys := none } :=
    Change.moves .sendLost rfl rfl rfl rfl
  refine (deriveNextTrafficSecret_readOnly _).mono ?_ fun _ _ same => same ▸ lost
  rintro nextSecret _ rfl
  rw [post_bind]
  refine deriveEpochKeys_post.mono ?_ fun _ _ same => same ▸ lost
  rintro new _ ⟨fresh, rfl⟩
  rw [post_modify]
  intro known
  -- The AEAD counters are no part of the core.
  have changed : Changes rules e _ := .single (.sendRotated current fresh)
  refine ⟨changed.tail (.quiet (.other rfl)), fun k entry member => ?_⟩
  exact .inr (.inr (.inr ⟨rfl, flight k entry member⟩))

theorem updateRecvKeys_moves : Along (Moves rules) updateRecvKeys := by
  refine along_get_bind fun e => ?_
  rw [post_bind, post_orThrow]
  refine ⟨fun latest _ => ?_, fun _ => Moves.refl⟩
  rw [post_bind]
  refine (deriveNextTrafficSecret_readOnly e).mono ?_ fun _ _ same => same ▸ Moves.refl
  rintro nextSecret _ rfl
  rw [post_bind]
  refine deriveEpochKeys_post.mono ?_ fun _ _ same => same ▸ Moves.refl
  rintro new _ ⟨fresh, rfl⟩
  rw [post_bind, post_modify]
  -- Eviction happens with the new keys derived; the history may count them later.
  have evicted : Moves rules e { e with
      appRecvKeys := if e.appRecvKeys.length ≥ 4 then e.appRecvKeys.tail else e.appRecvKeys } := by
    split
    · exact Change.moves .recvEvicted rfl rfl rfl rfl
    · exact Moves.refl
  have freshEpoch : (latest.epoch + 1) % 65536 = new.id.epoch := by rw [fresh]
  refine pushRecvEpoch_post.mono ?_ ?_
  · rintro _ _ rfl
    rw [freshEpoch]
    exact evicted.trans (Change.moves (.recvAdded (by rw [fresh])) rfl rfl rfl rfl)
  · rintro _ _ rfl
    exact evicted.trans (Change.moves .counted rfl rfl rfl rfl)

/-- A ciphertext record adds at most itself to the flight. -/
theorem createCiphertextRecord_flight {contentType : ContentType} {epoch : Nat}
    {saveFragment : Bool} {fragment : Bytes} :
    Post (createCiphertextRecord contentType epoch saveFragment fragment) e
      (fun _ e' => e'.appSendEpoch = e.appSendEpoch ∧
        ∀ entry ∈ e'.flightSavedRecords, entry ∈ e.flightSavedRecords ∨ entry.epoch = epoch)
      (fun _ _ => True) := by
  unfold createCiphertextRecord
  rw [post_bind, post_get, post_bind]
  have saved : Post (runIf saveFragment (saveEntry
      ⟨contentType, epoch, e.slotSeq (e.sendSlot epoch), fragment, false⟩)) e
      (fun _ e' => e'.appSendEpoch = e.appSendEpoch ∧
        ∀ entry ∈ e'.flightSavedRecords, entry ∈ e.flightSavedRecords ∨ entry.epoch = epoch)
      (fun _ _ => True) := by
    rw [post_runIf]
    refine ⟨fun _ => saveEntry_post.mono ?_ (by simp), fun _ => ⟨rfl, fun _ member => .inl member⟩⟩
    rintro _ _ rfl
    refine ⟨rfl, fun entry member => ?_⟩
    rcases List.mem_append.mp member with old | new
    · exact .inl old
    · cases List.mem_singleton.mp new
      exact .inr rfl
  refine saved.mono ?_ (by simp)
  intro _ e₁ added
  rw [post_bind]
  refine (suiteProvider_readOnly e₁).mono ?_ (by simp)
  rintro suite _ rfl
  rw [post_bind, post_orThrow]
  refine ⟨fun keys _ => ?_, by simp⟩
  rw [post_bind, post_liftCrypto]
  refine ⟨fun ciphertext _ => ?_, by simp⟩
  rw [post_bind]
  refine (checkQueueTx_readOnly e₁).mono ?_ (by simp)
  rintro _ _ rfl
  rw [post_ite]
  refine ⟨by simp, fun _ => ?_⟩
  rw [post_modify]
  obtain ⟨flight, current, _, _⟩ := e₁.bumpSlot_frame epoch (e.sendSlot epoch)
  simp only [Engine.logEvent, Engine.enqueueRecord]
  split
  · exact ⟨current.trans added.1, fun entry member => added.2 entry (flight ▸ member)⟩
  · exact ⟨current.trans added.1, fun entry member => added.2 entry (flight ▸ member)⟩

theorem createKeyUpdate_moves {request : KeyUpdateRequest} :
    Along (Moves rules) (createKeyUpdate request) := by
  intro e
  unfold createKeyUpdate
  simp only [post_bind, post_modify, post_get, post_set]
  have begun : Moves rules e { e.flightBegin with
      nextHandshakeSeqNo := (e.flightBegin.nextHandshakeSeqNo + 1) % 65536 } :=
    Quiet.moves (Quiet.of_core rfl (by simp [Engine.flightBegin]))
  -- The flight was emptied, so the record on the current epoch is all of it.
  refine ((createCiphertextRecord_sends (S := rules.slices) (K := rules.known)
    fun _ => .inr (.inl rfl)).and createCiphertextRecord_flight).mono ?_
    fun _ _ failed => begun.trans failed.1.1.moves
  rintro _ e₁ ⟨sends, sameEpoch, added⟩
  have flight : ∀ entry ∈ e₁.flightSavedRecords, entry.epoch = e₁.appSendEpoch := by
    intro entry member
    rcases added entry member with old | isEpoch
    · simp [Engine.flightBegin] at old
    · exact isEpoch.trans sameEpoch.symm
  exact (updateSendKeys_moves fun _ => flight).mono
    (fun _ _ rotated => (begun.trans sends.1.moves).trans rotated)
    fun _ _ rotated => (begun.trans sends.1.moves).trans rotated

/-- Enabling encryption parses the early records again. -/
theorem enablePeerEncryption_moves (allowed : rules.mayEnable e)
    (slices : ∀ r ∈ e.rxRecords, ∀ slice ∈ recordSlices r.buffer, rules.slices slice) :
    Post enablePeerEncryption e (fun _ e' => Moves rules e e') (fun _ e' => Moves rules e e') := by
  unfold enablePeerEncryption
  rw [post_bind, post_get]
  dsimp only
  rw [post_bind, post_set]
  refine Along.after (moves_of_quiet (reparse_quiet fun buffer member => ?_))
    (Change.moves (.enabled allowed) rfl rfl rfl rfl)
  obtain ⟨r, inQueue, rfl⟩ := List.mem_map.mp member
  obtain ⟨item, inSuffix, inItem⟩ := List.mem_flatMap.mp (List.mem_of_mem_filter inQueue)
  exact slices r (List.mem_flatMap.mpr ⟨item, (List.dropWhile_suffix _).subset inSuffix, inItem⟩)

theorem releaseApplicationData_moves (allowed : rules.mayRelease e) :
    Moves rules e e.releaseApplicationData :=
  Change.moves (.released allowed) rfl rfl rfl rfl

theorem resetForHelloRetry_moves (allowed : rules.mayRetry e) :
    Moves rules e e.resetForHelloRetry := by
  have retried : Moves rules e { e with hsSendSeq := 0 } :=
    Change.moves (.retried allowed) rfl rfl rfl rfl
  have filtered : Quiet rules.slices rules.known { e with hsSendSeq := 0 }
      { e with hsSendSeq := 0, queueRx := e.queueRx.filter fun item => !item.first.isHandled } :=
    Quiet.of_subset fun item member => List.mem_of_mem_filter member
  exact retried.trans (filtered.moves.trans (Quiet.moves (Quiet.of_same rfl rfl)))

end Moves

end Dimpl.Dtls13
