import Dimpl.Dtls13.Engine.Replay

/-!
# Numbers of protected records

No number is used twice under a key. Every key records are sent with counts its own numbers; whatever
was sealed under it is below its count, and keys are never installed twice.
-/

namespace Dimpl.Dtls13

open Nom Program

/-- The keys records are sent with, each with the number of its next record. -/
def Engine.outlets (e : Engine) : List (KeyId × Nat) :=
  (e.hsSendKeys.map fun keys => (keys.id, e.hsSendSeq)).toList ++
    ((e.prevAppSendKeys.map fun keys => (keys.id, e.prevAppSendSeq)).toList ++
      (e.appSendKeys.map fun keys => (keys.id, e.appSendSeq)).toList)

/-- The key and the number of a record that was sealed. -/
def Event.sealing : Event → Option (KeyId × Nat)
  | .sealed key sequence => some (key, sequence.sequenceNumber)
  | _ => none

/-- The records that were sealed, by key and number. -/
def sealings (log : List Event) : List (KeyId × Nat) := log.filterMap Event.sealing

/-- What was sealed under a key in use is below its count, and nothing was sealed twice. -/
structure Engine.SealInv (e : Engine) : Prop where
  distinct : (e.outlets.map fun outlet => outlet.1.installation).Nodup
  live : ∀ outlet ∈ e.outlets, outlet.1.installation < e.installations
  past : ∀ sealing ∈ sealings e.log, sealing.1.installation < e.installations
  below : ∀ outlet ∈ e.outlets, ∀ sealing ∈ sealings e.log, sealing.1 = outlet.1 → sealing.2 < outlet.2
  once : (sealings e.log).Nodup
  small : ∀ sealing ∈ sealings e.log, sealing.2 < maxSequenceNumber

section Invariant

variable {S : Bytes → Prop} {K : Prop} {rules : Rules} {e e' : Engine}

theorem sealings_logEvent {event : Event} (other : event.sealing = none) :
    sealings (e.logEvent event).log = sealings e.log := by
  simp [sealings, Engine.logEvent, List.filterMap_append, other]

/-- Keys that were there or were installed since. -/
theorem Engine.SealInv.of_outlets (inv : e.SealInv) (log : sealings e'.log = sealings e.log)
    (more : e.installations ≤ e'.installations)
    (distinct : (e'.outlets.map fun outlet => outlet.1.installation).Nodup)
    (outlets : ∀ outlet ∈ e'.outlets, outlet ∈ e.outlets ∨
      (e.installations ≤ outlet.1.installation ∧ outlet.1.installation < e'.installations)) :
    e'.SealInv where
  distinct := distinct
  live := by
    intro outlet member
    rcases outlets outlet member with old | ⟨_, new⟩
    · exact Nat.lt_of_lt_of_le (inv.live outlet old) more
    · exact new
  past := fun sealing member => Nat.lt_of_lt_of_le (inv.past sealing (log ▸ member)) more
  below := by
    intro outlet member sealing isSealed sameKey
    rw [log] at isSealed
    rcases outlets outlet member with old | ⟨new, _⟩
    · exact inv.below outlet old sealing isSealed sameKey
    · -- Nothing was sealed under a key that did not exist.
      have before := inv.past sealing isSealed
      rw [sameKey] at before
      omega
  once := log ▸ inv.once
  small := log ▸ inv.small

/-- Fewer keys. -/
theorem Engine.SealInv.of_sublist (inv : e.SealInv) (outlets : e'.outlets.Sublist e.outlets)
    (log : sealings e'.log = sealings e.log) (more : e.installations ≤ e'.installations) : e'.SealInv :=
  inv.of_outlets log more (inv.distinct.sublist (outlets.map _))
    fun _ member => .inl (outlets.subset member)

/-- Nothing the counts depend on has changed. -/
theorem Engine.SealInv.of_same (inv : e.SealInv) (outlets : e'.outlets = e.outlets)
    (log : sealings e'.log = sealings e.log) (more : e.installations ≤ e'.installations) : e'.SealInv :=
  inv.of_sublist (outlets ▸ List.Sublist.refl _) log more

/-- A fresh key joins some of the others. -/
theorem Engine.SealInv.of_added (inv : e.SealInv) (fresh : KeyId × Nat) {outlets : List (KeyId × Nat)}
    (kept : outlets.Sublist e.outlets) (added : e'.outlets.Perm (fresh :: outlets))
    (new : e.installations ≤ fresh.1.installation) (log : sealings e'.log = sealings e.log)
    (count : fresh.1.installation < e'.installations) : e'.SealInv := by
  refine inv.of_outlets log (by omega) ?_ fun outlet member => ?_
  · rw [(added.map fun outlet : KeyId × Nat => outlet.1.installation).nodup_iff]
    refine List.nodup_cons.mpr ⟨?_, inv.distinct.sublist (kept.map _)⟩
    intro isOld
    obtain ⟨outlet, member, same⟩ := List.mem_map.mp isOld
    have before := inv.live outlet (kept.subset member)
    have same : outlet.1.installation = fresh.1.installation := same
    omega
  · rcases List.mem_cons.mp (added.subset member) with rfl | old
    · exact .inr ⟨new, count⟩
    · exact .inl (kept.subset old)

/-- The key of a slot and its count stand for one outlet. -/
theorem Engine.outlets_bumpSlot {epoch : Nat} {slot : SendSlot} {keys : EpochKeys}
    (available : e.slotKeys slot = some keys) :
    ∃ before after, e.outlets = before ++ (keys.id, e.slotSeq slot) :: after ∧
      (e.bumpSlot epoch slot).outlets = before ++ (keys.id, e.slotSeq slot + 1) :: after := by
  cases slot with
  | handshake =>
      have isKey : e.hsSendKeys = some keys := available
      refine ⟨[], (e.prevAppSendKeys.map fun keys => (keys.id, e.prevAppSendSeq)).toList ++
        (e.appSendKeys.map fun keys => (keys.id, e.appSendSeq)).toList, ?_, ?_⟩
      all_goals simp [Engine.outlets, Engine.slotSeq, Engine.bumpSlot, isKey]
  | previous =>
      have isKey : e.prevAppSendKeys = some keys := available
      refine ⟨(e.hsSendKeys.map fun keys => (keys.id, e.hsSendSeq)).toList,
        (e.appSendKeys.map fun keys => (keys.id, e.appSendSeq)).toList, ?_, ?_⟩
      all_goals simp [Engine.outlets, Engine.slotSeq, Engine.bumpSlot, isKey]
  | current =>
      have isKey : e.appSendKeys = some keys := available
      refine ⟨(e.hsSendKeys.map fun keys => (keys.id, e.hsSendSeq)).toList ++
        (e.prevAppSendKeys.map fun keys => (keys.id, e.prevAppSendSeq)).toList, [], ?_, ?_⟩
      all_goals simp [Engine.outlets, Engine.slotSeq, Engine.bumpSlot, isKey]

theorem Engine.outlets_slot {slot : SendSlot} {keys : EpochKeys} (available : e.slotKeys slot = some keys) :
    (keys.id, e.slotSeq slot) ∈ e.outlets := by
  obtain ⟨before, after, isOutlet, -⟩ := @Engine.outlets_bumpSlot e 0 slot keys available
  simp [isOutlet]

/-- A sealed record has a number that was not used under its key. -/
theorem Engine.SealInv.sealed {epoch : Nat} {keys : EpochKeys} (inv : e.SealInv)
    (available : e.slotKeys (e.sendSlot epoch) = some keys)
    (room : e.slotSeq (e.sendSlot epoch) < maxSequenceNumber) :
    ((e.bumpSlot epoch (e.sendSlot epoch)).logEvent
      (.sealed keys.id ⟨epoch, e.slotSeq (e.sendSlot epoch)⟩)).SealInv := by
  obtain ⟨before, after, isOutlet, bumped⟩ := @Engine.outlets_bumpSlot e epoch _ _ available
  generalize isSlot : e.sendSlot epoch = slot at *
  have isLive : (keys.id, e.slotSeq slot) ∈ e.outlets := by simp [isOutlet]
  have log : sealings ((e.bumpSlot epoch slot).logEvent (.sealed keys.id ⟨epoch, e.slotSeq slot⟩)).log =
      sealings e.log ++ [(keys.id, e.slotSeq slot)] := by
    cases slot <;> simp [sealings, Engine.logEvent, Engine.bumpSlot, List.filterMap_append, Event.sealing]
  have outlets : ((e.bumpSlot epoch slot).logEvent (.sealed keys.id ⟨epoch, e.slotSeq slot⟩)).outlets =
      before ++ (keys.id, e.slotSeq slot + 1) :: after := bumped
  have installed : ((e.bumpSlot epoch slot).logEvent
      (.sealed keys.id ⟨epoch, e.slotSeq slot⟩)).installations = e.installations := by
    cases slot <;> rfl
  -- No other key in use is this one.
  have others : ∀ other ∈ before ++ after, other.1 ≠ keys.id := by
    intro other member sameKey
    have distinct := inv.distinct
    rw [isOutlet] at distinct
    simp only [List.map_append, List.map_cons] at distinct
    refine (List.nodup_cons.mp (List.nodup_middle.mp distinct)).1 ?_
    rw [← List.map_append]
    exact List.mem_map.mpr ⟨other, member, by rw [sameKey]⟩
  refine ⟨?_, ?_, ?_, ?_, ?_, ?_⟩
  · have distinct := inv.distinct
    rw [isOutlet] at distinct
    rw [outlets]
    simpa using distinct
  · intro other member
    rw [outlets] at member
    rw [installed]
    rcases List.mem_append.mp member with inFront | behind
    · exact inv.live other (by simp [isOutlet, inFront])
    · rcases List.mem_cons.mp behind with rfl | inBack
      · exact inv.live (keys.id, e.slotSeq slot) isLive
      · exact inv.live other (by simp [isOutlet, inBack])
  · intro sealing member
    rw [log] at member
    rw [installed]
    rcases List.mem_append.mp member with old | new
    · exact inv.past sealing old
    · cases List.mem_singleton.mp new
      exact inv.live (keys.id, e.slotSeq slot) isLive
  · intro other member sealing isSealed sameKey
    rw [outlets] at member
    rw [log] at isSealed
    have isOther : other ∈ before ++ after ∨ other = (keys.id, e.slotSeq slot + 1) := by
      simp only [List.mem_append, List.mem_cons] at member ⊢
      tauto
    rcases isOther with inOthers | rfl
    · have queued : other ∈ e.outlets := by
        simp only [isOutlet, List.mem_append, List.mem_cons] at inOthers ⊢
        tauto
      rcases List.mem_append.mp isSealed with old | new
      · exact inv.below other queued sealing old sameKey
      · cases List.mem_singleton.mp new
        exact absurd sameKey.symm (others other inOthers)
    · rcases List.mem_append.mp isSealed with old | new
      · exact Nat.lt_succ_of_lt (inv.below (keys.id, e.slotSeq slot) isLive sealing old sameKey)
      · cases List.mem_singleton.mp new
        exact Nat.lt_succ_self _
  · rw [log]
    refine inv.once.append (by simp) ?_
    intro sealing old new
    cases List.mem_singleton.mp new
    exact absurd (inv.below (keys.id, e.slotSeq slot) isLive _ old rfl) (Nat.lt_irrefl _)
  · intro sealing member
    rw [log] at member
    rcases List.mem_append.mp member with old | new
    · exact inv.small sealing old
    · cases List.mem_singleton.mp new
      exact room

/-- The counts, the sealings and the number of keys depend on the core only. -/
theorem Engine.SealInv.of_core (inv : e.SealInv) (same : e'.core = e.core) : e'.SealInv := by
  have log : e'.log = e.log := congrArg Core.log same
  have count : e'.installations = e.installations := congrArg Core.installations same
  have outlets : e'.outlets = e.outlets := by
    have handshake : e'.hsSendKeys = e.hsSendKeys := congrArg Core.hsSendKeys same
    have previous : e'.prevAppSendKeys = e.prevAppSendKeys := congrArg Core.prevAppSendKeys same
    have current : e'.appSendKeys = e.appSendKeys := congrArg Core.appSendKeys same
    have numbers : e'.hsSendSeq = e.hsSendSeq ∧ e'.prevAppSendSeq = e.prevAppSendSeq ∧
        e'.appSendSeq = e.appSendSeq :=
      ⟨congrArg Core.hsSendSeq same, congrArg Core.prevAppSendSeq same, congrArg Core.appSendSeq same⟩
    simp [Engine.outlets, handshake, previous, current, numbers]
  exact inv.of_same outlets (by rw [log]) count.ge

theorem Step.sealInv (step : Step S K e e') (inv : e.SealInv) : e'.SealInv := by
  cases step with
  | other same => exact inv.of_core same
  | opened slice fresh decrypted =>
      obtain ⟨sameLog, sameCount⟩ := replayUpdate_log e ‹Sequence›
      refine inv.of_same ?_ ((sealings_logEvent rfl).trans (by rw [sameLog])) sameCount.ge
      unfold Engine.replayUpdate
      split <;> rfl
  | queue sources => exact inv.of_same rfl rfl (Nat.le_refl _)
  | delivered released queued data => exact inv.of_same rfl (sealings_logEvent rfl) (Nat.le_refl _)
  | assembled carried => exact inv.of_same rfl (sealings_logEvent rfl) (Nat.le_refl _)
  | sealed available room known => exact inv.sealed available room
  | forgotten =>
      refine inv.of_sublist ?_ rfl (Nat.le_refl _)
      exact (List.Sublist.refl _).append ((List.nil_sublist _).append (List.Sublist.refl _))

/-- The keys in use but for the current ones of the application. -/
def Engine.front (e : Engine) : List (KeyId × Nat) :=
  (e.hsSendKeys.map fun keys => (keys.id, e.hsSendSeq)).toList ++
    (e.prevAppSendKeys.map fun keys => (keys.id, e.prevAppSendSeq)).toList

theorem Engine.front_sublist : e.front.Sublist e.outlets := by
  rw [Engine.outlets, ← List.append_assoc]
  exact List.sublist_append_left _ _

/-- Every change keeps the invariant: new keys have not sealed anything yet, and the handshake counts
from zero again only without keys. -/
theorem Change.sealInv (unkeyed : ∀ e : Engine, rules.mayRetry e → e.hsSendKeys = none)
    (change : Change rules e e') (inv : e.SealInv) : e'.SealInv := by
  cases change with
  | quiet step => exact step.sealInv inv
  | received => exact inv.of_same rfl (sealings_logEvent rfl) (Nat.le_refl _)
  | counted => exact inv.of_same rfl rfl (Nat.le_succ _)
  | @handshakeSend keys fresh =>
      refine inv.of_added (keys.id, e.hsSendSeq) (List.sublist_append_right _ _) (List.Perm.refl _) ?_ rfl ?_
      · simp [fresh]
      · simp [fresh]
  | @handshakeKeys send recv freshSend freshRecv =>
      refine inv.of_added (send.id, 0) (List.sublist_append_right _ _) (List.Perm.refl _) ?_ rfl ?_
      · simp [freshSend]
      · simp [freshSend]
  | @applicationSend keys fresh epoch =>
      refine inv.of_added (keys.id, e.appSendSeq) e.front_sublist ?_ ?_ rfl ?_
      · simpa [Engine.outlets, Engine.front] using List.perm_append_singleton (keys.id, e.appSendSeq) e.front
      · simp [fresh]
      · simp [fresh]
  | @applicationKeys send recv freshSend freshRecv epoch =>
      refine inv.of_added (send.id, 0) e.front_sublist ?_ ?_ rfl ?_
      · simpa [Engine.outlets, Engine.front] using List.perm_append_singleton (send.id, 0) e.front
      · simp [freshSend]
      · simp [freshSend]
  | sendLost =>
      refine inv.of_sublist ?_ rfl (Nat.le_refl _)
      simp [Engine.outlets]
  | @sendRotated old new current fresh =>
      have kept : ((e.hsSendKeys.map fun keys => (keys.id, e.hsSendSeq)).toList ++
          [(old.id, e.appSendSeq)]).Sublist e.outlets := by
        have isOld : (e.appSendKeys.map fun keys => (keys.id, e.appSendSeq)).toList =
            [(old.id, e.appSendSeq)] := by simp [current]
        rw [Engine.outlets, isOld]
        exact (List.Sublist.refl _).append (List.sublist_append_right _ _)
      refine inv.of_added (new.id, 0) kept ?_ ?_ rfl ?_
      · simpa [Engine.outlets] using List.perm_append_singleton (new.id, 0)
          ((e.hsSendKeys.map fun keys => (keys.id, e.hsSendSeq)).toList ++ [(old.id, e.appSendSeq)])
      · simp [fresh]
      · simp [fresh]
  | recvEvicted => exact inv.of_same rfl rfl (Nat.le_refl _)
  | recvAdded fresh => exact inv.of_same rfl rfl (Nat.le_succ _)
  | released allowed => exact inv.of_same rfl rfl (Nat.le_refl _)
  | retried allowed =>
      refine inv.of_same ?_ rfl (Nat.le_refl _)
      simp [Engine.outlets, unkeyed e allowed]
  | enabled allowed => exact inv.of_same rfl rfl (Nat.le_refl _)

theorem Changes.sealInv (unkeyed : ∀ e : Engine, rules.mayRetry e → e.hsSendKeys = none)
    (changes : Changes rules e e') (inv : e.SealInv) : e'.SealInv := by
  induction changes with
  | refl => exact inv
  | tail _ change inductionHypothesis => exact change.sealInv unkeyed inductionHypothesis

/-- An engine without keys has sealed nothing. -/
theorem SealInv_new {config : Config} {certificate : DtlsCertificate} {rng : SeededRng}
    {isClient : Bool} : ((Engine.new config certificate rng).setClient isClient).SealInv :=
  ⟨List.nodup_nil, by simp [Engine.outlets, Engine.new, Engine.setClient],
    by simp [sealings, Engine.new, Engine.setClient],
    by simp [Engine.outlets, Engine.new, Engine.setClient], List.nodup_nil,
    by simp [sealings, Engine.new, Engine.setClient]⟩

/-- Every call is allowed, but a retry only before there are handshake keys. -/
def Rules.unkeyed : Rules where
  slices := fun _ => True
  known := False
  mayEnable := fun _ => True
  mayRelease := fun _ => True
  mayRetry := fun e => e.hsSendKeys = none

/-- A HelloRetryRequest restarts the handshake only before there are handshake keys. -/
def Call.RetriesEarly (e : Engine) : Call → Prop
  | .resetForHelloRetry => e.hsSendKeys = none
  | _ => True

theorem exec_sealInv {call : Call} (early : call.RetriesEarly e) (inv : e.SealInv) :
    (e.exec call).SealInv := by
  have allow : Rules.unkeyed.Allow e call := by
    cases call
    case resetForHelloRetry => exact early
    all_goals simp [Rules.Allow, Rules.unkeyed]
  have changes : Changes Rules.unkeyed e (e.exec call) := exec_changes (fun known => known) allow
  exact changes.sealInv (fun _ allowed => allowed) inv

end Invariant

end Dimpl.Dtls13
