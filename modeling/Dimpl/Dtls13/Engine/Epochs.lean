import Dimpl.Dtls13.Engine.Counters

/-!
# The receive epochs that are live

A KeyUpdate of the peer adds an epoch behind the newest, and of five the oldest goes. As long as
they follow one another their low bits tell them apart, once the handshake keys are gone.
-/

namespace Dimpl.Dtls13

open Nom Program

/-- The receive entries that make room for one more. -/
def Engine.keptEntries (e : Engine) : List RecvEpochEntry :=
  if e.appRecvKeys.length ≥ 4 then e.appRecvKeys.tail else e.appRecvKeys

/-- Between one and four receive epochs follow one another up to the newest, and without
handshake keys the low bits of each stand for it and not for the handshake. -/
structure Engine.Follows (newest : Nat) (e : Engine) : Prop where
  present : 1 ≤ e.appRecvKeys.length
  few : e.appRecvKeys.length ≤ 4
  consecutive : e.appRecvKeys.map RecvEpochEntry.epoch =
    List.range' (newest + 1 - e.appRecvKeys.length) e.appRecvKeys.length
  resolves : e.releaseAppData = true → ∀ entry ∈ e.appRecvKeys,
    e.resolveEpoch (entry.epoch % 4) = entry.epoch ∧ entry.epoch ≠ 2

/-- The receive epochs behind so many KeyUpdates of the peer. -/
def liveEpochs (updates : Nat) : List Nat :=
  List.range' (4 + updates - min 4 (updates + 1)) (min 4 (updates + 1))

/-- How many times application keys were installed and followed by new ones. -/
structure Engine.Turns (installs updates : Nat) (e : Engine) : Prop where
  once : installs ≤ 1
  dropped : e.releaseAppData = true → e.hsRecvKeys = none
  before : installs = 0 → updates = 0 ∧ e.ledger.recvEpochs = []
  behind : installs = 1 → e.ledger.recvEpochs = liveEpochs updates

/-- Whether application data is released, and the handshake keys. -/
def Engine.gate (e : Engine) : Bool × Option EpochKeys := (e.releaseAppData, e.hsRecvKeys)

namespace Call

/-- Application keys are installed. -/
def installs (e : Engine) : Call → Bool
  | .installApplicationKeys client server =>
    (value? (Dtls13.installApplicationKeys client server) e).isSome
  | _ => false

/-- Clients and servers install the handshake keys before they release application data. -/
def Staged (e : Engine) : Call → Prop
  | .installHandshakeKeys _ _ => e.releaseAppData = false
  | _ => True

end Call

section Epochs

variable {e : Engine} {newest first count : Nat}

/-- Four epochs that follow one another differ in their low bits. -/
theorem eq_of_lowBits {epoch other : Nat} (few : count ≤ 4) (member : epoch ∈ List.range' first count)
    (member' : other ∈ List.range' first count) (same : other % 4 = epoch % 4) : other = epoch := by
  rw [List.mem_range'_1] at member member'
  omega

/-- Without handshake keys the newest epoch with the low bits is found, and there is only one. -/
theorem resolveEpoch_live (few : e.appRecvKeys.length ≤ 4) (dropped : e.hsRecvKeys = none)
    (consecutive : e.appRecvKeys.map RecvEpochEntry.epoch = List.range' first e.appRecvKeys.length)
    {entry : RecvEpochEntry} (member : entry ∈ e.appRecvKeys) :
    e.resolveEpoch (entry.epoch % 4) = entry.epoch := by
  unfold Engine.resolveEpoch
  rw [dropped]
  simp only [Option.isSome_none, Bool.false_and, Bool.false_eq_true, if_false]
  have inRange : ∀ other ∈ e.appRecvKeys, other.epoch ∈ List.range' first e.appRecvKeys.length :=
    fun other member => consecutive ▸ List.mem_map_of_mem member
  have isMatch : entry ∈ e.appRecvKeys.filter fun other => other.epoch % 4 = entry.epoch % 4 :=
    List.mem_filter.mpr ⟨member, by simp⟩
  cases isLast : (e.appRecvKeys.filter fun other => other.epoch % 4 = entry.epoch % 4).getLast? with
  | none =>
      rw [List.getLast?_eq_none_iff] at isLast
      rw [isLast] at isMatch
      cases isMatch
  | some last =>
      obtain ⟨isLive, same⟩ := List.mem_filter.mp (List.mem_of_getLast? isLast)
      exact eq_of_lowBits few (inRange entry member) (inRange last isLive) (by simpa using same)

theorem length_live {updates : Nat} : (liveEpochs updates).length = min 4 (updates + 1) :=
  List.length_range'

theorem last_live {updates : Nat} : (liveEpochs updates).getLast? = some (3 + updates) := by
  unfold liveEpochs
  rw [List.getLast?_range', if_neg (by omega)]
  congr 1
  omega

/-- The epoch behind the newest is added, and the oldest of four goes. -/
theorem rotated_live {updates : Nat} (room : updates + 1 < 65533) :
    rotated (liveEpochs updates) = liveEpochs (updates + 1) := by
  unfold rotated
  rw [last_live, length_live, Option.getD_some, Nat.mod_eq_of_lt (by omega)]
  unfold liveEpochs
  split
  · rw [List.tail_range', show min 4 (updates + 1 + 1) = 3 + 1 by omega, List.range'_1_concat,
      show min 4 (updates + 1) - 1 = 3 by omega]
    congr 2 <;> omega
  · rw [show min 4 (updates + 1 + 1) = min 4 (updates + 1) + 1 by omega, List.range'_1_concat]
    congr 2 <;> omega

/-- The newest of the epochs that follow one another is the last. -/
theorem Engine.Follows.last (follows : e.Follows newest) (late : 3 ≤ newest) :
    e.ledger.recvEpochs.getLast? = some newest := by
  have few := follows.few
  have nonempty := follows.present
  refine (congrArg List.getLast? follows.consecutive).trans ?_
  rw [List.getLast?_range', if_neg (by omega)]
  congr 1
  omega

theorem Engine.Turns.follows {updates : Nat} (turns : e.Turns 1 updates) : e.Follows (3 + updates) := by
  have epochs : e.appRecvKeys.map RecvEpochEntry.epoch = liveEpochs updates := turns.behind rfl
  have length : e.appRecvKeys.length = min 4 (updates + 1) := by
    rw [← List.length_map, epochs, length_live]
  have consecutive : e.appRecvKeys.map RecvEpochEntry.epoch =
      List.range' (3 + updates + 1 - e.appRecvKeys.length) e.appRecvKeys.length := by
    rw [epochs, liveEpochs, length, show 3 + updates + 1 = 4 + updates by omega]
  have few : e.appRecvKeys.length ≤ 4 := by omega
  refine ⟨by omega, few, consecutive, fun released entry member => ⟨?_, ?_⟩⟩
  · exact resolveEpoch_live few (turns.dropped released) consecutive member
  · have inRange : entry.epoch ∈ e.appRecvKeys.map RecvEpochEntry.epoch := List.mem_map_of_mem member
    rw [consecutive, List.mem_range'_1] at inRange
    omega

end Epochs

section Updates

variable {e : Engine}

/-- What a KeyUpdate of the peer does to the receive entries: those it keeps stay what they are. -/
theorem updateRecvKeys_entries :
    Post updateRecvKeys e
      (fun _ e' => ∃ latest keys, e.appRecvKeys.getLast? = some latest ∧
        e'.appRecvKeys = e.keptEntries ++ [.fresh ((latest.epoch + 1) % 65536) keys])
      (fun _ e' => e'.appRecvKeys = e.appRecvKeys ∨
        (4 < e.appRecvKeys.length ∧ e'.appRecvKeys = e.keptEntries)) := by
  unfold updateRecvKeys
  rw [post_bind, post_get, post_bind, post_orThrow]
  refine ⟨fun latest isLatest => ?_, fun _ => .inl rfl⟩
  rw [post_bind]
  refine (deriveNextTrafficSecret_readOnly e).mono ?_ fun _ _ same => same ▸ .inl rfl
  rintro nextSecret _ rfl
  rw [post_bind]
  refine deriveEpochKeys_post.mono ?_ ?_
  · rintro keys _ ⟨-, rfl⟩
    rw [post_bind, post_modify]
    unfold pushRecvEpoch
    rw [post_bind, post_get, post_ite]
    refine ⟨fun _ => ⟨latest, keys, isLatest, rfl⟩, fun full => .inr ⟨?_, rfl⟩⟩
    have full : ¬e.keptEntries.length < 4 := full
    unfold Engine.keptEntries at full
    split at full
    · rw [List.length_tail] at full
      omega
    · omega
  · rintro _ _ rfl
    exact .inl rfl

/-- Of the receive entries a suffix is kept, and at most one new follows it. -/
theorem updateRecvKeys_keeps :
    ∃ kept new, kept <:+ e.appRecvKeys ∧ (e.exec .updateRecvKeys).appRecvKeys = kept ++ new ∧
      new.length ≤ 1 ∧ (e.appRecvKeys.length ≤ 4 → e.appRecvKeys.length ≤ kept.length + new.length) := by
  have suffix : e.keptEntries <:+ e.appRecvKeys := by
    unfold Engine.keptEntries
    split
    · exact List.tail_suffix _
    · exact List.suffix_rfl
  have entries : Post updateRecvKeys e
      (fun _ e' => ∃ kept new, kept <:+ e.appRecvKeys ∧ e'.appRecvKeys = kept ++ new ∧
        new.length ≤ 1 ∧ (e.appRecvKeys.length ≤ 4 → e.appRecvKeys.length ≤ kept.length + new.length))
      fun _ e' => ∃ kept new, kept <:+ e.appRecvKeys ∧ e'.appRecvKeys = kept ++ new ∧
        new.length ≤ 1 ∧ (e.appRecvKeys.length ≤ 4 → e.appRecvKeys.length ≤ kept.length + new.length) := by
    refine updateRecvKeys_entries.mono ?_ ?_
    · rintro _ e' ⟨latest, keys, -, entries⟩
      refine ⟨e.keptEntries, _, suffix, entries, Nat.le_refl 1, fun few => ?_⟩
      unfold Engine.keptEntries
      split
      · rw [List.length_tail, List.length_singleton]
        omega
      · exact Nat.le_add_right _ _
    · rintro _ e' (same | ⟨many, entries⟩)
      · exact ⟨e.appRecvKeys, [], List.suffix_rfl, by rw [same, List.append_nil], Nat.zero_le 1,
          fun _ => Nat.le_refl _⟩
      · refine ⟨e.keptEntries, [], suffix, by rw [entries, List.append_nil], Nat.zero_le 1, fun few => ?_⟩
        omega
  exact post_state.mp entries

/-- The receive epochs behind a call. -/
theorem exec_recvEpochs {call : Call} (few : e.appRecvKeys.length ≤ 4) :
    (e.exec call).ledger.recvEpochs =
      if call.installs e then e.ledger.recvEpochs ++ [3]
      else if call.rotatesRecv e then rotated e.ledger.recvEpochs
      else e.ledger.recvEpochs := by
  have kept : ∀ {program : EngineM Unit}, Along (Keeps Engine.ledger) program →
      (finalState program e).ledger.recvEpochs = e.ledger.recvEpochs := fun keeps =>
    congrArg Ledger.recvEpochs (keeps.finalState e)
  have uttered : ∀ {program : EngineM Unit}, Along (Keeps Engine.unuttered) program →
      (finalState program e).ledger.recvEpochs = e.ledger.recvEpochs := fun keeps =>
    (keeps.through (fun e => e.ledger.recvEpochs) fun _ => rfl).finalState e
  cases call with
  | receivePacket datagram => exact kept receivePacket_ledger
  | nextHandshake wanted withTranscript allowUnknown =>
      exact kept (along_bind nextHandshakeWithOptions_ledger fun _ => along_pure)
  | createHandshake type body => exact uttered (createHandshake_unuttered along_pure)
  | createRecord contentType epoch saveFragment fragment => exact kept createRecord_ledger
  | sendAck => exact kept sendAck_ledger
  | installHandshakeKeys client server => exact kept installHandshakeKeys_ledger
  | installApplicationKeys client server =>
      have ledger := (@installApplicationKeys_ledger client server e).outcome
      rcases ledger with ⟨_, returned, moved⟩ | ⟨failed, _, same⟩
      · have installs : (Call.installApplicationKeys client server).installs e = true :=
          congrArg Option.isSome returned
        rw [if_pos installs]
        exact congrArg Ledger.recvEpochs moved
      · have none : (Call.installApplicationKeys client server).installs e = false :=
          congrArg Option.isSome failed
        rw [none]
        exact congrArg Ledger.recvEpochs same
  | createKeyUpdate request => exact uttered createKeyUpdate_unuttered
  | updateRecvKeys =>
      have ledger := (@updateRecvKeys_ledger e).outcome
      have entries := (@updateRecvKeys_entries e).outcome
      have other : Call.updateRecvKeys.installs e = false := rfl
      rcases ledger with ⟨_, returned, moved, -⟩ | ⟨failed, -⟩
      · have rotates : Call.updateRecvKeys.rotatesRecv e = true := congrArg Option.isSome returned
        rw [other, if_neg Bool.false_ne_true, if_pos rotates]
        exact congrArg Ledger.recvEpochs moved
      · have none : Call.updateRecvKeys.rotatesRecv e = false := congrArg Option.isSome failed
        rw [other, none]
        rcases entries with ⟨_, returned, -⟩ | ⟨-, _, same | ⟨many, -⟩⟩
        · cases failed.symm.trans returned
        · exact congrArg (List.map RecvEpochEntry.epoch) same
        · omega
  | enablePeerEncryption => exact kept enablePeerEncryption_ledger
  | handleTimeout now => exact kept handleTimeout_ledger
  | pollOutput bufLen now =>
      have polled : Along (Keeps Engine.unpolled) (Call.pollOutput bufLen now).program :=
        along_bind pollOutput_unpolled fun _ => along_pure
      exact (polled.through (fun e => e.ledger.recvEpochs) fun _ => rfl).finalState e
  | injectHybridClientHello _ | setCipherSuite _ | advancePeerHandshakeSeq | flightBegin
  | flightStopResendTimers | cancelFlights | abort | resetForHelloRetry | releaseApplicationData => rfl

/-- Handshake keys are gone from the release on. -/
theorem exec_dropped {call : Call} (staged : call.Staged e)
    (dropped : e.releaseAppData = true → e.hsRecvKeys = none) :
    (e.exec call).releaseAppData = true → (e.exec call).hsRecvKeys = none := by
  have kept : ∀ {program : EngineM Unit}, Along (Keeps Engine.gate) program →
      (finalState program e).releaseAppData = true → (finalState program e).hsRecvKeys = none := by
    intro program keeps released
    have same := keeps.finalState e
    have before : (finalState program e).releaseAppData = e.releaseAppData := congrArg Prod.fst same
    exact (congrArg Prod.snd same : _).trans (dropped (before.symm.trans released))
  cases call with
  | receivePacket datagram => exact kept (receivePacket_unreceived.through Engine.gate fun _ => rfl)
  | nextHandshake wanted withTranscript allowUnknown =>
      have read : Along (Keeps Engine.unread) (Call.nextHandshake wanted withTranscript allowUnknown).program :=
        along_bind nextHandshakeWithOptions_unread fun _ => along_pure
      exact kept (read.through Engine.gate fun _ => rfl)
  | createHandshake type body =>
      exact kept ((createHandshake_unuttered along_pure).through Engine.gate fun _ => rfl)
  | createRecord contentType epoch saveFragment fragment =>
      exact kept (createRecord_unspoken.through Engine.gate fun _ => rfl)
  | sendAck => exact kept (sendAck_unspoken.through Engine.gate fun _ => rfl)
  | installHandshakeKeys client server =>
      intro released
      have same := (@installHandshakeKeys_unkeyed client server).finalState e
      have early : e.releaseAppData = false := staged
      cases early.symm.trans ((congrArg Engine.releaseAppData same : _).symm.trans released)
  | installApplicationKeys client server =>
      exact kept (installApplicationKeys_unequipped.through Engine.gate fun _ => rfl)
  | createKeyUpdate request => exact kept (createKeyUpdate_unuttered.through Engine.gate fun _ => rfl)
  | updateRecvKeys => exact kept (updateRecvKeys_unequipped.through Engine.gate fun _ => rfl)
  | enablePeerEncryption =>
      refine kept (along_get_bind fun e => ?_)
      dsimp only
      rw [post_bind, post_set]
      exact (reparse_unreceived.through Engine.gate fun _ => rfl).after rfl
  | handleTimeout now => exact kept (handleTimeout_untimed.through Engine.gate fun _ => rfl)
  | pollOutput bufLen now =>
      have polled : Along (Keeps Engine.unpolled) (Call.pollOutput bufLen now).program :=
        along_bind pollOutput_unpolled fun _ => along_pure
      exact kept (polled.through Engine.gate fun _ => rfl)
  | releaseApplicationData => exact fun _ => rfl
  | injectHybridClientHello _ | setCipherSuite _ | advancePeerHandshakeSeq | flightBegin
  | flightStopResendTimers | cancelFlights | abort | resetForHelloRetry => exact dropped

end Updates

section Turns

variable {e : Engine} {installs updates : Nat}

theorem installs_rotatesRecv {call : Call} (installs : call.installs e = true) :
    call.rotatesRecv e = false := by
  cases call <;> first | rfl | cases installs

theorem rotatesRecv_some {call : Call} (rotates : call.rotatesRecv e = true) :
    e.ledger.recvEpochs ≠ [] := by
  cases call with
  | updateRecvKeys =>
      rcases (@updateRecvKeys_ledger e).outcome with ⟨_, -, -, some⟩ | ⟨failed, -⟩
      · exact some
      · have none : Call.updateRecvKeys.rotatesRecv e = false := congrArg Option.isSome failed
        cases none.symm.trans rotates
  | _ => cases rotates

/-- A call that installs keys for the first time, or has room for another epoch, goes on. -/
theorem exec_turns {call : Call} (turns : e.Turns installs updates) (staged : call.Staged e)
    (once : installs + (call.installs e).toNat ≤ 1)
    (room : updates + (call.rotatesRecv e).toNat < 65533) :
    (e.exec call).Turns (installs + (call.installs e).toNat) (updates + (call.rotatesRecv e).toNat) := by
  have few : e.appRecvKeys.length ≤ 4 := by
    have none := turns.before
    have live := turns.behind
    have length : e.ledger.recvEpochs.length = e.appRecvKeys.length := List.length_map _
    rw [← length]
    obtain rfl | rfl : installs = 0 ∨ installs = 1 := by omega
    · simp [(none rfl).2]
    · rw [live rfl, length_live]
      omega
  have epochs := @exec_recvEpochs e call few
  have dropped := exec_dropped staged turns.dropped
  cases isFirst : call.installs e with
  | true =>
      have none : installs = 0 := by
        rw [isFirst, Bool.toNat_true] at once
        omega
      obtain ⟨rfl, empty⟩ := turns.before none
      rw [isFirst, if_pos rfl, empty] at epochs
      rw [installs_rotatesRecv isFirst, none]
      exact ⟨Nat.le_refl 1, dropped, nofun, fun _ => epochs⟩
  | false =>
      rw [isFirst, if_neg Bool.false_ne_true] at epochs
      cases rotates : call.rotatesRecv e with
      | false =>
          rw [rotates, if_neg Bool.false_ne_true] at epochs
          exact ⟨turns.once, dropped, epochs ▸ turns.before, epochs ▸ turns.behind⟩
      | true =>
          rw [rotates, if_pos rfl] at epochs
          rw [rotates, Bool.toNat_true] at room
          refine ⟨turns.once, dropped, fun none => ?_, fun one => ?_⟩
          · exact absurd (turns.before none).2 (rotatesRecv_some rotates)
          · rw [epochs, turns.behind one, rotated_live room]
            rfl

end Turns

end Dimpl.Dtls13
